import LineageSearch.Json.Token

/-!
# Reading JSON

The tokens of a document are put together one after the other.  Arrays and objects that
are still open are held in a list, the innermost first, so a document may be nested to
any depth.
-/

namespace LineageSearch

/-- An array or an object that is still open; its parts are held in reverse.  The name of
an object's frame is that of the field being read. -/
inductive JsonFrame where
  | array (items : List Json)
  | object (fields : List (Option Text × Json)) (name : Option Text)
deriving Repr

/-- What may come next: a value, a value or the end of an array, a name or the end of an
object, a name, a colon, a comma or the end of the innermost container, or nothing. -/
inductive JsonPlace where
  | value
  | firstItem
  | firstName
  | nextName
  | colon
  | afterValue
  | complete (document : Json)
deriving Repr

/-- A document that is being read. -/
structure JsonDraft where
  frames : List JsonFrame := []
  place : JsonPlace := .value
deriving Repr

namespace JsonDraft

/-- Puts a value where one is awaited. -/
def close (frames : List JsonFrame) (value : Json) : JsonDraft :=
  match frames with
  | [] => ⟨[], .complete value⟩
  | .array items :: outer => ⟨.array (value :: items) :: outer, .afterValue⟩
  | .object fields name :: outer => ⟨.object ((name, value) :: fields) name :: outer, .afterValue⟩

/-- Begins a value where one is awaited. -/
def begin (frames : List JsonFrame) : JsonToken → Option JsonDraft
  | .scalar value => some (close frames value)
  | .openArray => some ⟨.array [] :: frames, .firstItem⟩
  | .openObject => some ⟨.object [] none :: frames, .firstName⟩
  | _ => none

def readName (fields : List (Option Text × Json)) (outer : List JsonFrame) :
    JsonToken → Option JsonDraft
  | .scalar (.string name) => some ⟨.object fields name :: outer, .colon⟩
  | _ => none

def step (draft : JsonDraft) (token : JsonToken) : Option JsonDraft :=
  match draft.place, draft.frames, token with
  | .value, frames, token => begin frames token
  | .firstItem, .array items :: outer, .closeArray => some (close outer (.array items.reverse))
  | .firstItem, frames, token => begin frames token
  | .firstName, .object fields _ :: outer, .closeObject =>
    some (close outer (.object fields.reverse))
  | .firstName, .object fields _ :: outer, token => readName fields outer token
  | .nextName, .object fields _ :: outer, token => readName fields outer token
  | .colon, frames, .colon => some ⟨frames, .value⟩
  | .afterValue, .array items :: outer, .closeArray =>
    some (close outer (.array items.reverse))
  | .afterValue, .object fields _ :: outer, .closeObject =>
    some (close outer (.object fields.reverse))
  -- behind a comma neither an array nor an object may end
  | .afterValue, .array items :: outer, .comma => some ⟨.array items :: outer, .value⟩
  | .afterValue, .object fields name :: outer, .comma =>
    some ⟨.object fields name :: outer, .nextName⟩
  | _, _, _ => none

end JsonDraft

def Json.ofText? (text : Text) : Option Json :=
  match (JsonToken.scan? text).bind fun tokens => tokens.foldlM JsonDraft.step {} with
  | some ⟨_, .complete document⟩ => some document
  | _ => none

end LineageSearch
