import LineageSearch.Settings.Setting
import LineageSearch.Text.Digits

/-!
# Layers of settings

Settings come in layers: the built-in ones, those of a file, those of the environment.
Each layer names its values, and a name may be a path that leads inside a table or a list
of the layers below: `tags.sleeping.en[0]` is the first item of the list `en` in the table
`sleeping` of the table `tags`.  A name that is no path stands for itself, and so does
every name inside a table.

A path makes way for its value: what is no table where an entry is wanted, or no list where
an item is wanted, is replaced by an empty one.
-/

namespace LineageSearch

/-- A step from a value to one of its parts: to the entry of a table, or to the item of a
list.  Items are counted from zero, and from the end if their place is negative. -/
inductive SettingStep where
  | entry (name : Text)
  | item (place : Int)
deriving Repr, DecidableEq

/-- A name at the top of a layer and the steps from its value to one of its parts. -/
structure SettingPath where
  root : Text
  steps : List SettingStep := []
deriving Repr, DecidableEq

namespace SettingPath

/-- Whether a character may stand in a name of a path. -/
def isNameChar (c : Char) : Bool := c.isAlphanum || c == '_' || c == '-'

/-- The name at the beginning of a text, and the rest. -/
def name? (t : Text) : Option (Text × Text) :=
  let name := t.takeWhile isNameChar
  if name.isEmpty then none else some (name, t.drop name.length)

/-- The place at the beginning of a text, up to its closing bracket, and the rest.  Spaces
may surround its digits, and it has 64 bits. -/
def place? (t : Text) : Option (Int × Text) :=
  let isSpace (c : Char) : Bool := c == ' ' || c == '\t'
  let (negative, unsigned) := match t.dropWhile isSpace with
    | '-' :: rest => (true, rest)
    | rest => (false, rest)
  let digits := unsigned.takeWhile Char.isDigit
  let value : Int := Text.decimalValue digits
  let place := if negative then -value else value
  match (unsigned.drop digits.length).dropWhile isSpace with
  | ']' :: rest =>
    let fits := decide (-0x8000000000000000 ≤ place ∧ place < 0x8000000000000000)
    if !digits.isEmpty && fits then some (place, rest) else none
  | _ => none

/-- The step at the beginning of a text, and the rest. -/
def step? : Text → Option (SettingStep × Text)
  | '.' :: rest => (name? rest).map fun (name, left) => (.entry name, left)
  | '[' :: rest => (place? rest).map fun (place, left) => (.item place, left)
  | _ => none

/-- The steps that a text consists of; no text has more of them than characters. -/
def steps? : Nat → Text → Option (List SettingStep)
  | _, [] => some []
  | 0, _ => none
  | fuel + 1, t => do
    let (step, rest) ← step? t
    return step :: (← steps? fuel rest)

def ofText? (t : Text) : Option SettingPath := do
  let (root, rest) ← name? t
  return ⟨root, ← steps? rest.length rest⟩

def ofName (name : Text) : SettingPath := (ofText? name).getD ⟨name, []⟩

end SettingPath

namespace Setting

/-- The items of a list; anything else has none. -/
def itemsOf : Option Setting → List Setting
  | some (list items) => items
  | _ => []

/-- The items with one at a place, and its place counted from the beginning.  Missing items
are `null`; they go to the end, or to the beginning for a place counted from the end. -/
def makeRoom (place : Int) (items : List Setting) : List Setting × Nat :=
  if 0 ≤ place then
    (items ++ List.replicate (place.toNat + 1 - items.length) null, place.toNat)
  else if place.natAbs ≤ items.length then (items, items.length - place.natAbs)
  else (List.replicate (place.natAbs - items.length) null ++ items, 0)

/-- A value laid over the part of the one below to which the steps lead. -/
def overlayAt (value : Setting) : List SettingStep → Option Setting → Setting
  | [], below => overlay below value
  | .entry name :: steps, below =>
    let entries := entriesOf below
    table (entries.put name (overlayAt value steps (entries.get? name)))
  | .item place :: steps, below =>
    let (items, index) := makeRoom place (itemsOf below)
    list (items.modify index fun item => overlayAt value steps (some item))

end Setting

/-- A layer laid over the ones below, one value after the other. -/
def overlayLayer (below layer : Entries Setting) : Entries Setting :=
  layer.foldl (fun written (name, value) =>
    let path := SettingPath.ofName name
    written.put path.root (value.overlayAt path.steps (written.get? path.root))) below

/-- Layers laid over one another, the lowest first. -/
def overlayLayers (layers : List (Entries Setting)) : Entries Setting :=
  layers.foldl overlayLayer []

end LineageSearch
