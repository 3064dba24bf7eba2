import LineageSearch.Entries
import LineageSearch.Text.Digits

/-!
# JSON documents

A document is kept as it is written: the fields of an object in their order, repeated
names included, and a number by its digits.  What a repeated name or a large number means
is up to whoever takes the document as data.

A string is written with escapes, and an escape may name half of a surrogate pair.  If
the other half is missing, the string denotes no text.
-/

namespace LineageSearch

/-- A number by its digits: a row before the point, a row behind it, and an exponent with
its sign. -/
structure JsonNumber where
  negative : Bool := false
  whole : Text
  fraction : Option Text := none
  exponent : Option (Bool × Text) := none
deriving Repr, DecidableEq

/-- A JSON document.  Strings and names that denote no text are `none`. -/
inductive Json where
  | null
  | bool (value : Bool)
  | number (value : JsonNumber)
  | string (value : Option Text)
  | array (items : List Json)
  | object (fields : List (Option Text × Json))
deriving Repr, Inhabited

namespace JsonNumber

def ofNat (n : Nat) : JsonNumber := { whole := Text.ofNat n }

/-- The natural number that is written without sign, point and exponent. -/
def natural? (number : JsonNumber) : Option Nat :=
  if number.negative || number.fraction.isSome || number.exponent.isSome then none
  else some (Text.decimalValue number.whole)

def toText (number : JsonNumber) : Text :=
  (if number.negative then ['-'] else []) ++ number.whole
    ++ (match number.fraction with
      | some digits => '.' :: digits
      | none => [])
    ++ (match number.exponent with
      | some (true, digits) => 'e' :: '-' :: digits
      | some (false, digits) => 'e' :: digits
      | none => [])

/-- The rows of digits behind a point and in an exponent. -/
private def ofTail? (negative : Bool) (whole : Text) (fraction : Option Text) :
    Text → Option JsonNumber
  | [] => some { negative, whole, fraction }
  | mark :: rest =>
    if mark = 'e' || mark = 'E' then
      let (below, digits) := match rest with
        | '-' :: digits => (true, digits)
        | '+' :: digits => (false, digits)
        | digits => (false, digits)
      if Text.isDigits digits then
        some { negative, whole, fraction, exponent := some (below, digits) }
      else none
    else none

/-- The number that a text denotes.  The row before the point has no leading zero unless
it is zero, and the row behind the point is not empty. -/
def ofText? (text : Text) : Option JsonNumber :=
  let (negative, unsigned) := match text with
    | '-' :: rest => (true, rest)
    | rest => (false, rest)
  let whole := unsigned.takeWhile Char.isDigit
  let behind := unsigned.drop whole.length
  if whole.isEmpty || (whole.head? == some '0' && 1 < whole.length) then none
  else match behind with
    | '.' :: rest =>
      let digits := rest.takeWhile Char.isDigit
      if digits.isEmpty then none
      else ofTail? negative whole (some digits) (rest.drop digits.length)
    | rest => ofTail? negative whole none rest

end JsonNumber

namespace Json

def ofText (text : Text) : Json := string (some text)

def ofNat (n : Nat) : Json := number (.ofNat n)

def ofFields (fields : List (String × Json)) : Json :=
  object (fields.map fun (name, value) => (some name.toList, value))

def text? : Json → Option Text
  | string value => value
  | _ => none

/-- The fields of a record by the names of its form.  A record is an object, whose other
fields are disregarded and whose fields do not repeat, or an array of its first fields. -/
def record? (form : List Text) : Json → Option (List (Option Json))
  | array items =>
    if items.length ≤ form.length then
      some (items.map some ++ List.replicate (form.length - items.length) none)
    else none
  | object fields => do
    let named ← fields.mapM fun (name, value) => name.map fun text => (text, value)
    form.mapM fun name =>
      match named.filter (·.1 == name) with
      | [] => some none
      | [(_, value)] => some (some value)
      | _ => none
  | _ => none

/-- The elements of an array, each read alike. -/
def listOf? {α : Type} (read : Json → Option α) : Json → Option (List α)
  | array items => items.mapM read
  | _ => none

/-- Nothing for `null`, and a value otherwise. -/
def optional? {α : Type} (read : Json → Option α) : Json → Option (Option α)
  | null => some none
  | value => (read value).map some

/-- The value of a field, with a default for a field that is missing. -/
def fieldOr {α : Type} (default : α) (read : Json → Option α) : Option Json → Option α
  | some value => read value
  | none => some default

end Json

end LineageSearch
