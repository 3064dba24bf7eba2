import LineageSearch.Json.Reader
import LineageSearch.Settings.Setting
import LineageSearch.Vocabulary.Document

/-!
# Settings from JSON documents

An object is a table; of a repeated name the first place and the last value count.
Integers of 64 bits, with a sign or without, stay exact.  Any other number becomes one with
a binary point, by its leading digits and a power of ten: as many digits as fit into 64 bits
are kept, the others count as places, and one multiplication or division by the power rounds
the result.  A number beyond all of that form is wrong.
-/

namespace LineageSearch

namespace JsonNumber

/-- The leading digits of a row as a number of 64 bits, and how many digits are left. -/
def leadingDigits (start : Nat) : Text → Nat × Nat
  | [] => (start, 0)
  | c :: rest =>
    let next := 10 * start + Text.digitValue c
    if next < UInt64.size then leadingDigits next rest else (start, rest.length + 1)

/-- The power of ten, rounded. -/
def powerOfTen (power : Nat) : Binary64 := .ofDecimal false 1 power

/-- A number divided by a power of ten, of which at most 308 go into each step.  A number
that has become zero stays so. -/
def scaleDown : Nat → Binary64 → Nat → Binary64
  | 0, x, _ => x
  | fuel + 1, x, power =>
    if x.isZero then x
    else if power ≤ 308 then x.div (powerOfTen power)
    else scaleDown fuel (x.div (powerOfTen 308)) (power - 308)

/-- A number times a power of ten, unless it is beyond all numbers. -/
def scaled? (x : Binary64) (power : Int) : Option Binary64 :=
  if power < 0 then some (scaleDown 4 x (-power).toNat)
  else if power ≤ 308 then
    let product := x.mul (powerOfTen power.toNat)
    if product.isInfinite then none else some product
  else if x.isZero then some x
  else none

/-- The nearest number with a binary point that these steps lead to. -/
def toBinary64? (number : JsonNumber) : Option Binary64 :=
  let (whole, wholeLeft) := leadingDigits 0 number.whole
  let fraction := number.fraction.getD []
  let (digits, fractionLeft) := leadingDigits whole fraction
  let written : Int := match number.exponent with
    | some (true, row) => -(Text.decimalValue row : Int)
    | some (false, row) => Text.decimalValue row
    | none => 0
  let power := written + wholeLeft - (fraction.length - fractionLeft : Nat)
  scaled? (.ofFraction number.negative digits 1) power

end JsonNumber

namespace Setting

def ofJsonNumber? (number : JsonNumber) : Option Setting :=
  let value := Text.decimalValue number.whole
  let isWhole := number.fraction.isNone && number.exponent.isNone
  if isWhole && !number.negative && value < UInt64.size then some (integer value)
  else if isWhole && number.negative && 0 < value && value ≤ 0x8000000000000000 then
    some (integer (-value))
  else number.toBinary64?.map decimal

mutual

/-- The setting that a document denotes inside `depth` open containers. -/
def ofJson? (depth : Nat) : Json → Option Setting
  | .null => some null
  | .bool value => some (bool value)
  | .number value => ofJsonNumber? value
  | .string value => value.map text
  | .array items =>
    if depth < nestingLimit then (listOfJson? (depth + 1) items).map list else none
  | .object fields =>
    if depth < nestingLimit then
      (entriesOfJson? (depth + 1) fields).map fun entries => table (Entries.ofList entries)
    else none

def listOfJson? (depth : Nat) : List Json → Option (List Setting)
  | [] => some []
  | item :: rest =>
    match ofJson? depth item, listOfJson? depth rest with
    | some setting, some settings => some (setting :: settings)
    | _, _ => none

def entriesOfJson? (depth : Nat) : List (Option Text × Json) → Option (List (Text × Setting))
  | [] => some []
  | (name, value) :: rest =>
    match name, ofJson? depth value, entriesOfJson? depth rest with
    | some name, some setting, some settings => some ((name, setting) :: settings)
    | _, _, _ => none

end

/-- The table that the text of a JSON document denotes. -/
def tableOfJsonText? (text : Text) : Option (Entries Setting) := do
  match ← (Json.ofText? text).bind (ofJson? 0) with
  | .table entries => some entries
  | _ => none

end Setting

end LineageSearch
