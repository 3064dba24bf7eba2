import LineageSearch.Text.Basic

/-!
# Decimal digits

Numbers are read and written with the ten ASCII digits only.  A text of digits has a
value of any size, leading zeros included; whoever needs a bounded number checks the
bound on the value.
-/

namespace LineageSearch.Text

/-- Whether the text is one or more ASCII digits. -/
def isDigits (t : Text) : Bool := !t.isEmpty && t.all Char.isDigit

/-- The value of an ASCII digit. -/
def digitValue (c : Char) : Nat := c.toNat - '0'.toNat

/-- The value of a row of digits, the first one weighing most. -/
def decimalValue (digits : Text) : Nat :=
  digits.foldl (fun value c => 10 * value + digitValue c) 0

/-- The value of a hexadecimal digit, in either case. -/
def hexValue? (c : Char) : Option Nat :=
  if '0' ≤ c ∧ c ≤ '9' then some (c.toNat - '0'.toNat)
  else if 'a' ≤ c ∧ c ≤ 'f' then some (c.toNat - 'a'.toNat + 10)
  else if 'A' ≤ c ∧ c ≤ 'F' then some (c.toNat - 'A'.toNat + 10)
  else none

/-- The number that a text of one or more digits denotes. -/
def natural? (t : Text) : Option Nat := if isDigits t then some (decimalValue t) else none

/-- The digits of a number, without leading zeros. -/
def ofNat (n : Nat) : Text := Nat.toDigits 10 n

/-- The digits of a number behind its sign, which is written only below zero. -/
def ofInt (n : Int) : Text := if n < 0 then '-' :: ofNat n.natAbs else ofNat n.natAbs

/-- The digits of a number with zeros in front up to a width. -/
def ofNatPadded (width n : Nat) : Text :=
  let digits := ofNat n
  List.replicate (width - digits.length) '0' ++ digits

theorem decimalValue_append_singleton (digits : Text) (c : Char) :
    decimalValue (digits ++ [c]) = 10 * decimalValue digits + digitValue c := by
  simp [decimalValue]

end LineageSearch.Text
