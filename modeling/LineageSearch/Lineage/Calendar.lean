import LineageSearch.Text.Blank
import LineageSearch.Text.Digits

/-!
# Calendar dates

Days of birth and death are dates of the Gregorian calendar, which is counted on before
its introduction and through a year zero.  A date is written `YYYY-MM-DD`; years of more
than four digits and years before zero carry their sign.  Reading is more generous: blanks
may stand before each part and before each hyphen, and month and day may have one digit.
-/

namespace LineageSearch

/-- A day of the Gregorian calendar. -/
structure Date where
  year : Int
  month : Nat
  day : Nat
deriving Repr, DecidableEq

namespace Date

/-- Whether a year has a 29th of February. -/
def isLeapYear (year : Int) : Bool := year % 4 == 0 && (year % 100 != 0 || year % 400 == 0)

/-- How many days a month has; there are no other months than the twelve. -/
def daysInMonth (year : Int) (month : Nat) : Nat :=
  if month ∈ [1, 3, 5, 7, 8, 10, 12] then 31
  else if month ∈ [4, 6, 9, 11] then 30
  else if month = 2 then if isLeapYear year then 29 else 28
  else 0

/-- The date of a year, a month and a day, if the calendar has it.  Years reach as far as
262142 years after and 262143 years before the year zero. -/
def ofParts? (year : Int) (month day : Nat) : Option Date :=
  if -262143 ≤ year ∧ year ≤ 262142 ∧ 1 ≤ day ∧ day ≤ daysInMonth year month then
    some ⟨year, month, day⟩
  else none

/-- The digits that lead a text, up to a number of them, and the rest; there must be at
least one. -/
def leadingNumber? (most : Nat) (text : Text) : Option (Nat × Text) :=
  let digits := (text.take most).takeWhile Char.isDigit
  if digits.isEmpty then none
  else some (Text.decimalValue digits, text.drop digits.length)

/-- The year that leads a text, and the rest.  A sign admits any number of digits, and
four are the most without one. -/
def leadingYear? (text : Text) : Option (Int × Text) :=
  match text with
  | '-' :: rest => (leadingNumber? rest.length rest).map fun (n, behind) => (-(n : Int), behind)
  | '+' :: rest => (leadingNumber? rest.length rest).map fun (n, behind) => ((n : Int), behind)
  | _ => (leadingNumber? 4 text).map fun (n, behind) => ((n : Int), behind)

/-- What follows a hyphen before which blanks may stand. -/
def behindHyphen? (text : Text) : Option Text :=
  match Text.trimStart text with
  | '-' :: rest => some (Text.trimStart rest)
  | _ => none

def ofText? (text : Text) : Option Date := do
  let (year, behindYear) ← leadingYear? (Text.trimStart text)
  let (month, behindMonth) ← leadingNumber? 2 (← behindHyphen? behindYear)
  let (day, behindDay) ← leadingNumber? 2 (← behindHyphen? behindMonth)
  if Text.isBlankText behindDay then ofParts? year month day else none

def yearText (year : Int) : Text :=
  if 0 ≤ year ∧ year ≤ 9999 then Text.ofNatPadded 4 year.toNat
  else (if year < 0 then '-' else '+') :: Text.ofNatPadded 4 year.natAbs

/-- The date as `YYYY-MM-DD`. -/
def toText (date : Date) : Text :=
  yearText date.year ++ '-' :: Text.ofNatPadded 2 date.month
    ++ '-' :: Text.ofNatPadded 2 date.day

end Date

end LineageSearch
