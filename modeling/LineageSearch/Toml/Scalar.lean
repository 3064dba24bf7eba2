import LineageSearch.Lineage.Calendar
import LineageSearch.Settings.Setting
import LineageSearch.Toml.Text

/-!
# Numbers, truth values and times in TOML

A value without quotes is a row of letters, digits and signs.  Digits may be grouped by
single underscores.  A date, a time, or both together stand for the text in which they
are commonly written.
-/

namespace LineageSearch.Toml

/-- A row of digits whose groups single underscores separate, without the underscores. -/
def groupedDigits? (isDigit : Char → Bool) (t : Text) : Option Text :=
  let groups := cut (· == '_') t
  if groups.all fun group => !group.isEmpty && group.all isDigit then some groups.flatten
  else none

/-- A row of decimal digits without a leading zero, unless it is zero. -/
def wholeDigits? (t : Text) : Option Text :=
  (groupedDigits? Char.isDigit t).filter fun digits =>
    !(digits.head? == some '0' && 1 < digits.length)

def boundedInteger? (n : Int) : Option Setting :=
  if -0x8000000000000000 ≤ n ∧ n < 0x8000000000000000 then some (.integer n) else none

/-- The value of a row of digits in a base of sixteen or less. -/
def valueIn? (base : Nat) (t : Text) : Option Nat := do
  let isBaseDigit (c : Char) : Bool := (Text.hexValue? c).any (· < base)
  let digits ← groupedDigits? isBaseDigit t
  digits.foldlM (fun value c => (Text.hexValue? c).map (base * value + ·)) 0

/-- The sign before a number, and what follows it. -/
def splitSign : Text → Bool × Text
  | '-' :: rest => (true, rest)
  | '+' :: rest => (false, rest)
  | t => (false, t)

/-- An integer, in decimal notation or in a base that its beginning names. -/
def integer? (t : Text) : Option Setting :=
  match t with
  | '0' :: 'x' :: digits => (valueIn? 16 digits).bind fun n => boundedInteger? n
  | '0' :: 'o' :: digits => (valueIn? 8 digits).bind fun n => boundedInteger? n
  | '0' :: 'b' :: digits => (valueIn? 2 digits).bind fun n => boundedInteger? n
  | _ =>
    let (negative, unsigned) := splitSign t
    (wholeDigits? unsigned).bind fun digits =>
      let n : Int := Text.decimalValue digits
      boundedInteger? (if negative then -n else n)

/-- The power of ten behind a number. -/
def exponent? : Text → Option Int
  | [] => some 0
  | mark :: rest =>
    if mark = 'e' || mark = 'E' then
      let (below, unsigned) := splitSign rest
      (groupedDigits? Char.isDigit unsigned).map fun digits =>
        let n : Int := Text.decimalValue digits
        if below then -n else n
    else none

/-- The nearest number to a row of digits with its point moved; one beyond all numbers is
wrong.  Powers that leave every such row beyond all numbers, or nothing of it, are cut
short. -/
def boundedDecimal? (negative : Bool) (digits : Text) (places : Int) : Option Setting :=
  let bound : Int := digits.length + 400
  let number :=
    Binary64.ofDecimal negative (Text.decimalValue digits) (max (-bound) (min bound places))
  if number.isInfinite then none else some (.decimal number)

/-- A number with a point or an exponent, an infinity, or no number. -/
def decimal? (t : Text) : Option Setting :=
  let (negative, unsigned) := splitSign t
  if unsigned = "inf".toList then some (.decimal (.infinite negative))
  else if unsigned = "nan".toList then some (.decimal .nan)
  else
    let isMantissaChar (c : Char) : Bool := c.isDigit || c == '_'
    let whole := unsigned.takeWhile isMantissaChar
    (wholeDigits? whole).bind fun digits =>
      match unsigned.drop whole.length with
      | '.' :: rest =>
        let row := rest.takeWhile isMantissaChar
        (groupedDigits? Char.isDigit row).bind fun behind =>
          (exponent? (rest.drop row.length)).bind fun power =>
            boundedDecimal? negative (digits ++ behind) (power - behind.length)
      -- without a point or an exponent it would have been an integer
      | [] => none
      | rest => (exponent? rest).bind fun power => boundedDecimal? negative digits power

/-- The value of exactly `count` digits at the beginning of a text, and the rest. -/
def fixedDigits? (count : Nat) (t : Text) : Option (Nat × Text) :=
  let row := t.take count
  if row.length = count && Text.isDigits row then
    some (Text.decimalValue row, t.drop count)
  else none

/-- A date at the beginning of a text, as it is written. -/
def datePart? (t : Text) : Option (Text × Text) := do
  let (year, behindYear) ← fixedDigits? 4 t
  let '-' :: monthOn := behindYear | none
  let (month, behindMonth) ← fixedDigits? 2 monthOn
  let '-' :: dayOn := behindMonth | none
  let (day, rest) ← fixedDigits? 2 dayOn
  let date ← Date.ofParts? year month day
  return (date.toText, rest)

/-- The digits of a fraction of a second: nine at most, and no zeros at the end but for a
fraction of nothing. -/
def fractionDigits (digits : Text) : Text :=
  let kept := (((digits.take 9).reverse).dropWhile (· == '0')).reverse
  if kept.isEmpty then ['0'] else kept

/-- The seconds of a time with their fraction, behind their colon.  Both may be missing. -/
def secondsPart? : Text → Option (Text × Text)
  | ':' :: rest => do
    let (second, behind) ← fixedDigits? 2 rest
    if 60 < second then none
    else match behind with
      | '.' :: digitsOn =>
        let digits := digitsOn.takeWhile Char.isDigit
        if digits.isEmpty then none
        else some (':' :: Text.ofNatPadded 2 second ++ '.' :: fractionDigits digits,
          digitsOn.drop digits.length)
      | _ => some (':' :: Text.ofNatPadded 2 second, behind)
  | rest => some ([], rest)

/-- A time at the beginning of a text, as it is written. -/
def timePart? (t : Text) : Option (Text × Text) := do
  let (hour, behindHour) ← fixedDigits? 2 t
  let ':' :: minuteOn := behindHour | none
  let (minute, behindMinute) ← fixedDigits? 2 minuteOn
  if 23 < hour || 59 < minute then none
  else
    let (seconds, rest) ← secondsPart? behindMinute
    return (Text.ofNatPadded 2 hour ++ ':' :: Text.ofNatPadded 2 minute ++ seconds, rest)

/-- The distance from universal time behind a date and a time, as it is written.  No
distance has no minus. -/
def offsetPart? (t : Text) : Option Text :=
  match t with
  | [] => some []
  | [mark] => if mark = 'Z' || mark = 'z' then some ['Z'] else none
  | sign :: rest =>
    if sign = '+' || sign = '-' then do
      let (hour, behind) ← fixedDigits? 2 rest
      let ':' :: minuteOn := behind | none
      let (minute, left) ← fixedDigits? 2 minuteOn
      if 23 < hour || 59 < minute || !left.isEmpty then none
      else
        let side := if hour = 0 && minute = 0 then '+' else sign
        some (side :: Text.ofNatPadded 2 hour ++ ':' :: Text.ofNatPadded 2 minute)
    else none

/-- A date, a time, or a date and a time, as the text in which it is written. -/
def dateTime? (t : Text) : Option Setting :=
  match datePart? t with
  | some (date, []) => some (.text date)
  | some (date, mark :: rest) =>
    if mark = 'T' || mark = 't' || mark = ' ' then do
      let (time, behind) ← timePart? rest
      let offset ← offsetPart? behind
      return .text (date ++ 'T' :: time ++ offset)
    else none
  | none =>
    match timePart? t with
    | some (time, []) => some (.text time)
    | _ => none

/-- The value that a row of characters without quotes denotes. -/
def bareValue? (t : Text) : Option Setting :=
  if t = "true".toList then some (.bool true)
  else if t = "false".toList then some (.bool false)
  else integer? t <|> decimal? t <|> dateTime? t

/-- Whether a character may stand in a value without quotes. -/
def isBareChar (c : Char) : Bool :=
  c.isAlphanum || c == '_' || c == '-' || c == '+' || c == '.' || c == ':'

/-- A value without quotes at the beginning of a text.  A space that stands between a date
and a time belongs to it. -/
def bare? (t : Text) : Option (Setting × Text) :=
  let row := t.takeWhile isBareChar
  let rest := t.drop row.length
  let longer := match rest with
    | ' ' :: behind =>
      if (datePart? row).any (·.2.isEmpty) && behind.head?.any Char.isDigit then
        row ++ ' ' :: behind.takeWhile isBareChar
      else row
    | _ => row
  (bareValue? longer).map fun value => (value, t.drop longer.length)

end LineageSearch.Toml
