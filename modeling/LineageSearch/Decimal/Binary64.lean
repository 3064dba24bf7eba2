import LineageSearch.Text.Digits

/-!
# Numbers of 64 bits with a binary point

A settings file may hold numbers with a point.  They are rounded to the nearest number
`m · 2 ^ q` with a mantissa below `2 ^ 53`, a tie going to the even mantissa.  Where such
a number stands for a text it is written with the fewest digits that round to it, never
with an exponent.
-/

namespace LineageSearch

/-- A number of the 64-bit binary format; the finite ones are `mantissa · 2 ^ exponent`. -/
inductive Binary64 where
  | finite (negative : Bool) (mantissa : Nat) (exponent : Int)
  | infinite (negative : Bool)
  | nan
deriving Repr, DecidableEq, Inhabited

namespace Binary64

/-- The quotient rounded to the nearest natural number, a tie to the even one. -/
def roundDiv (num den : Nat) : Nat :=
  let quotient := num / den
  let rest := 2 * (num % den)
  if rest < den then quotient
  else if den < rest then quotient + 1
  else quotient + quotient % 2

/-- The fraction that a number with an exponent is, as numerator and denominator. -/
def fraction (mantissa : Nat) (exponent : Int) : Nat × Nat :=
  if 0 ≤ exponent then (mantissa * Nat.pow 2 exponent.toNat, 1)
  else (mantissa, Nat.pow 2 (-exponent).toNat)

/-- The nearest number to a positive or zero fraction, with a sign. -/
def ofFraction (negative : Bool) (num den : Nat) : Binary64 :=
  if num = 0 then finite negative 0 0
  else
    -- the right exponent or one below it; no number has an exponent below `-1074`
    let estimate : Int := max ((Nat.log2 num : Int) - Nat.log2 den - 53) (-1074)
    let scaled (exponent : Int) : Nat × Nat :=
      if 0 ≤ exponent then (num, den * Nat.pow 2 exponent.toNat)
      else (num * Nat.pow 2 (-exponent).toNat, den)
    let low := scaled estimate
    let exponent := if Nat.pow 2 53 ≤ low.1 / low.2 then estimate + 1 else estimate
    let exact := scaled exponent
    let mantissa := roundDiv exact.1 exact.2
    -- rounding may have carried the mantissa out of its 53 bits
    let (mantissa, exponent) :=
      if mantissa = Nat.pow 2 53 then (Nat.pow 2 52, exponent + 1) else (mantissa, exponent)
    if 971 < exponent then infinite negative else finite negative mantissa exponent

/-- The nearest number to a row of digits with the point moved `places` to the right. -/
def ofDecimal (negative : Bool) (digits : Nat) (places : Int) : Binary64 :=
  if 0 ≤ places then ofFraction negative (digits * Nat.pow 10 places.toNat) 1
  else ofFraction negative digits (Nat.pow 10 (-places).toNat)

/-- Whether the number is zero, whatever its sign. -/
def isZero : Binary64 → Bool
  | finite _ mantissa _ => mantissa == 0
  | _ => false

def isInfinite : Binary64 → Bool
  | infinite _ => true
  | _ => false

/-- The rounded product of the magnitudes of two finite numbers; others are left alone. -/
def mul : Binary64 → Binary64 → Binary64
  | finite negative m q, finite _ n r =>
    let a := fraction m q
    let b := fraction n r
    ofFraction negative (a.1 * b.1) (a.2 * b.2)
  | x, _ => x

/-- The rounded quotient of the magnitudes of two finite numbers; others are left alone. -/
def div : Binary64 → Binary64 → Binary64
  | finite negative m q, finite _ n r =>
    let a := fraction m q
    let b := fraction n r
    ofFraction negative (a.1 * b.2) (a.2 * b.1)
  | x, _ => x

/-- How many digits the whole part of a positive fraction has; for a fraction below one,
how many zeros follow the point, counted downwards from zero. -/
def wholeDigits (num den : Nat) : Int :=
  if den ≤ num then (Text.ofNat (num / den)).length
  else
    let reciprocal := (den + num - 1) / num
    1 - (Text.ofNat (reciprocal - 1)).length

/-- Of the two rows of `count` digits around a number, the nearer one that rounds to it,
with the number of places behind the point.  Of two equally near ones it is the greater. -/
def digitsAt? (mantissa : Nat) (exponent : Int) (count : Nat) : Option (Nat × Int) :=
  let (num, den) := fraction mantissa exponent
  let places := (count : Int) - wholeDigits num den
  let (num, den) := if 0 ≤ places then (num * Nat.pow 10 places.toNat, den)
    else (num, den * Nat.pow 10 (-places).toNat)
  let below := num / den
  let fits (digits : Nat) : Bool :=
    ofDecimal false digits (-places) == finite false mantissa exponent
  match fits below, fits (below + 1) with
  | true, true =>
    if 2 * (num % den) < den then some (below, places) else some (below + 1, places)
  | true, false => some (below, places)
  | false, true => some (below + 1, places)
  | false, false => none

/-- The fewest digits that round to a positive number; seventeen always do.  A row of nines
may have been rounded up to a one with zeros, of which the one is kept. -/
def shortestDigits (mantissa : Nat) (exponent : Int) : Nat × Int :=
  let found := (List.range 17).findSome? fun i =>
    (digitsAt? mantissa exponent (i + 1)).map fun (digits, places) =>
      if digits = Nat.pow 10 (i + 1) then (1, places - (i + 1)) else (digits, places)
  found.getD (0, 0)

/-- A row of digits with a point before its last `places` digits.  Zeros fill the places
up to the point, and no point is written behind the last digit. -/
def pointed (digits : Text) (places : Int) : Text :=
  if places ≤ 0 then digits ++ List.replicate (-places).toNat '0'
  else
    let filled := List.replicate (places.toNat + 1 - digits.length) '0' ++ digits
    filled.take (filled.length - places.toNat) ++ '.' :: filled.drop (filled.length - places.toNat)

/-- The number in positional notation. -/
def toText : Binary64 → Text
  | finite negative mantissa exponent =>
    let magnitude :=
      if mantissa = 0 then ['0']
      else
        let (digits, places) := shortestDigits mantissa exponent
        pointed (Text.ofNat digits) places
    if negative then '-' :: magnitude else magnitude
  | infinite negative => if negative then "-inf".toList else "inf".toList
  | nan => "NaN".toList

end Binary64

end LineageSearch
