/-!
# Binary floating-point numbers of 64 bits

A `Binary64` is an exact value `± mantissa * 2 ^ exponent`, an infinity or not a number. It is made
from a decimal by rounding to the nearest value, a tie going to the even mantissa, and written with
the fewest decimal digits that read back as the same number; of these the nearest, and of two
equally near the even one. All arithmetic is on natural numbers.
-/

namespace AssocLint

/-- A binary floating-point number with 53 bits of mantissa. A finite number has either a mantissa
of exactly 53 bits or the least exponent, -1074. -/
inductive Binary64 where
  | finite (negative : Bool) (mantissa : Nat) (exponent : Int)
  | infinity (negative : Bool)
  | nan
  deriving DecidableEq, Repr

namespace Binary64

/-- The quotient rounded to the nearest natural number, a tie to the even one. -/
def divRoundEven (num den : Nat) : Nat :=
  let quotient := num / den
  let twice := 2 * (num % den)
  if twice > den || (twice == den && quotient % 2 == 1) then quotient + 1 else quotient

/-- The fraction `num / den` divided by `base ^ power`. -/
def scaleDown (num den base : Nat) (power : Int) : Nat × Nat :=
  if power < 0 then (num * base.pow power.natAbs, den) else (num, den * base.pow power.natAbs)

/-- The number nearest to the positive fraction `num / den`. -/
def ofRatio (negative : Bool) (num den : Nat) : Binary64 :=
  let guess : Int := (num.log2 : Int) - den.log2 - 53
  let low := scaleDown num den 2 guess
  let exact := if low.1 / low.2 < Nat.pow 2 53 then guess else guess + 1
  let exponent := max exact (-1074)
  let scaled := scaleDown num den 2 exponent
  let mantissa := divRoundEven scaled.1 scaled.2
  let (mantissa, exponent) :=
    if mantissa == Nat.pow 2 53 then (Nat.pow 2 52, exponent + 1) else (mantissa, exponent)
  if exponent > 971 then .infinity negative else .finite negative mantissa exponent

/-- The number nearest to `digits * 10 ^ exponent`. Beyond 10 ^ 400 every positive decimal is
infinite and below 10 ^ (-400) it is zero, whatever its digits are. -/
def ofDecimal (negative : Bool) (digits : Nat) (exponent : Int) : Binary64 :=
  let magnitude : Int := exponent + (Nat.toDigits 10 digits).length
  if digits == 0 || magnitude < -400 then .finite negative 0 (-1074)
  else if magnitude > 400 then .infinity negative
  else
    let (num, den) := scaleDown digits 1 10 (-exponent)
    ofRatio negative num den

/-- The integer part of a finite number, rounded toward zero. -/
def truncate? : Binary64 → Option Int
  | .finite negative mantissa exponent =>
    let magnitude :=
      if exponent < 0 then mantissa / Nat.pow 2 exponent.natAbs
      else mantissa * Nat.pow 2 exponent.natAbs
    some (if negative then -(magnitude : Int) else magnitude)
  | _ => none

/-! ## Shortest decimal -/

/-- The power of ten just above a positive fraction: the `k` with
`10 ^ (k - 1) ≤ num / den < 10 ^ k`. -/
def decimalPoint (num den : Nat) : Int :=
  if den ≤ num then
    (Nat.toDigits 10 (num / den)).length
  else
    let length : Int := (Nat.toDigits 10 (den / num)).length
    if den == num * Nat.pow 10 (length - 1).toNat then 2 - length else 1 - length

/-- The decimal of `count` digits that reads back as the number `mantissa * 2 ^ exponent`, where
there is one: digits and power of ten. The reals that round to the number reach half way to its
neighbours, ends included when the mantissa is even. -/
def decimalOf? (mantissa : Nat) (exponent : Int) (point : Int) (count : Nat) :
    Option (Nat × Int) :=
  let below :=
    if mantissa == Nat.pow 2 52 && exponent > -1074 then 4 * mantissa - 1 else 4 * mantissa - 2
  let power := point - count
  let unit := scaleDown 1 1 10 power
  let binary := scaleDown 1 1 2 (2 - exponent)
  -- every bound is measured in quarters of a unit in the last place, over one denominator
  let scale := unit.1 * binary.1
  let den := unit.2 * binary.2
  let inside := fun candidate =>
    let position := candidate * den
    if mantissa % 2 == 0 then below * scale ≤ position && position ≤ (4 * mantissa + 2) * scale
    else below * scale < position && position < (4 * mantissa + 2) * scale
  let target := 4 * mantissa * scale
  let lower := target / den
  let upper := lower + 1
  if inside lower then
    if inside upper then
      let down := target - lower * den
      let up := upper * den - target
      if up < down || (up == down && lower % 2 == 1) then some (upper, power)
      else some (lower, power)
    else some (lower, power)
  else if inside upper then some (upper, power) else none

/-- The fewest decimal digits that read back as a positive finite number: digits and power of ten.
Seventeen digits always do. -/
def shortest (mantissa : Nat) (exponent : Int) : Nat × Int :=
  let (num, den) := scaleDown mantissa 1 2 (-exponent)
  let point := decimalPoint num den
  ((List.range 17).findSome? fun count => decimalOf? mantissa exponent point (count + 1)).getD
    (mantissa, 0)

/-- Digits without their trailing zeros, of which there are at most `count`. -/
def stripZeros : Nat → Nat × Int → Nat × Int
  | 0, decimal => decimal
  | count + 1, (digits, power) =>
    if digits % 10 == 0 && digits != 0 then stripZeros count (digits / 10, power + 1)
    else (digits, power)

/-- The written form: positional from 10 ^ (-4) up to 10 ^ 16, with at least one digit on either
side of the point, and else with an exponent of at least two digits. -/
def render : Binary64 → String
  | .nan => "nan"
  | .infinity negative => if negative then "-inf" else "inf"
  | .finite negative mantissa exponent =>
    let sign := if negative then "-" else ""
    if mantissa == 0 then sign ++ "0.0"
    else
      let (number, power) := stripZeros 20 (shortest mantissa exponent)
      let digits := Nat.toDigits 10 number
      let point : Int := power + digits.length
      let body :=
        if -4 < point && point ≤ 16 then
          if point ≤ 0 then '0' :: '.' :: List.replicate point.natAbs '0' ++ digits
          else if digits.length ≤ point.toNat then
            digits ++ List.replicate (point.toNat - digits.length) '0' ++ ['.', '0']
          else digits.take point.toNat ++ '.' :: digits.drop point.toNat
        else
          let scale := point - 1
          let width := Nat.toDigits 10 scale.natAbs
          let padded := if width.length < 2 then '0' :: width else width
          let fraction := if digits.length ≤ 1 then [] else '.' :: digits.drop 1
          digits.take 1 ++ fraction ++ 'e' :: (if scale < 0 then '-' else '+') :: padded
      sign ++ String.ofList body

end Binary64
end AssocLint
