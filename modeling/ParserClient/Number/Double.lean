import ParserClient.Number.Integer

/-!
# Binary floating point numbers

A number of the 64 bit binary format is kept as its three fields. The value of a finite number is
`significand * 2 ^ exponent`, with its sign; an exact ratio is rounded to the nearest number, a
tie to the even significand, so that every decimal numeral has one number that it reads as.

## Main definitions

* `Double`, `Double.significand`, `Double.exponent`.
* `Double.ofRatio`, `Double.ofDecimal`, `Double.ofInt?` — rounding.
* `Double.isPositive`, `Double.sameNumber`, `Double.equalsInt` — comparison.
-/

namespace ParserClient

/-- A 64 bit binary floating point number: sign, biased exponent and fraction. -/
structure Double where
  negative : Bool
  biased : Fin 2048
  fraction : Fin (Nat.pow 2 52)
  deriving DecidableEq, Repr

namespace Double

/-- Zero of either sign. -/
def zero (negative : Bool) : Double := ⟨negative, 0, 0⟩

/-- Infinity of either sign. -/
def infinity (negative : Bool) : Double := ⟨negative, 2047, 0⟩

/-- Not a number. -/
def nan : Double := ⟨false, 2047, ⟨Nat.pow 2 51, by decide⟩⟩

/-- The number is not a number. -/
def isNaN (x : Double) : Bool := x.biased = 2047 && x.fraction ≠ 0

/-- The number is infinite. -/
def isInfinite (x : Double) : Bool := x.biased = 2047 && x.fraction = 0

/-- The number is zero. -/
def isZero (x : Double) : Bool := x.biased = 0 && x.fraction = 0

/-- The integer that a finite number is a multiple of a power of two by. -/
def significand (x : Double) : Nat :=
  if x.biased = 0 then x.fraction.val else Nat.pow 2 52 + x.fraction.val

/-- The power of two that goes with the significand of a finite number. -/
def exponent (x : Double) : Int :=
  if x.biased = 0 then -1074 else (x.biased.val : Int) - 1075

/-- The number is greater than zero. -/
def isPositive (x : Double) : Bool := !x.isNaN && !x.isZero && !x.negative

/-- The two numbers are equal as numbers: a zero equals the other zero, and what is not a number
equals nothing. -/
def sameNumber (x y : Double) : Bool :=
  !x.isNaN && !y.isNaN && (x = y || (x.isZero && y.isZero))

/-- The number is finite and equal to an integer. -/
def equalsInt (x : Double) (n : Int) : Bool :=
  x.biased ≠ 2047 &&
    (if x.isZero then n = 0
     else (decide (n < 0) == x.negative) &&
      (if 0 ≤ x.exponent then x.significand * Nat.pow 2 x.exponent.toNat = n.natAbs
       else x.significand = n.natAbs * Nat.pow 2 (-x.exponent).toNat))

/-! ### Rounding -/

/-- The natural number nearest to a ratio, the even one of two at the same distance. -/
def roundHalfEven (numerator denominator : Nat) : Nat :=
  let quotient := numerator / denominator
  let twice := 2 * (numerator % denominator)
  if twice < denominator then quotient
  else if denominator < twice then quotient + 1
  else quotient + quotient % 2

/-- Numerator and denominator of a ratio divided by a power of two. -/
def scaleDown (numerator denominator : Nat) (power : Int) : Nat × Nat :=
  if 0 ≤ power then (numerator, denominator * Nat.pow 2 power.toNat)
  else (numerator * Nat.pow 2 (-power).toNat, denominator)

/-- The number with a significand of at most `2 ^ 53` and an exponent of at least `-1074`, which
is `-1074` where the significand is less than `2 ^ 52`. An exponent that is too great gives
infinity. -/
def assemble (negative : Bool) (significand : Nat) (exponent : Int) : Double :=
  let (m, q) :=
    if significand = Nat.pow 2 53 then (Nat.pow 2 52, exponent + 1) else (significand, exponent)
  if m < Nat.pow 2 52 then ⟨negative, 0, Fin.ofNat _ m⟩
  else if 972 ≤ q then infinity negative
  else ⟨negative, Fin.ofNat _ (q + 1075).toNat, Fin.ofNat _ (m - Nat.pow 2 52)⟩

/-- The number nearest to a ratio of natural numbers, with the given sign. -/
def ofRatio (negative : Bool) (numerator denominator : Nat) : Double :=
  if numerator = 0 then zero negative
  else
    let power : Int := (Nat.log2 numerator : Int) - Nat.log2 denominator
    let lower : Int := max (-1074) (power - 53)
    let coarse := scaleDown numerator denominator lower
    let exponent := if Nat.pow 2 53 ≤ coarse.1 / coarse.2 then lower + 1 else lower
    let fine := scaleDown numerator denominator exponent
    assemble negative (roundHalfEven fine.1 fine.2) exponent

/-- The number nearest to `digits * 10 ^ power`. Powers far outside the range of finite numbers
are settled by the number of digits. -/
def ofDecimal (negative : Bool) (digits : Nat) (power : Int) : Double :=
  let magnitude : Int := (Nat.toDigits 10 digits).length + power
  if digits = 0 then zero negative
  else if 400 < magnitude then infinity negative
  else if magnitude < -400 then zero negative
  else if 0 ≤ power then ofRatio negative (digits * Nat.pow 10 power.toNat) 1
  else ofRatio negative digits (Nat.pow 10 (-power).toNat)

/-- The number nearest to an integer, if that is finite. -/
def ofInt? (n : Int) : Option Double :=
  let x := ofRatio (decide (n < 0)) n.natAbs 1
  if x.isInfinite then none else some x

end Double

end ParserClient
