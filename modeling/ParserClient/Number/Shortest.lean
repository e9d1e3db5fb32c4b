import ParserClient.Number.Double

/-!
# The shortest decimal of a floating point number

A finite number is written with the fewest decimal digits that read back as the same number; of
several decimals of that length the nearest one is taken, and of two at the same distance the one
with an even last digit. The reals that read as a number form an interval around it, whose ends
belong to it when the significand is even.

## Main definitions

* `Decimal`, `Double.shortest` — digits and the place of the point.
* `Layout`, `Decimal.text` — where positional notation ends.
* `Double.text` — the text of a number.
-/

namespace ParserClient

/-- The decimal `0.d₁d₂… * 10 ^ point`. -/
structure Decimal where
  digits : List Char
  point : Int
  deriving DecidableEq, Repr

/-- Decimal exponents from `least` on and below `bound` are written in positional notation. -/
structure Layout where
  least : Int
  bound : Int
  deriving DecidableEq, Repr

/-- Numbers from `0.0001` up to `10 ^ 16` are written positionally. -/
def Layout.standard : Layout := ⟨-4, 16⟩

namespace Double

/-- The neighbourhood of a positive finite number in units of a power of ten: the lower end, the
number and the upper end of the interval that reads as it, over one denominator. -/
structure Neighbourhood where
  lower : Nat
  middle : Nat
  upper : Nat
  denominator : Nat
  closed : Bool

/-- The interval of a positive finite number, in units of `10 ^ power`. The gap below a power of
two is half the gap above it. -/
def neighbourhood (x : Double) (power : Int) : Neighbourhood :=
  let m := x.significand
  let below := if x.fraction.val = 0 && 1 < x.biased.val then 1 else 2
  let twos := x.exponent - 2
  let up := Nat.pow 2 twos.toNat * Nat.pow 10 (-power).toNat
  let down := Nat.pow 2 (-twos).toNat * Nat.pow 10 power.toNat
  { lower := (4 * m - below) * up
    middle := 4 * m * up
    upper := (4 * m + 2) * up
    denominator := down
    closed := m % 2 = 0 }

/-- A whole number of units lies in the interval. -/
def Neighbourhood.contains (b : Neighbourhood) (n : Nat) : Bool :=
  if b.closed then b.lower ≤ n * b.denominator && n * b.denominator ≤ b.upper
  else b.lower < n * b.denominator && n * b.denominator < b.upper

/-- The nearest whole number of units in the interval, of two the even one. -/
def Neighbourhood.nearest? (b : Neighbourhood) : Option Nat :=
  let floor := b.middle / b.denominator
  let rest := b.middle % b.denominator
  match b.contains floor, b.contains (floor + 1) with
  | false, false => none
  | true, false => some floor
  | false, true => some (floor + 1)
  | true, true =>
    if 2 * rest < b.denominator then some floor
    else if b.denominator < 2 * rest then some (floor + 1)
    else some (floor + floor % 2)

/-- The greatest power of ten that is at most a positive finite number, found from the power of
two. -/
def magnitude (x : Double) : Int :=
  let twos : Int := Nat.log2 x.significand + x.exponent
  let guess := (twos * 30103) / 100000
  let reaches (power : Int) : Bool :=
    let b := x.neighbourhood power
    b.denominator ≤ b.middle
  if reaches (guess + 1) then guess + 1
  else if reaches guess then guess
  else guess - 1

/-- The shortest decimal of a positive finite number among those with at least
`18 - remaining` digits. -/
def shortestFrom (x : Double) (magnitude : Int) : Nat → Decimal
  | 0 => ⟨['0'], 1⟩
  | remaining + 1 =>
    let power := magnitude + 1 - (17 - remaining : Nat)
    match (x.neighbourhood power).nearest? with
    | some n =>
      let digits := Nat.toDigits 10 n
      ⟨(digits.reverse.dropWhile (· == '0')).reverse, digits.length + power⟩
    | none => shortestFrom x magnitude remaining

/-- The shortest decimal of a positive finite number. -/
def shortest (x : Double) : Decimal := shortestFrom x x.magnitude 17

end Double

/-- The text of a decimal: positional with at least one digit on each side of the point, or the
first digit, the point, the others and the exponent with its sign and at least two digits. -/
def Decimal.text (layout : Layout) (d : Decimal) : Text :=
  let exponent := d.point - 1
  let chars : List Char :=
    if layout.least ≤ exponent ∧ exponent < layout.bound then
      if d.point ≤ 0 then ['0', '.'] ++ List.replicate (-d.point).toNat '0' ++ d.digits
      else
        let whole := d.digits.take d.point.toNat
        let part := d.digits.drop d.point.toNat
        whole ++ List.replicate (d.point.toNat - whole.length) '0' ++ ['.']
          ++ (if part.isEmpty then ['0'] else part)
    else
      let power := Nat.toDigits 10 exponent.natAbs
      d.digits.take 1 ++ (if d.digits.length ≤ 1 then [] else '.' :: d.digits.drop 1)
        ++ ['e', if exponent < 0 then '-' else '+']
        ++ List.replicate (2 - power.length) '0' ++ power
  chars.map .scalar

/-- The words for the numbers that have no digits. -/
structure NumberWords where
  nan : Text
  infinity : Text

/-- The words used where values are shown. -/
def NumberWords.shown : NumberWords := ⟨"nan", "inf"⟩

/-- The text of a number. -/
def Double.text (words : NumberWords) (x : Double) : Text :=
  if x.isNaN then words.nan
  else
    (if x.negative then [.scalar '-'] else [])
      ++ (if x.isInfinite then words.infinity
          else if x.isZero then "0.0"
          else x.shortest.text Layout.standard)

end ParserClient
