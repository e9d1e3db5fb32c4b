import ParserClient.Text

/-!
# Integers in decimal

Integers are written and read in decimal, up to a limit on the number of digits. The limit guards
against the cost of conversion, in both directions; the two directions word it differently.

## Main definitions

* `Natural.text`, `Integer.text` — decimal digits, without a limit.
* `digitLimit`, `Oversized`, `Integer.text?` — decimal digits within the limit.
* `CodePoint.digit?`, `Natural.ofDigits`, `Text.spanDigits`, `Text.takeSign` — reading digits.
-/

namespace ParserClient

/-- The greatest number of decimal digits that an integer is written or read with. -/
def digitLimit : Nat := 4300

/-- An integer has more digits than the limit allows. The number of digits is known when the
integer is read. -/
inductive Oversized where
  | written
  | read (digits : Nat)
  deriving DecidableEq, Repr

/-- The decimal digits of a natural number. -/
def Natural.text (n : Nat) : Text := (Nat.toDigits 10 n).map .scalar

/-- The decimal digits of an integer, with a leading minus sign if it is negative. -/
def Integer.text : Int → Text
  | .ofNat n => Natural.text n
  | .negSucc n => .scalar '-' :: Natural.text (n + 1)

/-- The decimal digits of an integer within the limit. -/
def Integer.text? (n : Int) : Except Oversized Text :=
  if (Nat.toDigits 10 n.natAbs).length ≤ digitLimit then .ok (Integer.text n)
  else .error .written

/-- The wording of the limit. -/
def Oversized.message : Oversized → Text
  | .written =>
    Text.ofString s!"Exceeds the limit ({digitLimit} digits) for integer string conversion; "
      ++ Text.ofString "use sys.set_int_max_str_digits() to increase the limit"
  | .read digits =>
    Text.ofString s!"Exceeds the limit ({digitLimit} digits) for integer string conversion: "
      ++ Text.ofString s!"value has {digits} digits; "
      ++ Text.ofString "use sys.set_int_max_str_digits() to increase the limit"

/-- The value of a decimal digit. -/
def CodePoint.digit? : CodePoint → Option Nat
  | .scalar c => if '0' ≤ c ∧ c ≤ '9' then some (c.toNat - '0'.toNat) else none
  | .lone _ => none

/-- The number that a list of decimal digits stands for, the first digit the most significant. -/
def Natural.ofDigits (digits : List Nat) : Nat := digits.foldl (fun n d => 10 * n + d) 0

/-- The decimal digits that a text begins with, and the rest. -/
def Text.spanDigits : Text → List Nat × Text
  | [] => ([], [])
  | c :: t =>
    match c.digit? with
    | some d => (d :: (spanDigits t).1, (spanDigits t).2)
    | none => ([], c :: t)

/-- The sign that a text begins with (`true` for minus), and the rest. -/
def Text.takeSign : Text → Bool × Text
  | .scalar '-' :: t => (true, t)
  | .scalar '+' :: t => (false, t)
  | t => (false, t)

end ParserClient
