import ParserClient.Value.Printing

/-!
# Seconds

The length of a deadline as it was given: an integer, a floating point number or a truth value. It
is kept as given because reports show it so.

## Main definitions

* `Seconds`, `Seconds.toValue`.
* `Seconds.shown?` — the text of a deadline, within the limit on digits.
-/

namespace ParserClient

/-- A number of seconds, as it was given. -/
inductive Seconds where
  | int (n : Int)
  | float (x : Double)
  | flag (b : Bool)
  deriving DecidableEq, Repr

namespace Seconds

/-- The value that a number of seconds was given as. -/
def toValue : Seconds → Value
  | .int n => .int n
  | .float x => .float x
  | .flag b => .bool b

/-- The text of a deadline, if there is one, within the limit on digits. -/
def shown? : Option Seconds → Except Oversized Text
  | none => .ok "None"
  | some (.int n) => Integer.text? n
  | some (.float x) => .ok (x.text .shown)
  | some (.flag b) => .ok (truthWord b)

end Seconds

end ParserClient
