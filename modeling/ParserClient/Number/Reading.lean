import ParserClient.Number.Double
import ParserClient.Text.Blank
import ParserClient.Text.Lowercase

/-!
# Reading a number from text

The numeral of a setting: an optional sign, then a word for infinity or for no number, in any
case, or decimal digits with an optional point and an optional exponent. White space around the
numeral is left out. If that gives no number, single underscores between other code points may be
left out instead.

## Main definitions

* `Text.numeral?` — the number of a numeral that fills the whole text.
* `Text.number?` — with white space or underscores left out.
-/

namespace ParserClient

namespace Text

/-- The exponent that fills the rest of a numeral: nothing, or `e`, a sign and digits. -/
def exponent? : Text → Option Int
  | [] => some 0
  | .scalar c :: t =>
    if c = 'e' ∨ c = 'E' then
      let (negative, t) := takeSign t
      match spanDigits t with
      | ([], _) => none
      | (digits, []) =>
        let n : Int := Natural.ofDigits digits
        some (if negative then -n else n)
      | (_, _ :: _) => none
    else none
  | .lone _ :: _ => none

/-- The digits before and behind the point of a numeral, and the rest. -/
def takeDigits (t : Text) : List Nat × List Nat × Text :=
  let (whole, rest) := spanDigits t
  match rest with
  | .scalar '.' :: t' =>
    let (part, rest') := spanDigits t'
    (whole, part, rest')
  | _ => (whole, [], rest)

/-- The number of decimal digits with an optional point and exponent. -/
def decimal? (negative : Bool) (t : Text) : Option Double :=
  let (whole, part, rest) := t.takeDigits
  if whole.isEmpty && part.isEmpty then none
  else
    (exponent? rest).map fun e =>
      Double.ofDecimal negative (Natural.ofDigits (whole ++ part)) (e - part.length)

/-- The number of a numeral that fills the whole text. -/
def numeral? (t : Text) : Option Double :=
  let (negative, body) := takeSign t
  let word := body.lower
  if word = ofString "inf" ∨ word = ofString "infinity" then some (Double.infinity negative)
  else if word = ofString "nan" then some Double.nan
  else decimal? negative body

/-- An underscore. -/
def underscore : CodePoint := .scalar '_'

/-- Two underscores stand next to each other. -/
def doublesUnderscore : Text → Bool
  | c :: d :: t => (c = underscore && d = underscore) || doublesUnderscore (d :: t)
  | _ => false

/-- The text without its underscores, if there are some and each stands alone between two other
code points. -/
def withoutUnderscores? (t : Text) : Option Text :=
  if t.contains underscore && t.head? != some underscore && t.getLast? != some underscore
      && !doublesUnderscore t then
    some (t.filter (· != underscore))
  else none

/-- The number of a text, white space around it or underscores in it left out. -/
def number? (t : Text) : Option Double :=
  match numeral? (t.trim CodePoint.isWhite) with
  | some x => some x
  | none => (withoutUnderscores? t).bind numeral?

end Text

end ParserClient
