import ParserClient.Text.Printable
import ParserClient.Text.Utf8

/-!
# Quoted text

A text or a byte string between quotes, on one line and in printable code points. The quote is the
single one unless the content holds single quotes and no double ones. A backslash stands before the
quote and before a backslash, before a letter for tab, line feed and carriage return, and before
the number of what cannot be shown, in two, four or eight hexadecimal digits.

## Main definitions

* `Text.quoted`, `Bytes.quoted`.
-/

namespace ParserClient

/-- The quote put around a content with the given quotes in it. -/
def chooseQuote (single double : Bool) : Char := if single && !double then '"' else '\''

/-- A backslash and what follows it. -/
def escaped (t : Text) : Text := .scalar '\\' :: t

/-- The code point as it stands between the given quotes. -/
def CodePoint.quoted (quote : Char) (c : CodePoint) : Text :=
  if c = .scalar quote ∨ c = .scalar '\\' then escaped [c]
  else if c = .scalar '\t' then escaped "t"
  else if c = .scalar '\n' then escaped "n"
  else if c = .scalar '\r' then escaped "r"
  else if 0x20 ≤ c.toNat ∧ c.toNat < 0x7F then [c]
  else if 0x7F < c.toNat ∧ c.isPrintable then [c]
  else if c.toNat ≤ 0xFF then escaped (.scalar 'x' :: Utf8.hex 2 c.toNat)
  else if c.toNat ≤ 0xFFFF then escaped (.scalar 'u' :: Utf8.hex 4 c.toNat)
  else escaped (.scalar 'U' :: Utf8.hex 8 c.toNat)

/-- The text between quotes. -/
def Text.quoted (t : Text) : Text :=
  let quote := chooseQuote (t.contains (.scalar '\'')) (t.contains (.scalar '"'))
  .scalar quote :: t.flatMap (CodePoint.quoted quote) ++ [.scalar quote]

/-- The byte as it stands between the given quotes. -/
def quotedByte (quote : Char) (b : UInt8) : Text :=
  let c := Char.ofNat b.toNat
  if c = quote ∨ c = '\\' then escaped [.scalar c]
  else if c = '\t' then escaped "t"
  else if c = '\n' then escaped "n"
  else if c = '\r' then escaped "r"
  else if 0x20 ≤ b ∧ b < 0x7F then [.scalar c]
  else escaped (.scalar 'x' :: Utf8.hex 2 b.toNat)

/-- The byte string between quotes, marked by a leading letter. -/
def Bytes.quoted (bytes : Bytes) : Text :=
  let quote := chooseQuote (bytes.contains 0x27) (bytes.contains 0x22)
  .scalar 'b' :: .scalar quote :: bytes.flatMap (quotedByte quote) ++ [.scalar quote]

end ParserClient
