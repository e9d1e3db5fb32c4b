import ParserClient.Text
import ParserClient.Text.Range

/-!
# Blank text

Two notions of blank are in use. A *blank* code point separates nothing in a setting: white space
together with the four information separators `1C` to `1F`. *White space* proper leaves those four
out; numbers are trimmed of it.

## Main definitions

* `CodePoint.isBlank`, `CodePoint.isWhite`.
* `Text.trim` — a text without the code points of a kind at its two ends.
* `Text.isBlank` — nothing but blank code points.
-/

namespace ParserClient

/-- The ranges of white space. -/
def whiteRanges : List (Nat × Nat) :=
  [(9, 13), (32, 32), (133, 133), (160, 160), (5760, 5760), (8192, 8202), (8232, 8233),
   (8239, 8239), (8287, 8287), (12288, 12288)]

namespace CodePoint

/-- White space. -/
def isWhite (c : CodePoint) : Bool := inRanges whiteRanges c.toNat

/-- White space or an information separator. -/
def isBlank (c : CodePoint) : Bool := c.isWhite || (28 ≤ c.toNat && c.toNat ≤ 31)

end CodePoint

namespace Text

/-- The text without its trailing code points of a kind. -/
def trimEnd (kind : CodePoint → Bool) (t : Text) : Text :=
  (t.reverse.dropWhile kind).reverse

/-- The text without its leading and trailing code points of a kind. -/
def trim (kind : CodePoint → Bool) (t : Text) : Text := trimEnd kind (t.dropWhile kind)

/-- The text holds blank code points only. -/
def isBlank (t : Text) : Bool := t.all CodePoint.isBlank

end Text

end ParserClient
