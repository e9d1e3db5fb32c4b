import ParserClient.Text.Case

/-!
# Lower case

Lower case of a text, code point by code point, with two exceptions. The capital `I` with a dot
becomes two code points. A capital sigma takes its final form at the end of a word: when a cased
letter stands before it and none after it, code points that words are read across being passed
over on both sides.

## Main definitions

* `Text.lower`.
-/

namespace ParserClient

namespace CodePoint

/-- A cased letter. -/
def isCased (c : CodePoint) : Bool := inRanges casedRanges c.toNat

/-- Passed over when the end of a word is looked for. -/
def isPassed (c : CodePoint) : Bool := inRanges passedRanges c.toNat

/-- The lower case form of a code point that does not depend on its neighbours. -/
def lower (c : CodePoint) : Text :=
  if c.toNat = 0x130 then [.scalar 'i', ofNat 0x307]
  else match caseRuns.findSome? (·.lower? c.toNat) with
    | some n => [ofNat n]
    | none => [c]

/-- The capital sigma. -/
def capitalSigma : CodePoint := ofNat 0x3A3

end CodePoint

namespace Text

/-- A cased letter is the first code point of the text that is not passed over. -/
def meetsCased (t : Text) : Bool :=
  match t.dropWhile CodePoint.isPassed with
  | [] => false
  | c :: _ => c.isCased

/-- Lower case of a text that stands behind the given code points, the nearest one first. -/
def lowerAfter (before : Text) : Text → Text
  | [] => []
  | c :: t =>
    (if c = CodePoint.capitalSigma then
      [if meetsCased before && !meetsCased t then CodePoint.ofNat 0x3C2 else CodePoint.ofNat 0x3C3]
     else c.lower) ++ lowerAfter (c :: before) t

/-- Lower case of a text. -/
def lower (t : Text) : Text := lowerAfter [] t

end Text

end ParserClient
