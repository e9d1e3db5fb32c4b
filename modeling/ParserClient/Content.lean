import ParserClient.Fault

/-!
# Content

Content is written on the wire, and read from it, in the encoding that a tag names. A tag that names
none is refused before the content is looked at.

## Main definitions

* `Content.write`, `Content.read`.
-/

namespace ParserClient

namespace Content

/-- Content as it is written on the wire in the encoding of a tag. -/
def write (tag : Value) (content : Text) : Except Fault Text :=
  match ContentEncoding.ofValue tag with
  | .error f => .error (.ofTag f)
  | .ok e => (e.encode content).mapError .unencodable

/-- The content of what is read from the wire in the encoding of a tag. -/
def read (tag : Value) (wire : Text) : Except Fault Text :=
  match ContentEncoding.ofValue tag with
  | .error f => .error (.ofTag f)
  | .ok e => (e.decode wire).mapError .undecodable

end Content

end ParserClient
