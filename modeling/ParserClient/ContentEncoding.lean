import ParserClient.Base64
import ParserClient.Text.Lowercase
import ParserClient.Value.Printing

/-!
# Content encodings

Content crosses the wire as it is or, for content that is no valid text elsewhere, in base 64. A
tag names the encoding; it is read in any case of letters, and what is no text is read by the text
that it is shown as.

## Main definitions

* `ContentEncoding`, `ContentEncoding.name`.
* `ContentEncoding.ofValue` and `TagFault` — reading a tag.
* `ContentEncoding.encode`, `ContentEncoding.decode` — content to wire and back.
-/

namespace ParserClient

/-- The encoding of content on the wire. -/
inductive ContentEncoding where
  | utf8
  | base64
  deriving DecidableEq, Repr

/-- Why a tag names no encoding: it is another text, or it cannot be shown as text at all. -/
inductive TagFault where
  | unknown (tag : Value) (shown : Text)
  | oversized (o : Oversized)

/-- The wording of a fault. -/
def TagFault.message : TagFault → Text
  | .unknown _ shown => "invalid Encoding: " ++ shown
  | .oversized o => o.message

/-- Why wire content has no text. -/
inductive ContentFault where
  | base64 (f : Base64.Fault)
  | bytes (f : Utf8.Undecodable)
  deriving DecidableEq, Repr

/-- The wording of a fault. -/
def ContentFault.message : ContentFault → Text
  | .base64 f => "cannot decode base64 content: " ++ f.message
  | .bytes f => "cannot decode base64 content: " ++ f.message

namespace ContentEncoding

/-- The name of an encoding. -/
def name : ContentEncoding → Text
  | .utf8 => "utf8"
  | .base64 => "base64"

/-- The encoding used where none is given. -/
def standard : ContentEncoding := .utf8

/-- The encoding with exactly the given name. -/
def ofName? (t : Text) : Option ContentEncoding :=
  if t = utf8.name then some .utf8
  else if t = base64.name then some .base64
  else none

/-- The encoding whose name the text is in some case of letters. -/
def ofText? (t : Text) : Option ContentEncoding := ofName? t.lower

/-- The encoding that a tag names. -/
def ofValue (tag : Value) : Except TagFault ContentEncoding :=
  match tag.shown with
  | .error o => .error (.oversized o)
  | .ok shown =>
    match ofText? shown with
    | some e => .ok e
    | none => .error (.unknown tag shown)

/-- Content as it is written on the wire. Content with a lone surrogate half is refused in either
encoding. -/
def encode (e : ContentEncoding) (content : Text) : Except Utf8.Unencodable Text :=
  match Utf8.encode content with
  | .error fault => .error fault
  | .ok bytes =>
    match e with
    | .utf8 => .ok content
    | .base64 => .ok (Base64.encode bytes)

/-- The content of what is read from the wire. -/
def decode (e : ContentEncoding) (wire : Text) : Except ContentFault Text :=
  match e with
  | .utf8 => .ok wire
  | .base64 =>
    match Base64.decode wire with
    | .error f => .error (.base64 f)
    | .ok bytes => (Utf8.decode bytes).mapError .bytes

end ContentEncoding

end ParserClient
