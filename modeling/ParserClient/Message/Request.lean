import ParserClient.ContentEncoding
import ParserClient.Message.Issue

/-!
# Requests

A request asks for the tree of a content, which is written in an encoding that the request names.
On the wire it is an object with the two fields `content` and `Encoding`; a value is read as a
request with the encoding under either spelling, the capital one first.

## Main definitions

* `Request`, `Request.toValue`, `Request.ofValue`.
-/

namespace ParserClient

/-- A request to parse content, given as it is written on the wire. -/
structure Request where
  content : Text
  encoding : ContentEncoding
  deriving DecidableEq, Repr

namespace Request

/-- The value that stands for a request on the wire. -/
def toValue (r : Request) : Value :=
  .mapping [(.text "content", .text r.content), (.text "Encoding", .text r.encoding.name)]

/-- The content of a request. -/
def readContent : Option Value → Except (List Issue) Text
  | none => .error [⟨[.field "content"], .given⟩]
  | some v => v.asText.mapError fun want => [⟨[.field "content"], want⟩]

/-- The encoding with the exact name that a value is. -/
def exactEncoding (v : Value) : Except Want ContentEncoding :=
  match v.asText with
  | .error _ => .error .encoding
  | .ok t =>
    if t.Scalar then
      match ContentEncoding.ofName? t with
      | some e => .ok e
      | none => .error .encoding
    else .error .unicode

/-- The encoding of a request, given under the spelling on the wire or else under the other one. -/
def readEncoding (wire other : Option Value) : Except (List Issue) ContentEncoding :=
  match wire, other with
  | some v, _ => (exactEncoding v).mapError fun want => [⟨[.field "Encoding"], want⟩]
  | none, some v => (exactEncoding v).mapError fun want => [⟨[.field "encoding"], want⟩]
  | none, none => .error [⟨[.field "Encoding"], .given⟩]

/-- The request that a value is. -/
def ofValue : Value → Except (List Issue) Request
  | .mapping entries =>
    let content := readContent (Entries.get? entries "content")
    let encoding := readEncoding (Entries.get? entries "Encoding") (Entries.get? entries "encoding")
    match content, encoding with
    | .ok content, .ok encoding => .ok ⟨content, encoding⟩
    | _, _ => .error (issuesIn content ++ issuesIn encoding)
  | _ => .error [⟨[], .shape .request⟩]

end Request

end ParserClient
