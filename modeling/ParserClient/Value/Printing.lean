import ParserClient.Number.Shortest
import ParserClient.Text.Quoted
import ParserClient.Value

/-!
# Values as text

A value is shown in one line: scalars by their words, texts and byte strings between quotes, and
collections with their elements in order. A text alone is shown as itself. Showing fails when an
integer in the value has more digits than the limit.

## Main definitions

* `Value.quoted` — the text of a value inside another one.
* `Value.shown` — the text of a value on its own.
-/

namespace ParserClient

/-- The word for a truth value. -/
def truthWord (b : Bool) : Text := if b then "True" else "False"

/-- Texts between brackets, separated by commas. -/
def bracketed (opening closing : Text) (parts : List Text) : Text :=
  opening ++ Text.intercalate ", " parts ++ closing

namespace Value

mutual

/-- The text of a value inside another one. -/
def quoted : Value → Except Oversized Text
  | .null => .ok "None"
  | .bool b => .ok (truthWord b)
  | .int n => Integer.text? n
  | .float x => .ok (x.text .shown)
  | .text t => .ok t.quoted
  | .bytes b => .ok (Bytes.quoted b)
  | .list items => do
    let parts ← quotedItems items
    return bracketed "[" "]" parts
  | .tuple items => do
    let parts ← quotedItems items
    return bracketed "(" (if parts.length = 1 then ",)" else ")") parts
  | .set items => do
    let parts ← quotedItems items
    return if parts.isEmpty then "set()" else bracketed "\x7b" "\x7d" parts
  | .mapping entries => do
    let parts ← quotedEntries entries
    return bracketed "\x7b" "\x7d" parts

/-- The texts of the elements of a sequence. -/
def quotedItems : List Value → Except Oversized (List Text)
  | [] => .ok []
  | v :: rest => do
    let head ← quoted v
    let tail ← quotedItems rest
    return head :: tail

/-- The texts of the entries of a mapping. -/
def quotedEntries : List (Value × Value) → Except Oversized (List Text)
  | [] => .ok []
  | (k, v) :: rest => do
    let key ← quoted k
    let value ← quoted v
    let tail ← quotedEntries rest
    return (key ++ (": " : Text) ++ value) :: tail

end

/-- The text of a value on its own. -/
def shown : Value → Except Oversized Text
  | .text t => .ok t
  | v => v.quoted

end Value

end ParserClient
