import ParserClient.Tree

/-!
# Writing JSON

The JSON text of a value, in one line and without space. Everything but quotes, backslashes and
control characters stands for itself, a lone surrogate half too. Keys are texts; numbers, truth
values and nothing are written as keys in their own words. A value that holds a set or a byte
string, or a key of another kind, has no JSON text; the first offence in reading order is
reported.

## Main definitions

* `Json.writeString`, `Json.write`, `Json.WriteFault`.
-/

namespace ParserClient

namespace Json

/-- Why a value has no JSON text. -/
inductive WriteFault where
  | value (kind : Text)
  | key (kind : Text)
  | oversized (o : Oversized)
  deriving DecidableEq, Repr

/-- The wording of a fault. -/
def WriteFault.message : WriteFault → Text
  | .value kind => ("Object of type " : Text) ++ kind ++ (" is not JSON serializable" : Text)
  | .key kind => "keys must be str, int, float, bool or None, not " ++ kind
  | .oversized o => o.message

/-- The words for the numbers that have no digits. -/
def numberWords : NumberWords := ⟨"NaN", "Infinity"⟩

/-- The word for a truth value. -/
def truth (b : Bool) : Text := if b then "true" else "false"

/-- A code point inside a string. -/
def writePoint (c : CodePoint) : Text :=
  if c = .scalar '"' then "\\\""
  else if c = .scalar '\\' then "\\\\"
  else if c = .scalar '\n' then "\\n"
  else if c = .scalar '\r' then "\\r"
  else if c = .scalar '\t' then "\\t"
  else if c = .scalar '\x0c' then "\\f"
  else if c = .scalar '\x08' then "\\b"
  else if c.toNat < 0x20 then "\\u" ++ Utf8.hex 4 c.toNat
  else [c]

/-- A string between quotes. -/
def writeString (t : Text) : Text :=
  .scalar '"' :: t.flatMap writePoint ++ [.scalar '"']

/-- An integer within the limit. -/
def writeInt (n : Int) : Except WriteFault Text := (Integer.text? n).mapError .oversized

/-- The text of a key. -/
def keyText : Value → Except WriteFault Text
  | .null => .ok "null"
  | .bool b => .ok (truth b)
  | .int n => writeInt n
  | .float x => .ok (x.text numberWords)
  | .text t => .ok t
  | other => .error (.key other.kindName)

mutual

/-- The JSON text of a value. -/
def write : Value → Except WriteFault Text
  | .null => .ok "null"
  | .bool b => .ok (truth b)
  | .int n => writeInt n
  | .float x => .ok (x.text numberWords)
  | .text t => .ok (writeString t)
  | .bytes b => .error (.value (Value.bytes b).kindName)
  | .set items => .error (.value (Value.set items).kindName)
  | .list items => do
    let parts ← writeItems items
    return (.scalar '[' :: Text.intercalate "," parts) ++ [.scalar ']']
  | .tuple items => do
    let parts ← writeItems items
    return (.scalar '[' :: Text.intercalate "," parts) ++ [.scalar ']']
  | .mapping entries => do
    let parts ← writeEntries entries
    return (.scalar '\x7b' :: Text.intercalate "," parts) ++ [.scalar '\x7d']

/-- The JSON texts of the elements of a sequence. -/
def writeItems : List Value → Except WriteFault (List Text)
  | [] => .ok []
  | v :: rest => do
    let head ← write v
    let tail ← writeItems rest
    return head :: tail

/-- The JSON texts of the entries of a mapping. -/
def writeEntries : List (Value × Value) → Except WriteFault (List Text)
  | [] => .ok []
  | (k, v) :: rest => do
    let key ← keyText k
    let value ← write v
    let tail ← writeEntries rest
    return (writeString key ++ .scalar ':' :: value) :: tail

end

end Json

end ParserClient
