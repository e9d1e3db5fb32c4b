import ParserClient.Number.Double

/-!
# Values

A *value* is what a caller hands in or a line of JSON decodes to, before anything is known about
its shape: scalars, byte strings, sequences, sets and mappings with keys of any kind.

* `Value.sameKey` says when two keys address the same entry: scalars are compared as numbers
  across their kinds, so that `true`, `1` and `1.0` are one key.
* `Entries.put` writes an entry: an old key keeps its place and its first form, a new one goes to
  the end. `Value.mappingOf` collects a list of entries so.
* `Value.isEmpty` holds of the values that stand for "not given".
-/

namespace ParserClient

/-- A value of unknown shape. -/
inductive Value where
  | null
  | bool (b : Bool)
  | int (n : Int)
  | float (x : Double)
  | text (t : Text)
  | bytes (b : Bytes)
  | list (items : List Value)
  | tuple (items : List Value)
  | set (items : List Value)
  | mapping (entries : List (Value × Value))
  deriving Inhabited

/-- The entries of a mapping, in order. -/
abbrev Entries := List (Value × Value)

namespace Value

/-- The name of the kind of a value. -/
def kindName : Value → Text
  | .null => "NoneType"
  | .bool _ => "bool"
  | .int _ => "int"
  | .float _ => "float"
  | .text _ => "str"
  | .bytes _ => "bytes"
  | .list _ => "list"
  | .tuple _ => "tuple"
  | .set _ => "set"
  | .mapping _ => "dict"

/-- The value is nothing, zero, false or has no elements. -/
def isEmpty : Value → Bool
  | .null => true
  | .bool b => !b
  | .int n => n = 0
  | .float x => x.isZero
  | .text t => t.isEmpty
  | .bytes b => b.isEmpty
  | .list items => items.isEmpty
  | .tuple items => items.isEmpty
  | .set items => items.isEmpty
  | .mapping entries => entries.isEmpty

/-- The integer that a truth value or an integer counts as. -/
def asInt? : Value → Option Int
  | .bool b => some (if b then 1 else 0)
  | .int n => some n
  | _ => none

mutual

/-- The two values address the same entry of a mapping. -/
def sameKey : Value → Value → Bool
  | .null, .null => true
  | .text s, .text t => s = t
  | .bytes s, .bytes t => s = t
  | .tuple xs, .tuple ys => sameKeys xs ys
  | .float x, .float y => x.sameNumber y
  | .float x, v => v.asInt?.any x.equalsInt
  | v, .float y => v.asInt?.any y.equalsInt
  | v, w => v.asInt?.any fun n => w.asInt? = some n

/-- The values of two sequences address the same entries, place by place. -/
def sameKeys : List Value → List Value → Bool
  | [], [] => true
  | x :: xs, y :: ys => sameKey x y && sameKeys xs ys
  | _, _ => false

end

end Value

namespace Entries

/-- Writes an entry: in the place of the entry with the same key, else at the end. -/
def put : Entries → Value → Value → Entries
  | [], key, value => [(key, value)]
  | (k, v) :: rest, key, value =>
    if k.sameKey key then (k, value) :: rest else (k, v) :: put rest key value

/-- The value of the entry with a textual key. -/
def get? (entries : Entries) (key : Text) : Option Value :=
  (entries.find? fun e => e.1.sameKey (.text key)).map (·.2)

end Entries

namespace Value

/-- The mapping that a list of entries gives when they are written one after the other. -/
def mappingOf (entries : Entries) : Value :=
  .mapping (entries.foldl (fun all e => Entries.put all e.1 e.2) [])

/-- The set of the given items, each kept once. -/
def setOf (items : List Value) : Value :=
  .set (items.foldl (fun all x => if all.any (·.sameKey x) then all else all ++ [x]) [])

end Value

end ParserClient
