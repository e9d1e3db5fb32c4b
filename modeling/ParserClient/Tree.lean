import ParserClient.Value.Printing

/-!
# Trees

A *tree* is what a parser produces: scalars at the leaves, arrays, and objects with textual keys in
order. A value is a tree if it holds no set and no byte string and all keys of its mappings are
texts; tuples become arrays. The first offence in reading order is reported, a key before the
value that it leads to.

## Main definitions

* `Tree`, `Tree.toValue`.
* `Tree.field?` — a field of an object.
* `Tree.ofValue` and `TreeFault` — the tree of a value, or the first offence.
* `Tree.frames`, `Tree.levels` — what making a tree and showing one take up of the stack.
* `Tree.printed` — the text of a tree, in which objects and arrays carry their names.
-/

namespace ParserClient

/-- A tree with scalar leaves. -/
inductive Tree where
  | null
  | bool (b : Bool)
  | int (n : Int)
  | float (x : Double)
  | text (t : Text)
  | array (items : List Tree)
  | object (fields : List (Text × Tree))
  deriving Inhabited

/-- Why a value is no tree. -/
inductive TreeFault where
  | key (kind : Text)
  | value (kind : Text)
  deriving DecidableEq, Repr

/-- The wording of an offence. -/
def TreeFault.message : TreeFault → Text
  | .key kind => "object keys must be strings, got " ++ kind
  | .value kind => "unsupported type: " ++ kind

namespace Tree

/-- The field of an object with a name. -/
def field? (t : Tree) (name : Text) : Option Tree :=
  match t with
  | .object fields => (fields.find? fun f => f.1 = name).map (·.2)
  | _ => none

mutual

/-- The value that a tree is. -/
def toValue : Tree → Value
  | .null => .null
  | .bool b => .bool b
  | .int n => .int n
  | .float x => .float x
  | .text t => .text t
  | .array items => .list (itemsToValue items)
  | .object fields => .mapping (fieldsToValue fields)

/-- The values that a list of trees is. -/
def itemsToValue : List Tree → List Value
  | [] => []
  | t :: rest => toValue t :: itemsToValue rest

/-- The entries that a list of fields is. -/
def fieldsToValue : List (Text × Tree) → Entries
  | [] => []
  | (k, t) :: rest => (.text k, toValue t) :: fieldsToValue rest

end

mutual

/-- The tree of a value. -/
def ofValue : Value → Except TreeFault Tree
  | .null => .ok .null
  | .bool b => .ok (.bool b)
  | .int n => .ok (.int n)
  | .float x => .ok (.float x)
  | .text t => .ok (.text t)
  | .bytes b => .error (.value (Value.bytes b).kindName)
  | .set items => .error (.value (Value.set items).kindName)
  | .list items => do
    let trees ← ofItems items
    return .array trees
  | .tuple items => do
    let trees ← ofItems items
    return .array trees
  | .mapping entries => do
    let fields ← ofEntries entries
    return .object fields

/-- The trees of the elements of a sequence. -/
def ofItems : List Value → Except TreeFault (List Tree)
  | [] => .ok []
  | v :: rest => do
    let head ← ofValue v
    let tail ← ofItems rest
    return head :: tail

/-- The fields of the entries of a mapping. -/
def ofEntries : List (Value × Value) → Except TreeFault (List (Text × Tree))
  | [] => .ok []
  | (k, v) :: rest =>
    match k with
    | .text key => do
      let head ← ofValue v
      let tail ← ofEntries rest
      return (key, head) :: tail
    | other => .error (.key other.kindName)

end

mutual

/-- The number of frames that making a tree takes up on the stack at once. To tell the kind of a
container takes three beside its own; the fields of an object are made in the frame of the object,
the items of an array two frames further in, by the generator from which the array is filled. -/
def frames : Tree → Nat
  | .array items => 1 + max 3 (2 + framesOfItems items)
  | .object fields => 1 + max 3 (framesOfFields fields)
  | _ => 1

/-- The most frames that an element of an array takes up. -/
def framesOfItems : List Tree → Nat
  | [] => 0
  | t :: rest => max (frames t) (framesOfItems rest)

/-- The most frames that a field of an object takes up. -/
def framesOfFields : List (Text × Tree) → Nat
  | [] => 0
  | (_, t) :: rest => max (frames t) (framesOfFields rest)

end

mutual

/-- The number of levels on which what a tree holds is shown: those of its containers, and one more
for scalars in the innermost. -/
def levels : Tree → Nat
  | .array items => 1 + levelsOfItems items
  | .object fields => 1 + levelsOfFields fields
  | _ => 0

/-- The most levels that an element of an array adds. -/
def levelsOfItems : List Tree → Nat
  | [] => 0
  | t :: rest => max (max 1 (levels t)) (levelsOfItems rest)

/-- The most levels that a field of an object adds. -/
def levelsOfFields : List (Text × Tree) → Nat
  | [] => 0
  | (_, t) :: rest => max (max 1 (levels t)) (levelsOfFields rest)

end

/-! ### Printing -/

mutual

/-- The text of a tree. -/
def printed : Tree → Except Oversized Text
  | .null => .ok "None"
  | .bool b => .ok (truthWord b)
  | .int n => Integer.text? n
  | .float x => .ok (x.text .shown)
  | .text t => .ok t.quoted
  | .array items => do
    let parts ← printedItems items
    return bracketed "Array([" "])" parts
  | .object fields => do
    let parts ← printedFields fields
    return bracketed "Object(\x7b" "\x7d)" parts

/-- The texts of the elements of an array. -/
def printedItems : List Tree → Except Oversized (List Text)
  | [] => .ok []
  | t :: rest => do
    let head ← printed t
    let tail ← printedItems rest
    return head :: tail

/-- The texts of the fields of an object. -/
def printedFields : List (Text × Tree) → Except Oversized (List Text)
  | [] => .ok []
  | (k, t) :: rest => do
    let value ← printed t
    let tail ← printedFields rest
    return (k.quoted ++ (": " : Text) ++ value) :: tail

end

end Tree

end ParserClient
