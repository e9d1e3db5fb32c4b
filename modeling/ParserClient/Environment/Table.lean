import ParserClient.Text

/-!
# Tables

A *table* gives things to names, in the order in which the names were first put in. A name occurs
at most once: to put something under a name that is there takes the place of what was there.

## Main definitions

* `Table`, `Table.get?`, `Table.put`, `Table.erase`.
* `Table.collect` — the table of a list in which a later entry prevails over an earlier one.

## Main statements

* `Table.get?_put` — what is found after something is put in.
-/

namespace ParserClient

/-- Things under names. -/
abbrev Table (α : Type) := List (Text × α)

namespace Table

variable {α : Type}

/-- What stands under a name. -/
def get? (table : Table α) (name : Text) : Option α :=
  match table with
  | [] => none
  | (n, a) :: rest => if n = name then some a else get? rest name

/-- The table with something under a name. -/
def put (table : Table α) (name : Text) (a : α) : Table α :=
  match table with
  | [] => [(name, a)]
  | (n, b) :: rest => if n = name then (n, a) :: rest else (n, b) :: put rest name a

/-- The table without a name. -/
def erase (table : Table α) (name : Text) : Table α := table.filter fun e => e.1 ≠ name

/-- The table of a list of entries, the last of which prevails. -/
def collect (entries : List (Text × α)) : Table α :=
  entries.foldl (fun table e => table.put e.1 e.2) []

@[simp]
theorem get?_nil (name : Text) : Table.get? ([] : Table α) name = none := rfl

theorem get?_put (table : Table α) (name other : Text) (a : α) :
    (table.put name a).get? other = if name = other then some a else table.get? other := by
  induction table with
  | nil => simp [put, get?]
  | cons e rest ih =>
    obtain ⟨n, b⟩ := e
    by_cases h : n = name
    · subst h
      by_cases h' : n = other <;> simp [put, get?, h']
    · by_cases h' : n = other
      · subst h'
        simp [put, get?, h, Ne.symm h]
      · simp [put, get?, h, h', ih]

end Table

end ParserClient
