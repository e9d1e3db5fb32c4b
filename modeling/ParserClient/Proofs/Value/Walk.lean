import Mathlib.Data.List.Forall2
import Mathlib.Data.List.Lex
import ParserClient.Proofs.Value.Printing

/-!
# Walking through a value

The parts of a value are the value itself, the elements of its lists and tuples, the keys and the
values of its mappings, and their parts in turn. A part stands at a *place*, the path of numbers
that leads to it: at each step the number of a child, where an entry of a mapping has two children,
its key and then its value. A set is not entered, and neither is a key.

Paths are compared in lexicographic order. That is the order of a walk through the value, depth
first and from left to right: a part comes before what is in it, and all that is in a child comes
before the next child.

## Main definitions

* `Value.Part`, `Value.Part.children` — a part, and the parts right below it.
* `Value.Part.at?` — the part at a place.
* `Value.Part.All`, `Value.Part.First` — what holds of all parts, the first part of which it holds.

## Main results

* `mapM_eq_ok_iff`, `exists_of_mapM_eq_error` — results that are taken one after the other.
* `Value.nestedInduction` — induction over a value and all that is in it.
* `Value.Part.all_iff` — what holds of a part and of all that is in its children.
* `Value.Part.first_of_child`, `Value.Part.First.unique` — where the first part is, and that there
  is one only.
-/

namespace ParserClient

/-! ### Results one after the other -/

section Results

variable {ε α β : Type} {f : α → Except ε β} {items : List α}

/-- Results taken one after the other succeed if each of them does. -/
theorem mapM_eq_ok_iff {results : List β} :
    items.mapM f = .ok results ↔ List.Forall₂ (fun a b => f a = .ok b) items results := by
  induction items generalizing results with
  | nil =>
    rw [List.forall₂_nil_left_iff]
    exact ⟨fun h => (Except.ok.inj h).symm, fun h => h ▸ rfl⟩
  | cons a items ih =>
    rw [List.mapM_cons]
    constructor
    · intro h
      obtain ⟨b, hb, h⟩ := exists_of_bind h
      obtain ⟨rest, hrest, ⟨⟩⟩ := exists_of_bind h
      exact .cons hb (ih.mp hrest)
    · rintro (_ | ⟨hb, hrest⟩)
      rw [hb, ih.mpr hrest]
      rfl

/-- Results of a kind can be taken one after the other exactly if there is one of each. -/
theorem exists_mapM_eq_ok_iff {P : β → Prop} :
    (∃ results, items.mapM f = .ok results ∧ ∀ r ∈ results, P r) ↔
      ∀ a ∈ items, ∃ b, f a = .ok b ∧ P b := by
  simp only [mapM_eq_ok_iff]
  induction items with
  | nil => simp
  | cons a items ih =>
    rw [List.forall_mem_cons, ← ih]
    constructor
    · rintro ⟨_, _ | ⟨hb, hrest⟩, hall⟩
      obtain ⟨hP, hall⟩ := List.forall_mem_cons.mp hall
      exact ⟨⟨_, hb, hP⟩, _, hrest, hall⟩
    · rintro ⟨⟨b, hb, hP⟩, rest, hrest, hall⟩
      exact ⟨b :: rest, .cons hb hrest, List.forall_mem_cons.mpr ⟨hP, hall⟩⟩

theorem exists_of_mapM_eq_ok {results : List β} (h : items.mapM f = .ok results) :
    ∀ a ∈ items, ∃ b, f a = .ok b := by
  simpa using exists_mapM_eq_ok_iff (P := fun _ => True).mp ⟨results, h, fun _ _ => trivial⟩

/-- Results taken one after the other fail as the first does that fails. -/
theorem exists_of_mapM_eq_error {e : ε} (h : items.mapM f = .error e) :
    ∃ before a after, items = before ++ a :: after ∧ (∀ b ∈ before, ∃ r, f b = .ok r) ∧
      f a = .error e := by
  induction items with
  | nil => cases h
  | cons a items ih =>
    rw [List.mapM_cons] at h
    cases ha : f a with
    | error e' =>
      rw [ha] at h
      obtain rfl : e' = e := Except.error.inj h
      exact ⟨[], a, items, rfl, by simp, ha⟩
    | ok b =>
      cases hrest : items.mapM f with
      | ok rest =>
        rw [ha, hrest] at h
        cases h
      | error e' =>
        rw [ha, hrest] at h
        obtain rfl : e' = e := Except.error.inj h
        obtain ⟨before, c, after, rfl, hbefore, hc⟩ := ih hrest
        exact ⟨a :: before, c, after, rfl, List.forall_mem_cons.mpr ⟨⟨b, ha⟩, hbefore⟩, hc⟩

end Results

namespace Value

/-- Induction over a value and all that is in it, what stands in sets and in keys apart. -/
@[elab_as_elim]
theorem nestedInduction {motive : Value → Prop} (null : motive .null)
    (bool : ∀ b, motive (.bool b)) (int : ∀ n, motive (.int n)) (float : ∀ x, motive (.float x))
    (text : ∀ t, motive (.text t)) (bytes : ∀ b, motive (.bytes b))
    (list : ∀ items, (∀ v ∈ items, motive v) → motive (.list items))
    (tuple : ∀ items, (∀ v ∈ items, motive v) → motive (.tuple items))
    (set : ∀ items, motive (.set items))
    (mapping : ∀ entries, (∀ e ∈ entries, motive e.2) → motive (.mapping entries)) (v : Value) :
    motive v := by
  refine @Value.rec motive (fun items => ∀ v ∈ items, motive v)
    (fun entries => ∀ e ∈ entries, motive e.2) (fun e => motive e.2) null bool int float text bytes
    list tuple (fun items _ => set items) mapping ?_ ?_ ?_ ?_ ?_ v
  · exact fun _ h => absurd h List.not_mem_nil
  · exact fun _ _ hhead htail => List.forall_mem_cons.mpr ⟨hhead, htail⟩
  · exact fun _ h => absurd h List.not_mem_nil
  · exact fun _ _ hhead htail => List.forall_mem_cons.mpr ⟨hhead, htail⟩
  · exact fun _ _ _ hvalue => hvalue

/-! ### Parts and their places -/

/-- What stands in a value: a value, or a key of a mapping. -/
inductive Part where
  | value (v : Value)
  | key (k : Value)

namespace Part

/-- The key and the value of an entry. -/
def ofEntry (e : Value × Value) : List Part := [.key e.1, .value e.2]

/-- The parts right below a part, from left to right. -/
def children : Part → List Part
  | .value (.list items) => items.map .value
  | .value (.tuple items) => items.map .value
  | .value (.mapping entries) => entries.flatMap ofEntry
  | _ => []

/-- The part to which a path leads. -/
def at? (x : Part) : List Nat → Option Part
  | [] => some x
  | i :: path =>
    match x.children[i]? with
    | none => none
    | some c => c.at? path

/-- It holds of a part and of all that is in it. -/
def All (P : Part → Prop) (x : Part) : Prop := ∀ path y, x.at? path = some y → P y

/-- `y` is the first part of `x`, in the order of a walk depth first and from left to right, of
which it holds. -/
def First (P : Part → Prop) (x y : Part) : Prop :=
  ∃ path, x.at? path = some y ∧ P y ∧ ∀ earlier < path, ∀ z, x.at? earlier = some z → ¬ P z

variable {P : Part → Prop} {x y c : Part}

theorem at?_cons_of_getElem? {i : Nat} (h : x.children[i]? = some c) (path : List Nat) :
    x.at? (i :: path) = c.at? path := by
  rw [at?, h]

/-- What is found behind a number is found in the child with the number. -/
theorem exists_child_of_at? {i : Nat} {path : List Nat} (h : x.at? (i :: path) = some y) :
    ∃ c, x.children[i]? = some c ∧ c.at? path = some y := by
  rw [at?] at h
  split at h
  · cases h
  · next c hc => exact ⟨c, hc, h⟩

theorem all_iff : x.All P ↔ P x ∧ ∀ c ∈ x.children, c.All P := by
  constructor
  · intro h
    refine ⟨h [] x rfl, fun c hc path y hy => ?_⟩
    obtain ⟨i, hi⟩ := List.mem_iff_getElem?.mp hc
    exact h (i :: path) y (by rwa [at?_cons_of_getElem? hi])
  · rintro ⟨hself, hchildren⟩ path y hy
    cases path with
    | nil => exact Option.some.inj hy ▸ hself
    | cons i path =>
      obtain ⟨c, hc, hy⟩ := exists_child_of_at? hy
      exact hchildren c (List.mem_of_getElem? hc) path y hy

/-- What holds of all that is in a part without children holds of the part. -/
theorem all_leaf_iff (hx : x.children = []) : x.All P ↔ P x := by
  rw [all_iff, hx]
  simp

theorem all_items_iff {items : List Value} :
    (∀ c ∈ items.map Part.value, c.All P) ↔ ∀ v ∈ items, (Part.value v).All P :=
  List.forall_mem_map

theorem all_entries_iff {entries : Entries} :
    (∀ c ∈ entries.flatMap ofEntry, c.All P) ↔
      ∀ e ∈ entries, P (.key e.1) ∧ (Part.value e.2).All P := by
  simp only [List.forall_mem_flatMap, ofEntry, List.forall_mem_cons, List.not_mem_nil,
    false_imp_iff, implies_true, and_true]
  exact forall₂_congr fun e _ => and_congr_left fun _ => all_leaf_iff rfl

theorem first_self (h : P x) : First P x x :=
  ⟨[], rfl, h, fun earlier hlt => absurd hlt (List.not_lt_nil earlier)⟩

/-- The first part is that of the first child that has one, if it does not hold of the part
itself. -/
theorem first_of_child (hself : ¬ P x) {before after : List Part}
    (hchildren : x.children = before ++ c :: after) (hbefore : ∀ b ∈ before, b.All fun z => ¬ P z)
    (h : First P c y) : First P x y := by
  have hget : x.children[before.length]? = some c := by simp [hchildren]
  obtain ⟨path, hpath, hy, hearlier⟩ := h
  refine ⟨before.length :: path, by rwa [at?_cons_of_getElem? hget], hy, ?_⟩
  intro earlier hlt z hz
  cases earlier with
  | nil => exact Option.some.inj hz ▸ hself
  | cons i rest =>
    obtain ⟨d, hd, hz⟩ := exists_child_of_at? hz
    rcases List.cons_lt_cons_iff.mp hlt with hi | ⟨rfl, hrest⟩
    · -- a child in front of the one that has it
      rw [hchildren, List.getElem?_append_left hi] at hd
      exact hbefore d (List.mem_of_getElem? hd) rest z hz
    · obtain rfl := Option.some.inj (hget.symm.trans hd)
      exact hearlier rest hrest z hz

/-- There is one first part only. -/
theorem First.unique {z : Part} (hy : First P x y) (hz : First P x z) : y = z := by
  obtain ⟨p, hp, hPy, hbefore⟩ := hy
  obtain ⟨q, hq, hPz, hbefore'⟩ := hz
  rcases lt_trichotomy p q with hlt | rfl | hlt
  · exact absurd hPy (hbefore' p hlt y hp)
  · exact Option.some.inj (hp.symm.trans hq)
  · exact absurd hPz (hbefore q hlt z hq)

theorem First.not_all (h : First P x y) : ¬ x.All fun z => ¬ P z := by
  obtain ⟨path, hpath, hy, -⟩ := h
  exact fun hall => hall path y hpath hy

end Part

end Value

end ParserClient
