import ParserClient.Proofs.Message.Issues
import ParserClient.Proofs.Value.Walk

/-!
# Which values are trees

A value is a tree exactly if no set and no byte string is a part of it and all keys of its mappings,
at every depth, are texts. The tree is the value with its tuples made lists: nothing else changes,
and a tree stands for itself. If there is an offence, the one reported is the first that a walk
through the value meets, depth first and from left to right, a key before what it leads to.

## Main definitions

* `Value.arrayed` — a value with its tuples made lists.
* `Value.Part.offence?`, `Value.Part.Offends` — what keeps a value from being a tree.

## Main results

* `Tree.all_of_ofValue`, `Tree.toValue_of_ofValue` — what there is to a value that is a tree.
* `Tree.first_of_ofValue` — the offence that is reported.
* `tree_of_value` — these together, for all values.
-/

namespace ParserClient

namespace Value

mutual

/-- The value with its tuples made lists, at every depth. -/
def arrayed : Value → Value
  | .list items => .list (arrayedItems items)
  | .tuple items => .list (arrayedItems items)
  | .mapping entries => .mapping (arrayedEntries entries)
  | v => v

/-- The elements of a sequence with their tuples made lists. -/
def arrayedItems : List Value → List Value
  | [] => []
  | v :: rest => arrayed v :: arrayedItems rest

/-- The entries of a mapping with the tuples in their values made lists. -/
def arrayedEntries : List (Value × Value) → List (Value × Value)
  | [] => []
  | (k, v) :: rest => (k, arrayed v) :: arrayedEntries rest

end

namespace Part

/-- Why a part keeps a value from being a tree: it is a byte string or a set, or a key that is no
text. -/
def offence? : Part → Option TreeFault
  | .value (.bytes b) => some (.value (Value.bytes b).kindName)
  | .value (.set items) => some (.value (Value.set items).kindName)
  | .value _ => none
  | .key (.text _) => none
  | .key k => some (.key k.kindName)

/-- The part keeps a value from being a tree. -/
def Offends (y : Part) : Prop := ∃ f, y.offence? = some f

theorem not_offends_iff {y : Part} :
    ¬ y.Offends ↔ (∀ b, y ≠ .value (.bytes b)) ∧ (∀ items, y ≠ .value (.set items)) ∧
      ∀ k, y = .key k → ∃ t, k = .text t := by
  cases y with
  | value v => cases v <;> simp [Offends, offence?]
  | key k => cases k <;> simp [Offends, offence?]

theorem not_offends_key_text (t : Text) : ¬ (key (.text t)).Offends := by
  simp [Offends, offence?]

end Part

end Value

namespace Tree

open Value (Part)

/-! ### One after the other -/

/-- The field of an entry whose key is a text. -/
def ofEntry (e : Value × Value) : Except TreeFault (Text × Tree) :=
  match e.1 with
  | .text key => (ofValue e.2).map (key, ·)
  | other => .error (.key other.kindName)

theorem ofItems_eq_mapM (items : List Value) : ofItems items = items.mapM ofValue := by
  induction items with
  | nil => rfl
  | cons v rest ih =>
    rw [ofItems, List.mapM_cons, ih]

theorem ofEntries_eq_mapM (entries : Entries) : ofEntries entries = entries.mapM ofEntry := by
  induction entries with
  | nil => rfl
  | cons e rest ih =>
    obtain ⟨k, v⟩ := e
    rw [List.mapM_cons, ofEntry, ← ih]
    cases k with
    | text key =>
      rw [ofEntries]
      cases ofValue v <;> rfl
    | _ => rfl

theorem ofEntry_eq_ok {e : Value × Value} {field : Text × Tree} (h : ofEntry e = .ok field) :
    e.1 = .text field.1 ∧ ofValue e.2 = .ok field.2 := by
  unfold ofEntry at h
  split at h
  · next key hkey =>
    cases hvalue : ofValue e.2 with
    | error f =>
      rw [hvalue] at h
      cases h
    | ok t =>
      rw [hvalue] at h
      obtain rfl := Except.ok.inj h
      exact ⟨hkey, rfl⟩
  · cases h

/-- An entry is no field if its key is no text, or else if its value is no tree. -/
theorem ofEntry_eq_error {e : Value × Value} {f : TreeFault} (h : ofEntry e = .error f) :
    (Part.key e.1).offence? = some f ∨ (∃ t, e.1 = .text t) ∧ ofValue e.2 = .error f := by
  unfold ofEntry at h
  split at h
  · next key hkey =>
    cases hvalue : ofValue e.2 with
    | ok t =>
      rw [hvalue] at h
      cases h
    | error f' =>
      rw [hvalue] at h
      obtain rfl := Except.error.inj h
      exact .inr ⟨⟨key, hkey⟩, rfl⟩
  · next hkey =>
    obtain rfl := Except.error.inj h
    left
    unfold Part.offence?
    split <;> simp_all

/-! ### Values that are trees -/

/-- A list, a tuple or a mapping offends by what is in it only. -/
theorem all_of_children {x : Part} (hx : x.offence? = none)
    (h : ∀ c ∈ x.children, c.All fun y => ¬ y.Offends) : x.All fun y => ¬ y.Offends :=
  Part.all_iff.mpr ⟨by simp [Part.Offends, hx], h⟩

/-- There is no offence in a value that is a tree. -/
theorem all_of_ofValue {v : Value} {t : Tree} (h : ofValue v = .ok t) :
    (Part.value v).All fun y => ¬ y.Offends := by
  induction v using Value.nestedInduction generalizing t with
  | null | bool | int | float | text => exact all_of_children rfl (by simp [Part.children])
  | bytes | set => cases h
  | list items ih | tuple items ih =>
    obtain ⟨trees, htrees, -⟩ := exists_of_bind h
    rw [ofItems_eq_mapM] at htrees
    refine all_of_children rfl (Part.all_items_iff.mpr fun v hv => ?_)
    obtain ⟨t, ht⟩ := exists_of_mapM_eq_ok htrees v hv
    exact ih v hv ht
  | mapping entries ih =>
    obtain ⟨fields, hfields, -⟩ := exists_of_bind h
    rw [ofEntries_eq_mapM] at hfields
    refine all_of_children rfl (Part.all_entries_iff.mpr fun e he => ?_)
    obtain ⟨field, hfield⟩ := exists_of_mapM_eq_ok hfields e he
    obtain ⟨hkey, ht⟩ := ofEntry_eq_ok hfield
    exact ⟨hkey ▸ Part.not_offends_key_text _, ih e he ht⟩

theorem itemsToValue_of_forall₂ {items : List Value} {trees : List Tree}
    (h : List.Forall₂ (fun v t => ofValue v = .ok t) items trees)
    (ih : ∀ v ∈ items, ∀ t, ofValue v = .ok t → t.toValue = v.arrayed) :
    itemsToValue trees = Value.arrayedItems items := by
  induction h with
  | nil => rfl
  | cons hv _ hrest =>
    obtain ⟨hhead, htail⟩ := List.forall_mem_cons.mp ih
    rw [itemsToValue, Value.arrayedItems, hhead _ hv, hrest htail]

theorem fieldsToValue_of_forall₂ {entries : Entries} {fields : List (Text × Tree)}
    (h : List.Forall₂ (fun e field => ofEntry e = .ok field) entries fields)
    (ih : ∀ e ∈ entries, ∀ t, ofValue e.2 = .ok t → t.toValue = e.2.arrayed) :
    fieldsToValue fields = Value.arrayedEntries entries := by
  induction h with
  | nil => rfl
  | @cons e field entries fields he _ hrest =>
    obtain ⟨hhead, htail⟩ := List.forall_mem_cons.mp ih
    obtain ⟨hkey, hvalue⟩ := ofEntry_eq_ok he
    obtain ⟨k, v⟩ := e
    rw [fieldsToValue, Value.arrayedEntries, hhead _ hvalue, hrest htail, ← hkey]

/-- The tree of a value is the value with its tuples made lists. -/
theorem toValue_of_ofValue {v : Value} {t : Tree} (h : ofValue v = .ok t) :
    t.toValue = v.arrayed := by
  induction v using Value.nestedInduction generalizing t with
  | null | bool | int | float | text => exact Except.ok.inj h ▸ rfl
  | bytes | set => cases h
  | list items ih | tuple items ih =>
    obtain ⟨trees, htrees, ⟨⟩⟩ := exists_of_bind h
    rw [ofItems_eq_mapM, mapM_eq_ok_iff] at htrees
    exact congrArg Value.list (itemsToValue_of_forall₂ htrees fun v hv t => ih v hv)
  | mapping entries ih =>
    obtain ⟨fields, hfields, ⟨⟩⟩ := exists_of_bind h
    rw [ofEntries_eq_mapM, mapM_eq_ok_iff] at hfields
    exact congrArg Value.mapping (fieldsToValue_of_forall₂ hfields fun e he t => ih e he)

/-! ### Values that are no trees -/

/-- The first step of a sequence whose second step always succeeds has failed. -/
theorem eq_error_of_bind {α β : Type} {r : Except TreeFault α} {make : α → β} {f : TreeFault}
    (h : (do let a ← r; return make a) = .error f) : r = .error f := by
  cases r with
  | ok a => cases h
  | error f' =>
    cases h
    rfl

/-- The offence that is reported is the first. -/
theorem first_of_ofValue {v : Value} {f : TreeFault} (h : ofValue v = .error f) :
    ∃ y, (Part.value v).First Part.Offends y ∧ y.offence? = some f := by
  induction v using Value.nestedInduction generalizing f with
  | null | bool | int | float | text => cases h
  | bytes | set =>
    obtain rfl := Except.error.inj h
    exact ⟨_, Part.first_self ⟨_, rfl⟩, rfl⟩
  | list items ih | tuple items ih =>
    have hitems := eq_error_of_bind h
    rw [ofItems_eq_mapM] at hitems
    obtain ⟨before, v, after, rfl, hbefore, hv⟩ := exists_of_mapM_eq_error hitems
    obtain ⟨y, hy, hf⟩ := ih v (by simp) hv
    refine ⟨y, Part.first_of_child (by simp [Part.Offends, Part.offence?])
      (List.map_append ..) ?_ hy, hf⟩
    refine Part.all_items_iff.mpr fun w hw => ?_
    obtain ⟨t, ht⟩ := hbefore w hw
    exact all_of_ofValue ht
  | mapping entries ih =>
    have hentries := eq_error_of_bind h
    rw [ofEntries_eq_mapM] at hentries
    obtain ⟨before, e, after, rfl, hbefore, he⟩ := exists_of_mapM_eq_error hentries
    have hself : ¬ (Part.value (.mapping (before ++ e :: after))).Offends := by
      simp [Part.Offends, Part.offence?]
    have hclean : ∀ c ∈ before.flatMap Part.ofEntry, c.All fun y => ¬ y.Offends := by
      refine Part.all_entries_iff.mpr fun d hd => ?_
      obtain ⟨field, hfield⟩ := hbefore d hd
      obtain ⟨hkey, hvalue⟩ := ofEntry_eq_ok hfield
      exact ⟨hkey ▸ Part.not_offends_key_text _, all_of_ofValue hvalue⟩
    rcases ofEntry_eq_error he with hkey | ⟨⟨k, hk⟩, hvalue⟩
    · -- the key stands in front of what it leads to
      have hchildren : (Part.value (.mapping (before ++ e :: after))).children =
          before.flatMap Part.ofEntry ++ .key e.1 :: .value e.2 :: after.flatMap Part.ofEntry := by
        simp [Part.children, Part.ofEntry]
      exact ⟨_, Part.first_of_child hself hchildren hclean (Part.first_self ⟨f, hkey⟩), hkey⟩
    · have hchildren : (Part.value (.mapping (before ++ e :: after))).children =
          (before.flatMap Part.ofEntry ++ [.key e.1]) ++ .value e.2 ::
            after.flatMap Part.ofEntry := by
        simp [Part.children, Part.ofEntry]
      have hkey : (Part.key e.1).All fun y => ¬ y.Offends :=
        (Part.all_leaf_iff rfl).mpr (hk ▸ Part.not_offends_key_text k)
      obtain ⟨y, hy, hf⟩ := ih e (by simp) hvalue
      exact ⟨y, Part.first_of_child hself hchildren
        (List.forall_mem_append.mpr ⟨hclean, List.forall_mem_singleton.mpr hkey⟩) hy, hf⟩

end Tree

/-- A value is a tree exactly if no byte string and no set is a part of it and every key of every
mapping in it is a text. Its tree is then the value with its tuples made lists, and stands for
itself; otherwise the fault is that of the first part that offends. -/
theorem tree_of_value (v : Value) :
    ((∃ t, Tree.ofValue v = .ok t) ↔
      (Value.Part.value v).All fun y => (∀ b, y ≠ .value (.bytes b)) ∧
        (∀ items, y ≠ .value (.set items)) ∧ ∀ k, y = .key k → ∃ t, k = .text t) ∧
    (∀ t, Tree.ofValue v = .ok t → t.toValue = v.arrayed ∧ Tree.ofValue t.toValue = .ok t) ∧
    ∀ f, Tree.ofValue v = .error f ↔
      ∃ y, (Value.Part.value v).First Value.Part.Offends y ∧ y.offence? = some f := by
  simp only [← Value.Part.not_offends_iff]
  refine ⟨⟨fun ⟨t, ht⟩ => Tree.all_of_ofValue ht, fun hclean => ?_⟩,
    fun t ht => ⟨Tree.toValue_of_ofValue ht, t.ofValue_toValue⟩,
    fun f => ⟨Tree.first_of_ofValue, ?_⟩⟩
  · cases h : Tree.ofValue v with
    | ok t => exact ⟨t, rfl⟩
    | error f =>
      obtain ⟨y, hy, -⟩ := Tree.first_of_ofValue h
      exact absurd hclean hy.not_all
  · rintro ⟨y, hy, hf⟩
    cases h : Tree.ofValue v with
    | ok t => exact absurd (Tree.all_of_ofValue h) hy.not_all
    | error f' =>
      obtain ⟨z, hz, hf'⟩ := Tree.first_of_ofValue h
      rw [hy.unique hz, hf'] at hf
      rw [Option.some.inj hf]

/-- A mapping with a tuple in a list, and one in which a set stands in front of a key that is no
text. -/
theorem nested_tuple_is_tree :
    (∃ t, Tree.ofValue (.mapping [(.text "a", .list [.tuple [.int 1, .null]])]) = .ok t ∧
      t.toValue = .mapping [(.text "a", .list [.list [.int 1, .null]])]) ∧
    ∃ y, (Value.Part.value
        (.mapping [(.text "a", .tuple [.null, .set []]), (.int 1, .bytes [])])).First
      Value.Part.Offends y ∧ y.offence? = some (.value "set") := by
  obtain ⟨t, ht⟩ : ∃ t, Tree.ofValue (.mapping [(.text "a", .list [.tuple [.int 1, .null]])]) =
    .ok t := ⟨_, rfl⟩
  refine ⟨⟨t, ht, ?_⟩, ?_⟩
  · exact ((tree_of_value _).2.1 t ht).1
  · exact ((tree_of_value _).2.2 (.value "set")).mp rfl

end ParserClient
