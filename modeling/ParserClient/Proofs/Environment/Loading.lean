import Mathlib.Data.List.Induction
import Mathlib.Data.List.Nodup
import ParserClient.Proofs.Environment.Forced

/-!
# What a reload makes of the variables of the process

A reload takes the bindings of the environment file, of which the last one of a name prevails, and
loads those that have a value into the variables of the process. A variable that is set prevails
over the file or gives way to it, as the file itself says; no variable is lost, and none changes for
which the file has no value. Since a name occurs at most once among the bindings that are loaded,
their order has no part in this, and a second reload finds everything as the first has left it.

What reads the file is arbitrary. It is assumed that for this file and the variables of the process
it does what it is documented to do: the bindings are those of the entries of the file, and loading
goes through them and sets variables one after the other. A file with an entry that the process does
not take is not loaded so. Where names in the values of a file are replaced by variables, the
entries hang on these, and that a second reload finds the same entries is assumed too.

## Main definitions

* `Table.Prevails` — the last entry of a name in a list.
* `Variables.load`, `EnvironmentReader.Follows` — what is assumed of the reader of a file.
* `Environment.Loads` — the variables, and what is looked up, when bindings have been loaded.

## Main results

* `Table.get?_collect`, `Table.nodup_collect` — the table of a list of entries.
* `Variables.get?_load`, `Variables.load_load` — loading, and loading again.
* `EnvironmentReader.plain_follows` — a reader of which this is so.
* `reload_loads` — what a reload makes of an environment.
-/

namespace ParserClient

/-! ### Tables of lists -/

namespace Table

variable {α : Type}

/-- The last entry of the list with the name is that of the thing. -/
def Prevails (entries : List (Text × α)) (name : Text) (a : α) : Prop :=
  ∃ before after, entries = before ++ (name, a) :: after ∧ ∀ e ∈ after, e.1 ≠ name

theorem prevails_concat {entries : List (Text × α)} {e : Text × α} {name : Text} {a : α} :
    Prevails (entries ++ [e]) name a ↔
      if e.1 = name then e.2 = a else Prevails entries name a := by
  constructor
  · rintro ⟨before, after, hentries, hafter⟩
    rcases List.eq_nil_or_concat' after with rfl | ⟨after, last, rfl⟩
    · obtain ⟨-, hlast⟩ := List.append_inj' hentries rfl
      obtain rfl := List.singleton_inj.mp hlast
      rw [if_pos rfl]
    · rw [← List.cons_append, ← List.append_assoc] at hentries
      obtain ⟨rfl, hlast⟩ := List.append_inj' hentries rfl
      obtain rfl := List.singleton_inj.mp hlast
      rw [if_neg (hafter e (List.mem_append_right _ (List.mem_singleton_self e)))]
      exact ⟨before, after, rfl, fun d hd => hafter d (List.mem_append_left _ hd)⟩
  · split
    · next hname =>
      rintro rfl
      exact ⟨entries, [], by rw [← hname], nofun⟩
    · next hname =>
      rintro ⟨before, after, rfl, hafter⟩
      refine ⟨before, after ++ [e], by rw [List.append_assoc, List.cons_append], ?_⟩
      exact List.forall_mem_append.mpr ⟨hafter, List.forall_mem_singleton.mpr hname⟩

theorem collect_concat (entries : List (Text × α)) (e : Text × α) :
    collect (entries ++ [e]) = (collect entries).put e.1 e.2 :=
  List.foldl_concat _ _ _ _

/-- What stands under a name in the table of a list is the last thing that the list has for it. -/
theorem get?_collect {entries : List (Text × α)} {name : Text} {a : α} :
    (collect entries).get? name = some a ↔ Prevails entries name a := by
  induction entries using List.reverseRecOn with
  | nil => simp [collect, Prevails]
  | append_singleton entries e ih =>
    rw [collect_concat, get?_put, prevails_concat]
    split
    · exact Option.some_inj
    · exact ih

theorem names_put (table : Table α) (name : Text) (a : α) :
    (table.put name a).map Prod.fst =
      if name ∈ table.map Prod.fst then table.map Prod.fst else table.map Prod.fst ++ [name] := by
  induction table with
  | nil => rfl
  | cons e rest ih =>
    obtain ⟨n, b⟩ := e
    by_cases hname : n = name
    · simp [put, hname]
    · have hne : name ≠ n := Ne.symm hname
      simp only [put, if_neg hname, List.map_cons, ih, List.mem_cons, hne, false_or]
      split <;> rfl

/-- A name occurs at most once in the table of a list. -/
theorem nodup_collect (entries : List (Text × α)) : ((collect entries).map Prod.fst).Nodup := by
  induction entries using List.reverseRecOn with
  | nil => exact List.nodup_nil
  | append_singleton entries e ih =>
    rw [collect_concat, names_put]
    split
    · exact ih
    · next hnew => exact List.concat_eq_append ▸ List.Nodup.concat hnew ih

/-- To put under a name what stands there changes nothing. -/
theorem put_of_get? {table : Table α} {name : Text} {a : α} (h : table.get? name = some a) :
    table.put name a = table := by
  induction table with
  | nil => cases h
  | cons e rest ih =>
    obtain ⟨n, b⟩ := e
    rw [get?] at h
    rw [put]
    split at h
    · next hname => rw [if_pos hname, Option.some.inj h]
    · next hname => rw [if_neg hname, ih h]

end Table

/-! ### Loading -/

namespace Bindings

variable {name : Text} {value : Option Text} {rest : Bindings}

theorem value?_cons (name other : Text) (value : Option Text) (rest : Bindings) :
    value? ((name, value) :: rest) other = if name = other then value else value? rest other := by
  rw [value?, Table.get?]
  split <;> rfl

theorem value?_of_notMem (h : name ∉ rest.map Prod.fst) : value? rest name = none := by
  induction rest with
  | nil => rfl
  | cons e rest ih =>
    obtain ⟨hne, hrest⟩ := not_or.mp (List.mem_cons.not.mp h)
    rw [value?_cons, if_neg (Ne.symm hne), ih hrest]

theorem value?_of_mem (hnodup : (rest.map Prod.fst).Nodup) (h : (name, value) ∈ rest) :
    value? rest name = value := by
  induction rest with
  | nil => cases h
  | cons e rest ih =>
    obtain ⟨n, v⟩ := e
    obtain ⟨hnew, hrest⟩ := List.nodup_cons.mp hnodup
    rw [value?_cons]
    rcases List.mem_cons.mp h with heq | hmem
    · rw [Prod.mk.injEq] at heq
      rw [if_pos heq.1.symm, heq.2]
    · have hne : n ≠ name := by
        rintro rfl
        exact hnew (List.mem_map.mpr ⟨_, hmem, rfl⟩)
      rw [if_neg hne, ih hrest hmem]

end Bindings

namespace Variables

/-- Sets the variables of bindings one after the other. A binding without a value sets none; one of
a variable that is set already sets it only if the override is forced. -/
def load (vars : Variables) (forced : Bool) : Bindings → Variables
  | [] => vars
  | (_, none) :: rest => load vars forced rest
  | (name, some value) :: rest =>
    if (vars.get? name).isSome && !forced then load vars forced rest
    else load (vars.put name value) forced rest

/-- What stands under a name when bindings have been loaded: a variable that was set before, or the
value that the bindings have for it; the bindings come first if the override is forced. -/
theorem get?_load {bindings : Bindings} (hnodup : (bindings.map Prod.fst).Nodup) (vars : Variables)
    (forced : Bool) (name : Text) :
    (vars.load forced bindings).get? name =
      if forced then (bindings.value? name).or (vars.get? name)
      else (vars.get? name).or (bindings.value? name) := by
  induction bindings generalizing vars with
  | nil => cases forced <;> simp [load, Bindings.value?]
  | cons e rest ih =>
    obtain ⟨n, value⟩ := e
    obtain ⟨hnew, hrest⟩ := List.nodup_cons.mp hnodup
    have hn : Bindings.value? rest n = none := Bindings.value?_of_notMem hnew
    rw [Bindings.value?_cons]
    cases value with
    | none =>
      rw [load, ih hrest]
      by_cases hname : n = name
      · rw [if_pos hname, ← hname, hn]
      · rw [if_neg hname]
    | some value =>
      rw [load]
      split
      · next hset =>
        rw [Bool.and_eq_true, Bool.not_eq_true'] at hset
        rw [ih hrest, hset.2]
        by_cases hname : n = name
        · subst hname
          obtain ⟨old, hold⟩ := Option.isSome_iff_exists.mp hset.1
          simp [hold]
        · simp [hname]
      · next hset =>
        rw [ih hrest, Table.get?_put]
        by_cases hname : n = name
        · subst hname
          cases hold : vars.get? n <;> cases forced <;> simp_all
        · simp [hname]

/-- Bindings are loaded already if each that has a value is that of its variable, or if its variable
is set and the override is not forced. -/
theorem load_eq_self {vars : Variables} {forced : Bool} {bindings : Bindings}
    (h : ∀ name value, (name, some value) ∈ bindings →
      vars.get? name = some value ∨ (vars.get? name).isSome = true ∧ forced = false) :
    vars.load forced bindings = vars := by
  induction bindings with
  | nil => rfl
  | cons e rest ih =>
    obtain ⟨n, value⟩ := e
    have hrest := ih fun name value hmem => h name value (List.mem_cons_of_mem _ hmem)
    cases value with
    | none => exact hrest
    | some value =>
      rw [load]
      split
      · exact hrest
      · next hset =>
        rcases h n value List.mem_cons_self with hvalue | ⟨hsome, hforced⟩
        · rw [Table.put_of_get? hvalue, hrest]
        · exact absurd (by rw [hsome, hforced]; rfl) hset

/-- Bindings are all loaded if each that has a value can be a variable. -/
theorem loadAll_eq_load {bindings : Bindings}
    (h : ∀ b ∈ bindings, ∀ value ∈ b.2, refusal? b.1 value = none) (vars : Variables)
    (forced : Bool) :
    vars.loadAll forced bindings = (.ok (), vars.load forced bindings) := by
  induction bindings generalizing vars with
  | nil => rfl
  | cons e rest ih =>
    obtain ⟨n, value⟩ := e
    obtain ⟨hfirst, hrest⟩ := List.forall_mem_cons.mp h
    have hrest := ih hrest
    cases value with
    | none => rw [loadAll, load, hrest]
    | some value =>
      rw [loadAll, load, hfirst value rfl]
      split
      · exact hrest vars
      · exact hrest _

/-- To load the same bindings again changes nothing. -/
theorem load_load {bindings : Bindings} (hnodup : (bindings.map Prod.fst).Nodup) (vars : Variables)
    (forced : Bool) :
    (vars.load forced bindings).load forced bindings = vars.load forced bindings := by
  refine load_eq_self fun name value hmem => ?_
  rw [get?_load hnodup, Bindings.value?_of_mem hnodup hmem]
  cases forced with
  | true => exact .inl rfl
  | false => exact .inr ⟨by cases vars.get? name <;> rfl, rfl⟩

end Variables

namespace EnvironmentReader

/-- Where the process has the given variables, the reader follows the entries of a text: its
bindings are those of the entries, the last one of a name prevailing, and to load it is to load
these bindings. -/
structure Follows (r : EnvironmentReader) (vars : Variables) (text : Text)
    (entries : List Binding) : Prop where
  values : r.values vars text = Table.collect entries
  load : ∀ forced, r.load vars text forced = (.ok (), vars.load forced (Table.collect entries))

/-- The reader of files of simple lines follows the entries of a file if all of them can be
variables, whatever variables there are. -/
theorem plain_follows {text : Text}
    (h : ∀ b ∈ Table.collect (EnvironmentFile.read text), ∀ value ∈ b.2,
      Variables.refusal? b.1 value = none) (vars : Variables) :
    plain.Follows vars text (EnvironmentFile.read text) :=
  ⟨rfl, Variables.loadAll_eq_load h vars⟩

end EnvironmentReader

/-! ### Reloads -/

namespace Environment

/-- The bindings have been loaded into the environment `e`, and `e'` is what it has become. If they
do not force the override, a variable that was set is left, any other has the value that they have
for its name, and what is looked up is looked up among the variables. If they do, they come before
the variables that were set, and what is looked up is looked up among them. Either way no variable
is lost, and one for which they have no value is left. -/
structure Loads (e : Environment) (m : Bindings) (e' : Environment) : Prop where
  added : ¬ m.Forces →
    ∀ name, e'.process.get? name = (e.process.get? name).or (m.value? name)
  overwritten : m.Forces →
    ∀ name, e'.process.get? name = (m.value? name).or (e.process.get? name)
  kept : ∀ name, (e.process.get? name).isSome = true → (e'.process.get? name).isSome = true
  outside : ∀ name, m.value? name = none → e'.process.get? name = e.process.get? name
  lookup : ¬ m.Forces →
    ∀ name fallback, (e'.get? name).or fallback = (e'.process.get? name).or fallback
  lookup_forced : m.Forces →
    ∀ name fallback, (e'.get? name).or fallback = (m.value? name).or fallback

theorem loads_load (e : Environment) {m : Bindings} (hnodup : (m.map Prod.fst).Nodup) :
    e.Loads m { e.adopt m with process := e.process.load m.forcesOverride m } := by
  have hget := Variables.get?_load hnodup e.process m.forcesOverride
  have hforced : m.Forces → m.forcesOverride = true := m.forcesOverride_iff.mpr
  have hleft : ¬ m.Forces → m.forcesOverride = false := fun h =>
    Bool.eq_false_iff.mpr (mt m.forcesOverride_iff.mp h)
  constructor
  · intro h name
    rw [hget, hleft h, if_neg Bool.false_ne_true]
  · intro h name
    rw [hget, if_pos (hforced h)]
  · intro name hset
    obtain ⟨value, hvalue⟩ := Option.isSome_iff_exists.mp hset
    rw [hget, hvalue]
    cases m.forcesOverride <;> cases m.value? name <;> rfl
  · intro name hnone
    rw [hget, hnone, Option.none_or, Option.or_none, ite_self]
  · intro h name fallback
    rw [get?, adopt, hleft h, if_neg Bool.false_ne_true]
  · intro h name fallback
    rw [get?, adopt, if_pos (hforced h)]

variable {r : EnvironmentReader} {e : Environment} {text : Text} {entries : List Binding}

/-- A reload of a file loads its bindings. -/
theorem reload_of_follows (h : e.file = some text) (hr : r.Follows e.process text entries) :
    e.reload r = (.ok (), { e.adopt (Table.collect entries) with
      process := e.process.load (Bindings.forcesOverride (Table.collect entries))
        (Table.collect entries) }) := by
  simp only [reload, h, hr.values, hr.load]

theorem reload_of_no_file (h : e.file = none) : e.reload r = (.ok (), e.adopt []) := by
  simp only [reload, h]

/-- A second reload that finds the same entries leaves everything as the first has left it. -/
theorem reload_reload (h : e.file = some text) (hr : r.Follows e.process text entries)
    (hagain : r.Follows (e.reload r).2.process text entries) :
    (e.reload r).2.reload r = (.ok (), (e.reload r).2) := by
  have hfile : (e.reload r).2.file = some text := (file_reload r e).trans h
  have hnodup : ((Table.collect entries).map Prod.fst).Nodup := Table.nodup_collect entries
  rw [reload_of_follows hfile hagain, reload_of_follows h hr]
  generalize (Table.collect entries : Bindings) = m at hnodup ⊢
  simp only [adopt, Variables.load_load hnodup]

end Environment

/-- A reload of a file whose entries the reader follows loads the bindings of the file, of which the
last one of each name prevails. A second one changes nothing, if the reader still follows these
entries. Without a file, or with a table of bindings in its place, the variables of the process are
left. -/
theorem reload_loads (r : EnvironmentReader) (e : Environment) :
    (∀ text entries, e.file = some text → r.Follows e.process text entries → ∃ m : Bindings,
      (∀ name value, m.get? name = some value ↔ Table.Prevails entries name value) ∧
      (e.reload r).1 = .ok () ∧ e.Loads m (e.reload r).2 ∧
      (r.Follows (e.reload r).2.process text entries →
        (e.reload r).2.reload r = (.ok (), (e.reload r).2))) ∧
    (e.file = none → (e.reload r).2.process = e.process) ∧
    ∀ table, (e.adopt table).process = e.process := by
  refine ⟨fun text entries hfile hr => ⟨Table.collect entries, fun name value =>
    Table.get?_collect, ?_, ?_, Environment.reload_reload hfile hr⟩, fun hfile => ?_,
    fun table => rfl⟩
  · rw [Environment.reload_of_follows hfile hr]
  · rw [Environment.reload_of_follows hfile hr]
    exact e.loads_load (Table.nodup_collect entries)
  · rw [Environment.reload_of_no_file hfile]
    rfl

/-- A file that binds one name twice and another without a value, beside a variable that is set. -/
def Environment.doubling : Environment where
  process := [("PATH", "/bin")]
  file := some "PATH=/usr\nA=1\nB\nA=2\n"
  bindings := [("A", some "0")]

/-- The entries of this file. -/
def Environment.doublingEntries : List Binding :=
  [("PATH", some "/usr"), ("A", some "1"), ("B", none), ("A", some "2")]

theorem doubling_loaded :
    (∀ vars, EnvironmentReader.plain.Follows vars "PATH=/usr\nA=1\nB\nA=2\n"
      Environment.doublingEntries) ∧
    ∃ m : Bindings, m.get? "A" = some (some ("2" : Text)) ∧ m.get? "B" = some none ∧
      Environment.doubling.Loads m (Environment.doubling.reload .plain).2 ∧
      (Environment.doubling.reload .plain).2.process =
        ([("PATH", "/bin"), ("A", "2")] : Variables) ∧
      (Environment.doubling.reload .plain).2.reload .plain =
        (.ok (), (Environment.doubling.reload .plain).2) := by
  have hread : EnvironmentFile.read "PATH=/usr\nA=1\nB\nA=2\n" =
      Environment.doublingEntries := by
    decide +kernel
  have hfollows (vars : Variables) : EnvironmentReader.plain.Follows vars
      "PATH=/usr\nA=1\nB\nA=2\n" Environment.doublingEntries := by
    rw [← hread]
    refine EnvironmentReader.plain_follows ?_ vars
    rw [hread]
    decide
  obtain ⟨m, hm, -, hloads, htwice⟩ :=
    (reload_loads .plain Environment.doubling).1 _ _ rfl (hfollows _)
  refine ⟨hfollows, m,
    (hm _ _).mpr ⟨[("PATH", some "/usr"), ("A", some "1"), ("B", none)], [], rfl, nofun⟩,
    (hm _ _).mpr ⟨[("PATH", some "/usr"), ("A", some "1")], [("A", some "2")], rfl, ?_⟩,
    hloads, ?_, htwice (hfollows _)⟩
  · decide
  · decide +kernel

end ParserClient
