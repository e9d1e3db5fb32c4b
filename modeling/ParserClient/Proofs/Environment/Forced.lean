import ParserClient.Environment.File
import ParserClient.Proofs.Text.Words

/-!
# A forced override hides the variables of the process

An environment goes through changes in any order: variables of the process are set and unset, the
environment file is written, and bindings are taken from the file or from a table. Where the
bindings in force come from depends on the file and the tables alone: it is the table or the text of
the file at the latest reload. Where these bindings say that the override is forced, nothing that is
looked up depends on the variables of the process, neither on those that were set from outside nor
on those that reloads have left behind.

Whatever reads the file may look at the variables as well. What is asked of it is that it does not
do so for the text of the latest reload; nothing is asked of how it loads a file, which may fail.

## Main definitions

* `Environment.Change`, `Environment.run` — changes one after the other.
* `Source`, `Source.latest` — where the bindings in force come from.
* `Source.Gives` — what they are, whatever the variables are.
* `Environment.Answers` — all that is looked up is what the bindings say.

## Main results

* `Bindings.forcesOverride_iff` — bindings that force the override.
* `Environment.bindings_run` — the bindings in force after changes.
* `forced_override_hides_process` — two runs that share file and tables.
-/

namespace ParserClient

/-! ### Bindings -/

namespace Bindings

/-- The bindings force the override: they give the name a value that says so. -/
def Forces (bindings : Bindings) : Prop :=
  ∃ value, bindings.value? forceName = some value ∧ value.Says "true"

theorem forcesOverride_iff (bindings : Bindings) :
    bindings.forcesOverride = true ↔ bindings.Forces := by
  rw [forcesOverride, Forces, decide_eq_true_iff, Text.lower_trim_eq_iff (by decide)]
  cases hvalue : bindings.value? forceName with
  | some value => simp
  | none =>
    have hempty : ¬ Text.Says [] "true" := by
      rw [← Text.lower_trim_eq_iff (by decide)]
      decide
    simpa using hempty

end Bindings

namespace Environment

/-! ### Changes -/

/-- What happens to an environment. -/
inductive Change where
  | setVariable (name value : Text)
  | unsetVariable (name : Text)
  | writeFile (text : Text)
  | reload
  | adopt (bindings : Bindings)
  deriving DecidableEq, Repr

/-- The environment after a change. -/
def Change.apply (r : EnvironmentReader) (e : Environment) : Change → Environment
  | .setVariable name value => e.setVariable name value
  | .unsetVariable name => e.unsetVariable name
  | .writeFile text => e.writeFile text
  | .reload => (e.reload r).2
  | .adopt bindings => e.adopt bindings

/-- The environment after changes one after the other. -/
def run (r : EnvironmentReader) (e : Environment) (changes : List Change) : Environment :=
  changes.foldl (Change.apply r) e

/-- The change is one of the file or of the bindings in force, not one of a variable. -/
def Change.isShared : Change → Bool
  | .setVariable _ _ | .unsetVariable _ => false
  | .writeFile _ | .reload | .adopt _ => true

end Environment

/-- Where bindings come from: a table, or the text of the environment file, if there is one. -/
inductive Source where
  | table (bindings : Bindings)
  | file (text : Option Text)

namespace Source

/-- The source that the latest reload has taken: the file as it was written last before the reload,
or the table that was taken in its place. -/
def latest (file : Option Text) (source : Source) : List Environment.Change → Source
  | [] => source
  | .writeFile text :: rest => latest (some text) source rest
  | .reload :: rest => latest file (.file file) rest
  | .adopt bindings :: rest => latest file (.table bindings) rest
  | _ :: rest => latest file source rest

/-- The bindings of a source where the process has the given variables. -/
def bindings (r : EnvironmentReader) (vars : Variables) : Source → Bindings
  | .table bindings => bindings
  | .file none => []
  | .file (some text) => r.values vars text

/-- The source gives the bindings, whatever variables the process has. -/
def Gives (r : EnvironmentReader) (source : Source) (m : Bindings) : Prop :=
  ∀ vars, source.bindings r vars = m

/-- A change of a variable has no part in the source of the latest reload. -/
theorem latest_filter (file : Option Text) (source : Source) (changes : List Environment.Change) :
    latest file source (changes.filter Environment.Change.isShared) =
      latest file source changes := by
  induction changes generalizing file source with
  | nil => rfl
  | cons c changes ih =>
    cases c with
    | setVariable name value | unsetVariable name => exact ih file source
    | writeFile text => exact ih (some text) source
    | reload => exact ih file (.file file)
    | adopt table => exact ih file (.table table)

end Source

namespace Environment

variable {r : EnvironmentReader} {e : Environment} {changes : List Change} {m : Bindings}

theorem bindings_reload (r : EnvironmentReader) (e : Environment) :
    (e.reload r).2.bindings = (Source.file e.file).bindings r e.process := by
  unfold reload
  split
  · next hfile => rw [hfile]; rfl
  · next text hfile => rw [hfile]; rfl

theorem file_reload (r : EnvironmentReader) (e : Environment) :
    (e.reload r).2.file = e.file := by
  unfold reload
  split <;> rfl

/-- The bindings in force come from the source of the latest reload, read under variables that the
process had then. -/
theorem bindings_run_of_source {source : Source} {vars : Variables}
    (h : e.bindings = source.bindings r vars) (changes : List Change) :
    ∃ vars, (e.run r changes).bindings = (Source.latest e.file source changes).bindings r vars := by
  induction changes generalizing e source vars with
  | nil => exact ⟨vars, h⟩
  | cons c changes ih =>
    have hrun : e.run r (c :: changes) = (c.apply r e).run r changes := rfl
    rw [hrun]
    cases c with
    | setVariable name value | unsetVariable name | writeFile text => exact ih h
    | adopt table => exact @ih (e.adopt table) (.table table) [] rfl
    | reload =>
      have hfile := file_reload r e
      have hstep := @ih (e.reload r).2 (.file e.file) e.process (bindings_reload r e)
      rwa [hfile] at hstep

/-- The bindings in force are those of the latest reload, whatever the variables of the process. -/
theorem bindings_run (h : (Source.latest e.file (.table e.bindings) changes).Gives r m) :
    (e.run r changes).bindings = m := by
  obtain ⟨vars, hvars⟩ := @bindings_run_of_source r e (.table e.bindings) [] rfl changes
  rw [hvars, h vars]

/-! ### What is looked up -/

/-- All that is looked up in the environment is what the bindings say: a name has its value in the
bindings, or else the value that stands in for it, and settings and client are those of the
values of their three names. -/
structure Answers (e : Environment) (m : Bindings) : Prop where
  get? : ∀ (name : Text) (fallback : Option Text),
    (e.get? name).or fallback = (m.value? name).or fallback
  settings : ∀ number?, e.settings number? =
    Settings.ofFields number? ((m.value? binaryName).map .text)
      ((m.value? encodingName).map .text) ((m.value? deadlineName).map .text)
  client : ∀ number?, e.client number? =
    (Settings.ofFields number? ((m.value? binaryName).map .text)
      ((m.value? encodingName).map .text) ((m.value? deadlineName).map .text)).map
        Client.ofSettings

/-- Where the override is forced, the variables of the process are not looked at. -/
theorem answers_of_forced (h : e.bindings.forcesOverride = true) : e.Answers e.bindings := by
  have hget : ∀ name, e.get? name = e.bindings.value? name := fun name => if_pos h
  have hsettings (number? : Text → Option Double) : e.settings number? =
      Settings.ofFields number? ((e.bindings.value? binaryName).map .text)
        ((e.bindings.value? encodingName).map .text)
        ((e.bindings.value? deadlineName).map .text) := by
    rw [settings, hget, hget, hget]
  exact ⟨fun name fallback => by rw [hget], hsettings,
    fun number? => by rw [client, hsettings number?]⟩

end Environment

/-- Two environments with the same file and bindings go through changes that differ in variables of
the process only. If the source of the latest reload gives bindings under which the name of the
override has a value that says `true`, all that is looked up afterwards is what these bindings say,
in both. -/
theorem forced_override_hides_process {r : EnvironmentReader} {e e' : Environment}
    (hfile : e.file = e'.file) (hbindings : e.bindings = e'.bindings)
    {changes changes' : List Environment.Change}
    (hshared : changes.filter Environment.Change.isShared =
      changes'.filter Environment.Change.isShared)
    {m : Bindings} (hm : (Source.latest e.file (.table e.bindings) changes).Gives r m)
    {value : Text} (hvalue : m.value? Bindings.forceName = some value)
    (htrue : value.Says "true") :
    (e.run r changes).Answers m ∧ (e'.run r changes').Answers m := by
  have hm' : (Source.latest e'.file (.table e'.bindings) changes').Gives r m := by
    rwa [← hfile, ← hbindings, ← Source.latest_filter, ← hshared, Source.latest_filter]
  have hforced := m.forcesOverride_iff.mpr ⟨value, hvalue, htrue⟩
  constructor
  · rw [← Environment.bindings_run hm] at hforced ⊢
    exact Environment.answers_of_forced hforced
  · rw [← Environment.bindings_run hm'] at hforced ⊢
    exact Environment.answers_of_forced hforced

/-- A file that forces the override and gives one name a value and another none. -/
def Environment.forcingFile : Text :=
  "NATIVE_DRIVER_FORCE_ENV_OVERRIDE=' True\t'\nNATIVE_DRIVER_BIN=/inside\nNATIVE_DRIVER_TIMEOUT\n"

/-- The bindings of this file. -/
def Environment.forcingBindings : Bindings :=
  [("NATIVE_DRIVER_FORCE_ENV_OVERRIDE", some " True\t"), ("NATIVE_DRIVER_BIN", some "/inside"),
    ("NATIVE_DRIVER_TIMEOUT", none)]

/-- Changes before and after this file is loaded. -/
def Environment.oneHistory : List Environment.Change :=
  [.setVariable "NATIVE_DRIVER_BIN" "/outside", .writeFile forcingFile, .reload,
    .setVariable "NATIVE_DRIVER_ENCODING" "base64", .setVariable "NATIVE_DRIVER_TIMEOUT" "5"]

/-- Other changes before the same file is loaded. -/
def Environment.otherHistory : List Environment.Change :=
  [.writeFile forcingFile, .setVariable "NATIVE_DRIVER_FORCE_ENV_OVERRIDE" "false",
    .unsetVariable "NATIVE_DRIVER_BIN", .reload]

theorem histories_hide_process :
    Environment.oneHistory.filter Environment.Change.isShared =
      Environment.otherHistory.filter Environment.Change.isShared ∧
    (Source.latest none (.table []) Environment.oneHistory).Gives .plain
      Environment.forcingBindings ∧
    Environment.forcingBindings.value? Bindings.forceName = some " True\t" ∧
    Text.Says " True\t" "true" ∧
    (Environment.empty.run .plain Environment.oneHistory).Answers Environment.forcingBindings ∧
    (Environment.run .plain ⟨[("NATIVE_DRIVER_ENCODING", "latin1")], none, []⟩
      Environment.otherHistory).Answers Environment.forcingBindings := by
  have hshared : Environment.oneHistory.filter Environment.Change.isShared =
      Environment.otherHistory.filter Environment.Change.isShared := by decide
  have htrue : Text.Says " True\t" "true" := ⟨" ", "True", "\t", rfl, rfl, rfl, by decide⟩
  have hvalue : Environment.forcingBindings.value? Bindings.forceName = some " True\t" := by decide
  have hread : Table.collect (EnvironmentFile.read Environment.forcingFile) =
      Environment.forcingBindings := by
    decide +kernel
  have hgives : (Source.latest none (.table []) Environment.oneHistory).Gives .plain
      Environment.forcingBindings := fun vars => hread
  exact ⟨hshared, hgives, hvalue, htrue, @forced_override_hides_process .plain .empty
    ⟨[("NATIVE_DRIVER_ENCODING", "latin1")], none, []⟩ rfl rfl _ _ hshared _ hgives _ hvalue htrue⟩

end ParserClient
