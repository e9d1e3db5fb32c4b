import ParserClient.Environment.Table
import ParserClient.Session.State
import ParserClient.Text.Lowercase

/-!
# Environments

Settings are looked up by name. A name is looked up among the variables of the process or, if the
override is forced, among the bindings of the environment file alone. A reload reads the file anew
and loads it into the variables of the process, where its bindings stay; a variable that is set
already prevails over the file, unless the override is forced. A table of bindings can be adopted
in place of the file; it is not loaded.

What reads a file and loads it is not defined here but is a parameter, and so is the reading of a
number.

## Main definitions

* `EnvironmentReader` — what reads environment files.
* `Environment`, `Environment.get?`.
* `Bindings.value?`, `Bindings.forcesOverride` — what the bindings of a file say.
* `Environment.adopt`, `Environment.reload`.
* `Environment.settings`, `Environment.client` — what is configured.
-/

namespace ParserClient

/-- A name and possibly a value. -/
abbrev Binding := Text × Option Text

/-- The bindings of an environment file. A name may be without a value. -/
abbrev Bindings := Table (Option Text)

/-- The variables of a process. -/
abbrev Variables := Table Text

/-- What reads environment files. The bindings of a file may hang on the variables of the process,
and so may what the variables are when the file has been loaded; whether the override is forced is
told to the loader. Loading may fail on its way. -/
structure EnvironmentReader where
  values (vars : Variables) (text : Text) : Bindings
  load (vars : Variables) (text : Text) (forced : Bool) : Except Fault Unit × Variables

namespace Bindings

/-- The name whose value forces the override. -/
def forceName : Text := "NATIVE_DRIVER_FORCE_ENV_OVERRIDE"

/-- The value of a name; a name without a value counts as absent. -/
def value? (bindings : Bindings) (name : Text) : Option Text := (bindings.get? name).join

/-- The bindings force the override: the value says `true`, in any case of letters and with any
blanks around it. -/
def forcesOverride (bindings : Bindings) : Bool :=
  (((bindings.value? forceName).getD []).trim CodePoint.isBlank).lower = Text.ofString "true"

end Bindings

/-- The variables of the process, the text of the environment file if there is one, and the
bindings in force. -/
structure Environment where
  process : Variables
  file : Option Text
  bindings : Bindings
  deriving DecidableEq, Repr

namespace Environment

/-- An environment in which nothing is set. -/
def empty : Environment := ⟨[], none, []⟩

/-- Sets a variable of the process. -/
def setVariable (e : Environment) (name value : Text) : Environment :=
  { e with process := e.process.put name value }

/-- Unsets a variable of the process. -/
def unsetVariable (e : Environment) (name : Text) : Environment :=
  { e with process := e.process.erase name }

/-- Writes the environment file. -/
def writeFile (e : Environment) (text : Text) : Environment := { e with file := some text }

/-- Takes a table of bindings in place of the file. -/
def adopt (e : Environment) (bindings : Bindings) : Environment := { e with bindings := bindings }

/-- Reads the file and loads it. The bindings are in force even if loading fails. Without a file
there are none. -/
def reload (r : EnvironmentReader) (e : Environment) : Except Fault Unit × Environment :=
  match e.file with
  | none => (.ok (), e.adopt [])
  | some text =>
    let bindings := r.values e.process text
    let loaded := r.load e.process text bindings.forcesOverride
    (loaded.1, { e.adopt bindings with process := loaded.2 })

/-- What is found under a name. -/
def get? (e : Environment) (name : Text) : Option Text :=
  if e.bindings.forcesOverride then e.bindings.value? name else e.process.get? name

/-! ### Configuration -/

/-- The name of the command. -/
def binaryName : Text := "NATIVE_DRIVER_BIN"

/-- The name of the tag of the encoding. -/
def encodingName : Text := "NATIVE_DRIVER_ENCODING"

/-- The name of the deadline. -/
def deadlineName : Text := "NATIVE_DRIVER_TIMEOUT"

/-- The settings that an environment gives, with a reading of numbers. -/
def settings (number? : Text → Option Double) (e : Environment) :
    Except (List Issue) Settings :=
  Settings.ofFields number? ((e.get? binaryName).map .text) ((e.get? encodingName).map .text)
    ((e.get? deadlineName).map .text)

/-- The client that an environment configures. -/
def client (number? : Text → Option Double) (e : Environment) : Except (List Issue) Client :=
  (e.settings number?).map Client.ofSettings

end Environment

end ParserClient
