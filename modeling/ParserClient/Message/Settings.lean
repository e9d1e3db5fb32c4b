import ParserClient.ContentEncoding
import ParserClient.Message.Issue
import ParserClient.Number.Reading

/-!
# Settings

What a client is configured with: the command that it runs, the encoding of content, and a
deadline in seconds for requests that bring none. Blank texts count as not given. The deadline is
a number greater than zero, infinity included. How a number is read off a text is left open.

## Main definitions

* `Settings`, `Settings.ofValue`, `Settings.standardBinary`.
* `Settings.readNumber` — the number that a value is.
-/

namespace ParserClient

/-- What a client is configured with. -/
structure Settings where
  binary : Text
  encoding : ContentEncoding
  deadline : Option Double
  deriving DecidableEq, Repr

namespace Settings

/-- The command that is run where none is given. -/
def standardBinary : Text := "/opt/driver/bin/native"

/-- The command. -/
def readBinary : Option Value → Except (List Issue) Text
  | none => .ok standardBinary
  | some .null => .ok standardBinary
  | some (.text t) => .ok (if t.isBlank then standardBinary else t)
  | some v => v.asText.mapError fun want => [⟨[.field "binary"], want⟩]

/-- The encoding, whose tag may be empty. -/
def readEncoding : Option Value → Except (List Issue) ContentEncoding
  | none => .ok .standard
  | some .null => .ok .standard
  | some (.text []) => .ok .standard
  | some v =>
    (ContentEncoding.ofValue v).mapError fun fault => [⟨[.field "encoding"], .other fault.message⟩]

section Numbers

/-! The number of a text, if it is read as one. -/
variable (number? : Text → Option Double)

/-- The number of a numeral. -/
def readNumeral (t : Text) : Except Want Double :=
  match number? t with
  | some x => .ok x
  | none => .error (if t.Scalar then .numeral else .unicode)

/-- The number that a value is: a number, a truth value or a numeral. -/
def readNumber : Value → Except Want Double
  | .float x => .ok x
  | .bool b => .ok (Double.ofRatio false (if b then 1 else 0) 1)
  | .int n =>
    match Double.ofInt? n with
    | some x => .ok x
    | none => .error .number
  | .text t => readNumeral number? t
  | .bytes b =>
    match Utf8.decode b with
    | .ok t => readNumeral number? t
    | .error _ => .error .numeral
  | _ => .error .number

/-- The number greater than zero that a value is. -/
def readPositive (v : Value) : Except Want Double :=
  match readNumber number? v with
  | .error want => .error want
  | .ok x => if x.isPositive then .ok x else .error .positive

/-- The deadline. -/
def readDeadline : Option Value → Except (List Issue) (Option Double)
  | none => .ok none
  | some .null => .ok none
  | some v =>
    let blank : Bool :=
      match v with
      | .text t => t.isBlank
      | _ => false
    if blank then .ok none
    else
      match readPositive number? v with
      | .ok x => .ok (some x)
      | .error want => .error [⟨[.field "timeout_seconds"], want⟩]

/-- The settings that the values of the three fields give. -/
def ofFields (binary encoding deadline : Option Value) : Except (List Issue) Settings :=
  let binary := readBinary binary
  let encoding := readEncoding encoding
  let deadline := readDeadline number? deadline
  match binary, encoding, deadline with
  | .ok binary, .ok encoding, .ok deadline => .ok ⟨binary, encoding, deadline⟩
  | _, _, _ => .error (issuesIn binary ++ issuesIn encoding ++ issuesIn deadline)

end Numbers

/-- The settings that a value is. -/
def ofValue : Value → Except (List Issue) Settings
  | .mapping entries =>
    ofFields Text.number? (Entries.get? entries "binary") (Entries.get? entries "encoding")
      (Entries.get? entries "timeout_seconds")
  | _ => .error [⟨[], .shape .settings⟩]

end Settings

end ParserClient
