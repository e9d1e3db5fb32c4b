import ParserClient.Text.Utf8
import ParserClient.Value

/-!
# Issues

What keeps a value from being a message of some shape: a list of issues, each with the place in
the value where something else is wanted, in the order of the fields of the message.

## Main definitions

* `Shape` — the messages that values are read as.
* `Want`, `Issue` — what is wanted, and where.
* `Issue.unencodable?` — an issue whose wording quotes a lone surrogate half cannot be reported.
* `Value.asText` — the text that a field takes.
-/

namespace ParserClient

/-- The messages that values are read as. -/
inductive Shape where
  | request
  | reply
  | settings
  deriving DecidableEq, Repr

/-- The name of a message. -/
def Shape.name : Shape → Text
  | .request => "ParseRequest"
  | .reply => "ParseResponse"
  | .settings => "DriverConfig"

/-- A step towards a place in a value. -/
inductive PathStep where
  | field (name : Text)
  | index (n : Nat)
  deriving DecidableEq, Repr

/-- What is wanted in a place. -/
inductive Want where
  | given
  | text
  | unicode
  | list
  | encoding
  | status
  | number
  | numeral
  | positive
  | shape (s : Shape)
  | other (wording : Text)
  deriving DecidableEq, Repr

/-- A place in a value and what is wanted there. -/
structure Issue where
  place : List PathStep
  want : Want
  deriving DecidableEq, Repr

namespace Want

/-- The short name of what is wanted. -/
def code : Want → Text
  | .given => "missing"
  | .text => "string_type"
  | .unicode => "string_unicode"
  | .list => "list_type"
  | .encoding => "enum"
  | .status => "enum"
  | .number => "float_type"
  | .numeral => "float_parsing"
  | .positive => "greater_than"
  | .shape _ => "model_type"
  | .other _ => "value_error"

/-- The wording of what is wanted. -/
def message : Want → Text
  | .given => "Field required"
  | .text => "Input should be a valid string"
  | .unicode => "Input should be a valid string, unable to parse raw data as a unicode string"
  | .list => "Input should be a valid list"
  | .encoding => "Input should be 'utf8' or 'base64'"
  | .status => "Input should be 'ok', 'error' or 'fatal'"
  | .number => "Input should be a valid number"
  | .numeral => "Input should be a valid number, unable to parse string as a number"
  | .positive => "Input should be greater than 0"
  | .shape s => "Input should be a valid dictionary or instance of " ++ s.name
  | .other wording => "Value error, " ++ wording

end Want

/-- The issues in a field. -/
def issuesIn {α : Type} : Except (List Issue) α → List Issue
  | .ok _ => []
  | .error issues => issues

/-- Why the wording of an issue has no bytes. -/
def Issue.unencodable? (i : Issue) : Option Utf8.Unencodable :=
  match i.want with
  | .other wording =>
    match Utf8.encode wording with
    | .ok _ => none
    | .error f => some f
  | _ => none

/-- The first line of a report on issues: how many there are and with which message. -/
def issuesHeadline (shape : Shape) (issues : List Issue) : Text :=
  Text.ofString s!"{issues.length} validation error"
    ++ (if issues.length = 1 then [] else [.scalar 's']) ++ (" for " : Text) ++ shape.name

/-- The text that a field takes: a text, or a byte string that encodes one. -/
def Value.asText : Value → Except Want Text
  | .text t => .ok t
  | .bytes b => (Utf8.decode b).mapError fun _ => .unicode
  | _ => .error .text

end ParserClient
