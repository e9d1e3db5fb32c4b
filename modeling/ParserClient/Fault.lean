import ParserClient.ContentEncoding
import ParserClient.Json.Reading
import ParserClient.Json.Writing
import ParserClient.Message.Issue
import ParserClient.Mishap
import ParserClient.Number.Seconds

/-!
# Faults

Everything that can go wrong, by its cause. Faults of the exchange of lines with the child form a
family of their own, because a request that outlives its deadline turns any of them into a fault of
the deadline. Three causes lie outside it although a line brings them about: an integer with too
many digits, containers that nest too deep, and an issue that cannot be reported because its
wording has no bytes.

## Main definitions

* `FrameFault` — a message is not written or not read.
* `Fault` — any cause.
* `Warning` — what is logged and not raised.
-/

namespace ParserClient

/-- Why a message has no frame. -/
inductive FrameCause where
  | json (f : Json.WriteFault)
  | bytes (f : Utf8.Unencodable)
  deriving DecidableEq, Repr

/-- Why a line is no JSON text. -/
inductive LineCause where
  | bytes (f : Utf8.Undecodable)
  | json (c : Json.Complaint) (place : Json.Place)
  deriving DecidableEq, Repr

/-- A message is not written or not read. -/
inductive FrameFault where
  | unencodable (cause : FrameCause)
  | unwritable (cause : Mishap)
  | ended
  | closed (text : Text)
  | unreadable (cause : Refusal)
  | malformed (cause : LineCause)
  | rejected (shape : Shape) (issues : List Issue)
  deriving DecidableEq, Repr

/-- What goes wrong, by its cause. -/
inductive Fault where
  | frame (f : FrameFault)
  | oversized (o : Oversized)
  | tooDeep
  | mishap (m : Mishap)
  | notRunning
  | cannotStart (binary : Text) (cause : Refusal)
  | late (deadline : Option Seconds)
  | exited (code : Int)
  | tag (raw : Value) (shown : Text)
  | unencodable (cause : Utf8.Unencodable)
  | undecodable (cause : ContentFault)
  | crashed (write : Mishap) (raw : Text)
  | unsupported (status : Text)
  | failed (errors : List Text)
  | incomplete (tree : Tree) (errors : List Text)
  | tree (cause : TreeFault)
  | invalid (shape : Shape) (issues : List Issue)
  | noBytes (cause : Utf8.Unencodable)

/-- What is logged and not raised. -/
inductive Warning where
  | notWritten (cause : Mishap)
  | killing (deadline : Seconds) (process : Nat)
  | notCleaned (cause : Fault)

/-! ### Wording -/

/-- The wording of a cause. -/
def FrameCause.message : FrameCause → Text
  | .json f => f.message
  | .bytes f => f.message

/-- The wording of a cause. -/
def LineCause.message : LineCause → Text
  | .bytes f => f.message
  | .json c place => Json.malformedMessage c place

/-- The wording of a fault. -/
def FrameFault.message : FrameFault → Text
  | .unencodable cause => "cannot encode message: " ++ cause.message
  | .unwritable cause => "cannot write message: " ++ cause.message
  | .ended => "stream closed before a message was received"
  | .closed text => "cannot read message: " ++ text
  | .unreadable cause => "cannot read message: " ++ cause.message
  | .malformed cause => "invalid JSON message: " ++ cause.message
  | .rejected shape issues =>
    ("invalid " : Text) ++ shape.name ++ (": " : Text) ++ issuesHeadline shape issues

/-- The summary of a list of errors: the only one alone, or how many there are and each on a line
of its own. -/
def errorsSummary : List Text → Text
  | [] => "native driver failed without reporting errors"
  | [e] => e
  | errors =>
    Text.ofString s!"{errors.length} errors occurred:\n"
      ++ Text.intercalate "\n" (errors.map fun e => "\t* " ++ e)

/-- The text that a crash leaves: what went wrong when writing, and the line read back. -/
def crashSummary (write raw : Text) : Text := ("error: " : Text) ++ write ++ ("; " : Text) ++ raw

/-- The sentence on a deadline that has passed, unless the deadline is too long to be written. -/
def lateSentence? (deadline : Option Seconds) : Except Oversized Text :=
  (Seconds.shown? deadline).map fun shown =>
    ("Native driver did not reply within " : Text) ++ shown ++ (" seconds" : Text)

/-- The wording of a fault. Nesting too deep has none, nor has a deadline that is too long to be
written, for which no fault is made. -/
def Fault.message : Fault → Text
  | .frame f => f.message
  | .oversized o => o.message
  | .tooDeep => []
  | .mishap m => m.message
  | .notRunning => "native driver is not running"
  | .cannotStart binary cause =>
    ("Cannot start native driver '" : Text) ++ binary ++ ("': " : Text) ++ cause.message
  | .late deadline => (lateSentence? deadline).toOption.getD []
  | .exited code => "native driver exited with status " ++ Integer.text code
  | .tag raw shown => (TagFault.unknown raw shown).message
  | .unencodable cause => "content is not valid UTF-8 text: " ++ cause.message
  | .undecodable cause => cause.message
  | .crashed write raw => crashSummary (FrameFault.unwritable write).message raw
  | .unsupported status => "unsupported status: " ++ status
  | .failed errors => errorsSummary errors
  | .incomplete _ errors => errorsSummary errors
  | .tree cause => cause.message
  | .invalid shape issues => issuesHeadline shape issues
  | .noBytes cause => cause.message

/-- The wording of a warning. One that cannot be worded is lost. -/
def Warning.message? : Warning → Option Text
  | .notWritten cause =>
    some ("Failed to write request to native driver: " ++ (FrameFault.unwritable cause).message)
  | .killing deadline process =>
    (lateSentence? (some deadline)).toOption.map fun sentence =>
      sentence ++ ("; killing pid " : Text) ++ Natural.text process
  | .notCleaned cause => some ("Failed to clean up killed native driver: " ++ cause.message)

/-- The fault of a deadline. Its wording is made first, and names the deadline. -/
def Fault.ofDeadline (deadline : Option Seconds) : Fault :=
  match lateSentence? deadline with
  | .ok _ => .late deadline
  | .error o => .oversized o

/-- The fault of issues that `reported` makes a fault of, unless one of them has a wording without
bytes. -/
def Fault.ofIssuesAs (reported : List Issue → Fault) (issues : List Issue) : Fault :=
  match issues.findSome? Issue.unencodable? with
  | some cause => .noBytes cause
  | none => reported issues

/-- The fault of a value that is no message of a shape. -/
def Fault.ofIssues (shape : Shape) : List Issue → Fault := ofIssuesAs (.invalid shape)

/-- The fault of a tag. -/
def Fault.ofTag : TagFault → Fault
  | .unknown raw shown => .tag raw shown
  | .oversized o => .oversized o

end ParserClient
