import ParserClient.Fault

/-!
# Reports

What a caller sees of a fault: its kind, its wording and the details that go with the kind. A
report can also be put together by hand, with a wording of its own, by code that stands in for a
client.

## Main definitions

* `Report.Kind`, `Report`, `Detail`.
* `Fault.report` — the report of a fault.
* `Report.ofParts` and its neighbours — reports put together by hand.
-/

namespace ParserClient

/-- The kinds of faults that a caller tells apart. -/
inductive Report.Kind where
  | driver
  | notRunning
  | start
  | timeout
  | processExit
  | invalidEncoding
  | encode
  | decode
  | write
  | unsupportedStatus
  | multi
  | partialParse
  | framing
  | frameWrite
  | frameEncode
  | streamClosed
  | frameDecode
  | nodeConversion
  | validation
  | system
  | value
  | noBytes
  | recursion
  deriving DecidableEq, Repr

mutual

/-- What a report holds besides its kind and its wording. -/
inductive Detail where
  | none
  | number (n : Int)
  | tag (raw : Value)
  | status (name : Text)
  | exit (code : Int)
  | deadline (seconds : Value)
  | issues (issues : List Issue)
  | errors (errors : List Text)
  | tree (tree : Value) (errors : List Text)
  | crash (write : Report) (raw : Text)

/-- What a caller sees of a fault. -/
inductive Report where
  | mk (kind : Report.Kind) (message : Text) (detail : Detail)

end

namespace Report

/-- The kind of a report. -/
def kind : Report → Kind
  | .mk kind _ _ => kind

/-- The wording of a report. -/
def message : Report → Text
  | .mk _ message _ => message

/-- The details of a report. -/
def detail : Report → Detail
  | .mk _ _ detail => detail

/-- The report of a mishap. -/
def ofMishap : Mishap → Report
  | .refused r => .mk .system r.message (.number r.number)
  | .misused text => .mk .value text .none

/-- The report of a kind that holds a wording only, put together from its parts: the text of a
single part, or the text of several parts as one. -/
def ofParts (kind : Kind) : List Value → Except Oversized Report
  | [] => .ok (.mk kind [] .none)
  | [part] => part.shown.map (.mk kind · .none)
  | parts => (Value.tuple parts).shown.map (.mk kind · .none)

/-- The report that a tag names no encoding. -/
def tag (raw : Value) (shown : Text) : Report :=
  .mk .invalidEncoding (Fault.tag raw shown).message (.tag raw)

/-- The report of an exit status. -/
def exited (code : Int) : Report := .mk .processExit (Fault.exited code).message (.exit code)

/-- The report of a status that is not known. -/
def unsupported (status : Text) : Report :=
  .mk .unsupportedStatus (Fault.unsupported status).message (.status status)

/-- The report of errors without a tree. -/
def failed (errors : List Text) : Report := .mk .multi (errorsSummary errors) (.errors errors)

/-- The report of a tree with errors. -/
def incomplete (tree : Value) (errors : List Text) : Report :=
  .mk .partialParse (errorsSummary errors) (.tree tree errors)

/-- The report of a request that is not written, with the line read back. -/
def crashed (write : Report) (raw : Text) : Report :=
  .mk .write (crashSummary write.message raw) (.crash write raw)

/-- The report of a deadline. -/
def late (message : Text) (seconds : Value) : Report := .mk .timeout message (.deadline seconds)

/-- The report of a fault of the exchange of lines. -/
def ofFrame (f : FrameFault) : Report :=
  match f with
  | .unencodable _ => .mk .frameEncode f.message .none
  | .unwritable _ => .mk .frameWrite f.message .none
  | .ended => .mk .streamClosed f.message .none
  | .closed _ => .mk .streamClosed f.message .none
  | .unreadable _ => .mk .framing f.message .none
  | .malformed _ => .mk .frameDecode f.message .none
  | .rejected _ issues => .mk .frameDecode f.message (.issues issues)

end Report

/-- The report of a fault. -/
def Fault.report (f : Fault) : Report :=
  match f with
  | .frame g => Report.ofFrame g
  | .oversized _ => .mk .value f.message .none
  | .tooDeep => .mk .recursion f.message .none
  | .mishap m => Report.ofMishap m
  | .notRunning => .mk .notRunning f.message .none
  | .cannotStart _ _ => .mk .start f.message .none
  | .late deadline => Report.late f.message ((deadline.map Seconds.toValue).getD .null)
  | .exited code => Report.exited code
  | .tag raw shown => Report.tag raw shown
  | .unencodable _ => .mk .encode f.message .none
  | .undecodable _ => .mk .decode f.message .none
  | .crashed write raw => Report.crashed (Report.ofFrame (.unwritable write)) raw
  | .unsupported status => Report.unsupported status
  | .failed errors => Report.failed errors
  | .incomplete t errors => Report.incomplete t.toValue errors
  | .tree _ => .mk .nodeConversion f.message .none
  | .invalid _ issues => .mk .validation f.message (.issues issues)
  | .noBytes _ => .mk .noBytes f.message .none

theorem Fault.message_report (f : Fault) : f.report.message = f.message := by
  cases f with
  | frame g => cases g <;> rfl
  | mishap m => cases m <;> rfl
  | _ => rfl

end ParserClient
