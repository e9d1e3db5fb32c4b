import ParserClient.Frame.Reading

/-!
# Reading calls

A reader of an inlet asks for the next message in one of several forms, or for the next line as it
stands. A message is asked for past blank lines; a line as it stands is the next one, blank or not.
All calls take their items from the front of one inlet.

## Main definitions

* `ReadCall`, `Message`, `ReadCall.ofLine` — the forms of a call and what is made of a line.
* `ReadCall.perform`, `ReadCall.performAll` — one call, and calls one after the other.
-/

namespace ParserClient

/-- The form in which a line is asked for. -/
inductive ReadCall where
  | tree
  | reply
  | request
  | settings
  | raw
  deriving DecidableEq, Repr

/-- A line in the form that was asked for. -/
inductive Message where
  | tree (t : Tree)
  | reply (r : Reply)
  | request (r : Request)
  | settings (s : Settings)
  | raw (t : Text)

/-- What a call comes to: the number of reading calls on the inlet, the message, and the items
left. -/
structure ReadOutcome where
  reads : Nat
  result : Except Fault Message
  left : List Delivery

namespace ReadCall

/-- What is made of a line. -/
def ofLine (room : Room) (line : Bytes) : ReadCall → Except Fault Message
  | .tree => (Frame.readTree room line).map .tree
  | .reply => (Frame.readReply room line).map .reply
  | .request => (Frame.readRequest room line).map .request
  | .settings => (Frame.readSettings room line).map .settings
  | .raw => .ok (.raw (Frame.rawText line))

/-- The line that a call stops at: the next one for a raw call, else the next that is not blank. -/
def pull (isOpen : Gate → Bool) (items : List Delivery) :
    ReadCall → Option (Nat × Except FrameFault Bytes × List Delivery)
  | .raw => (Inlet.pull isOpen items).map fun (line, left) => (1, line, left)
  | _ => Inlet.pullMessage isOpen items

/-- One call, or nothing if it waits at a gate. -/
def perform (room : Room) (isOpen : Gate → Bool) (items : List Delivery) (call : ReadCall) :
    Option ReadOutcome :=
  (call.pull isOpen items).map fun (reads, line, left) =>
    ⟨reads, (line.mapError .frame).bind fun line => call.ofLine room line, left⟩

/-- Calls one after the other, or nothing if one of them waits at a gate. -/
def performAll (room : Room) (isOpen : Gate → Bool) (items : List Delivery) :
    List ReadCall → Option (List ReadOutcome)
  | [] => some []
  | call :: rest => do
    let outcome ← call.perform room isOpen items
    let outcomes ← performAll room isOpen outcome.left rest
    return outcome :: outcomes

end ReadCall

end ParserClient
