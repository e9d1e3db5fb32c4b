import ParserClient.Session.Lifecycle
import ParserClient.Session.Schedule

/-!
# Sessions

The operations of a session one after the other, and what each comes to.

## Main definitions

* `Command`, `Outcome`.
* `State.perform`.
-/

namespace ParserClient

/-- An operation of a session. -/
inductive Command where
  | start
  | close
  | enter
  | exit
  | parse (content : Text) (deadline : Option Seconds)
  | setEncoding (tag : Value)
  | parseTwo (content₁ : Text) (deadline₁ : Option Seconds) (content₂ : Text)
      (deadline₂ : Option Seconds)

/-- What an operation comes to. A request that waits for ever comes to nothing. -/
inductive Outcome where
  | done (result : Except Fault Unit)
  | entered (result : Except Fault Unit)
  | answered (answer : Answer)
  | both (first second : Answer)
  | pending

namespace State

/-- Performs an operation. -/
def perform (s : State) : Command → Outcome × State
  | .start => (.done s.start.1, s.start.2)
  | .close => (.done s.close.1, s.close.2)
  | .enter => (.entered s.start.1, s.start.2)
  | .exit => (.done s.close.1, s.close.2)
  | .setEncoding tag => (.done (.ok ()), { s with client := { s.client with encoding := tag } })
  | .parse content deadline =>
    let w := World.alone s content deadline
    match w.first.answer? with
    | some a => (.answered a, w.state)
    | none => (.pending, w.state)
  | .parseTwo content₁ deadline₁ content₂ deadline₂ =>
    let w := World.together s content₁ deadline₁ content₂ deadline₂
    match w.first.answer?, w.second.answer? with
    | some a, some b => (.both a b, w.state)
    | _, _ => (.pending, w.state)

/-- Performs operations one after the other. -/
def performAll (s : State) : List Command → List Outcome × State
  | [] => ([], s)
  | c :: rest =>
    let (outcome, s) := s.perform c
    let (outcomes, s) := s.performAll rest
    (outcome :: outcomes, s)

end State

end ParserClient
