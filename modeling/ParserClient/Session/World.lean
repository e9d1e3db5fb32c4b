import ParserClient.Session.State

/-!
# Requests step by step

A request is a *call* by one of two callers. A call reads the tag and encodes the content, waits
for the mutex, arms a timer if it has a deadline, sends the request, reads the reply, settles the
timer and gives the mutex back. The timer of a call is an actor of its own: it may go off at any
moment until the call cancels it, polls the child and, if the child is found running, notes the
kill and kills it. The call waits for a timer that has gone off before it gives the mutex back, but
it looks for the note of a kill before that, when the exchange has failed.

One step of one actor is a partial function of the world: it has no value when the actor has
nothing to do or has to wait.

## Main definitions

* `Phase`, `Timer`, `Call` — where a call and its timer are.
* `World`, `World.step` — one step of an actor.
-/

namespace ParserClient

/-- What the exchange of a request and a reply comes to. -/
abbrev Exchange := Except Fault Reply

/-- What a request comes to. -/
abbrev Answer := Except Fault Tree

/-- The answer that a reply is. -/
def Reply.answer (r : Reply) : Answer :=
  match r.status with
  | .ok => .ok r.tree
  | .error => .error (.incomplete r.tree r.errors)
  | .fatal => .error (.failed r.errors)
  | .other name => .error (.unsupported name)

/-- The answer that an exchange is. -/
def Exchange.answer : Exchange → Answer
  | .ok r => r.answer
  | .error f => .error f

/-- Where a call is. -/
inductive Phase where
  /-- No call is made. -/
  | idle
  /-- The call begins, with content and possibly a deadline of its own. -/
  | entering (content : Text) (deadline : Option Seconds)
  /-- It waits for the mutex. -/
  | queued (request : Request)
  /-- It holds the mutex and is about to write. -/
  | sending (request : Request)
  /-- It is inside the write of a frame. -/
  | writing (frame : Bytes)
  /-- It is inside the flush of a frame. -/
  | flushing (frame : Bytes)
  /-- It is inside a reading call for the reply. -/
  | reading
  /-- It is inside the reading call that follows a mishap of the write or the flush. -/
  | salvaging (write : Mishap)
  /-- The exchange is over; a kill has not been looked for. -/
  | concluding (exchange : Exchange)
  /-- It is about to cancel the timer. -/
  | cancelling (exchange : Exchange)
  /-- It waits for the timer and is about to give the mutex back. -/
  | leaving (exchange : Exchange)
  /-- The call is over. -/
  | done (answer : Answer)

/-- Where the timer of a call is. -/
inductive Timer where
  /-- There is none. -/
  | off
  /-- It is armed. -/
  | pending
  /-- It has gone off and found the child running. -/
  | polled
  /-- It has noted the kill. -/
  | noted
  /-- It has done its work. -/
  | finished
  /-- It was cancelled before it went off. -/
  | cancelled
  deriving DecidableEq, Repr

/-- The timer is at work: it has gone off and is not finished. -/
def Timer.isBusy : Timer → Bool
  | .polled => true
  | .noted => true
  | _ => false

/-- A call: its phase, its timer and the deadline in force. -/
structure Call where
  phase : Phase
  timer : Timer
  deadline : Option Seconds

namespace Call

/-- No call. -/
def idle : Call := ⟨.idle, .off, none⟩

/-- A call that begins. -/
def entering (content : Text) (deadline : Option Seconds) : Call :=
  ⟨.entering content deadline, .off, none⟩

/-- The answer of a call that is over. -/
def answer? (k : Call) : Option Answer :=
  match k.phase with
  | .done a => some a
  | _ => none

end Call

/-- A session with the calls of two callers. -/
structure World where
  state : State
  first : Call
  second : Call

/-- An actor: a caller, or the timer of its call. -/
inductive Actor where
  | caller (c : Caller)
  | timer (c : Caller)
  deriving DecidableEq, Repr

namespace World

/-- The call of a caller. -/
def call (w : World) : Caller → Call
  | .first => w.first
  | .second => w.second

/-- The world with another call of a caller. -/
def setCall (w : World) (c : Caller) (k : Call) : World :=
  match c with
  | .first => { w with first := k }
  | .second => { w with second := k }

/-- The world with the call of a caller in another phase. -/
def goto (w : World) (c : Caller) (p : Phase) : World := w.setCall c { w.call c with phase := p }

/-- The world with the timer of a caller in another place. -/
def setTimer (w : World) (c : Caller) (t : Timer) : World :=
  w.setCall c { w.call c with timer := t }

/-- Writes down what happens. -/
def record (w : World) (h : Happening) : World := { w with state := w.state.record h }

/-- Writes down a call on the pipes of the child. -/
def recordCall (w : World) (c : Caller) (e : PipeEvent) : World :=
  { w with state := w.state.recordCall c e }

/-- The world with another child. -/
def setChild (w : World) (child : Child) : World :=
  { w with state := { w.state with child := some child } }

/-! ### The steps of a caller -/

/-- The request for a content, or why there is none. -/
def requestFor (s : State) (content : Text) : Except Fault Request :=
  if s.running then
    match ContentEncoding.ofValue s.client.encoding with
    | .error f => .error (.ofTag f)
    | .ok e =>
      match e.encode content with
      | .error f => .error (.unencodable f)
      | .ok wire => .ok ⟨wire, e⟩
  else .error .notRunning

/-- The call begins: it makes its request and settles on a deadline. -/
def enter (w : World) (c : Caller) (content : Text) (deadline : Option Seconds) : World :=
  match requestFor w.state content with
  | .error f => w.goto c (.done (.error f))
  | .ok request =>
    w.setCall c
      { w.call c with
        phase := .queued request
        deadline := deadline.or w.state.client.deadline }

/-- The call takes the mutex, finds the session still running and arms its timer. -/
def acquire (w : World) (c : Caller) (request : Request) : Option World :=
  match w.state.holder with
  | some _ => none
  | none =>
    if w.state.running then
      let w := { w with state := { w.state with holder := some c } }.record (.acquire c)
      let timer := if (w.call c).deadline.isSome then Timer.pending else Timer.off
      some (w.setCall c { w.call c with phase := .sending request, timer := timer })
    else some (w.goto c (.done (.error .notRunning)))

/-- The call makes the frame of its request and begins to write it. -/
def beginWrite (w : World) (c : Caller) (request : Request) : World :=
  match Frame.ofRequest request with
  | .error f => w.goto c (.concluding (.error (.frame f)))
  | .ok frame => (w.recordCall c (.write frame)).goto c (.writing frame)

/-- A write or a flush has had a mishap: this is logged, and a reading call begins. -/
def beginSalvage (w : World) (c : Caller) (m : Mishap) : World :=
  ((w.record (.warn (.notWritten m))).recordCall c .readline).goto c (.salvaging m)

/-- The write ends. -/
def endWrite (w : World) (c : Caller) (frame : Bytes) : Option World :=
  match w.state.child with
  | none => none
  | some child =>
    let attempt := child.outlet.nextWrite
    if child.mayEnd attempt then
      let w := w.setChild child.afterWrite
      match attempt.mishap with
      | some m => some (w.beginSalvage c m)
      | none => some ((w.recordCall c .flush).goto c (.flushing frame))
    else none

/-- The flush ends. -/
def endFlush (w : World) (c : Caller) (frame : Bytes) : Option World :=
  match w.state.child with
  | none => none
  | some child =>
    let attempt := child.outlet.nextFlush
    if child.mayEnd attempt then
      match attempt.mishap with
      | some m => some ((w.setChild (child.afterFlush frame false)).beginSalvage c m)
      | none =>
        some (((w.setChild (child.afterFlush frame true)).recordCall c .readline).goto c .reading)
    else none

/-- A reading call for the reply ends. After a blank line another one begins. -/
def endRead (w : World) (c : Caller) : Option World :=
  match w.state.child with
  | none => none
  | some child =>
    match Inlet.pull child.isOpen child.inlet.items with
    | none => none
    | some (result, items) =>
      let w := w.setChild (child.withItems items)
      match result with
      | .error f => some (w.goto c (.concluding (.error (.frame f))))
      | .ok line =>
        if Frame.isBlank line then some (w.recordCall c .readline)
        else some (w.goto c (.concluding (Frame.readReply child.inlet.room line)))

/-- The reading call that follows a mishap ends. -/
def endSalvage (w : World) (c : Caller) (write : Mishap) : Option World :=
  match w.state.child with
  | none => none
  | some child =>
    match Inlet.pull child.isOpen child.inlet.items with
    | none => none
    | some (result, items) =>
      let w := w.setChild (child.withItems items)
      match result with
      | .error f => some (w.goto c (.concluding (.error (.frame f))))
      | .ok line => some (w.goto c (.concluding (.error (.crashed write (Frame.rawText line)))))

/-- What an exchange comes to when a kill is noted or not: a fault of the exchange of lines is then
a fault of the deadline. -/
def judged (killed : Bool) (deadline : Option Seconds) : Exchange → Exchange
  | .error (.frame f) => .error (if killed then .ofDeadline deadline else .frame f)
  | other => other

/-- The call cancels its timer, if that has not gone off. -/
def cancel (w : World) (c : Caller) (exchange : Exchange) : World :=
  let w := if (w.call c).timer = .pending then w.setTimer c .cancelled else w
  w.goto c (.leaving exchange)

/-- The call ends once its timer is not at work: the session is no longer running if a kill is
noted, and the mutex is given back. -/
def leave (w : World) (c : Caller) (exchange : Exchange) : Option World :=
  if (w.call c).timer.isBusy then none
  else
    let running := w.state.running && !w.state.killed
    let w := { w with state := { w.state with running := running, holder := none } }
    some ((w.record (.release c)).goto c (.done exchange.answer))

/-- One step of a caller. -/
def stepCaller (w : World) (c : Caller) : Option World :=
  match (w.call c).phase with
  | .idle => none
  | .entering content deadline => some (w.enter c content deadline)
  | .queued request => w.acquire c request
  | .sending request => some (w.beginWrite c request)
  | .writing frame => w.endWrite c frame
  | .flushing frame => w.endFlush c frame
  | .reading => w.endRead c
  | .salvaging m => w.endSalvage c m
  | .concluding exchange =>
    some (w.goto c (.cancelling (judged w.state.killed (w.call c).deadline exchange)))
  | .cancelling exchange => some (w.cancel c exchange)
  | .leaving exchange => w.leave c exchange
  | .done _ => none

/-! ### The steps of a timer -/

/-- The timer goes off and polls the child. -/
def goOff (w : World) (c : Caller) : World :=
  match w.state.child with
  | none => w.setTimer c .finished
  | some child =>
    ((w.setChild { child with polled := true }).record (.poll w.state.lives c)).setTimer c
      (if child.isAlive then .polled else .finished)

/-- The timer logs and notes the kill. -/
def note (w : World) (c : Caller) : Option World :=
  match w.state.child, (w.call c).deadline with
  | some child, some seconds =>
    let w := { w with state := { w.state with killed := true } }
    some ((w.record (.warn (.killing seconds child.process))).setTimer c .noted)
  | _, _ => none

/-- The timer kills the child. -/
def strike (w : World) (c : Caller) : Option World :=
  match w.state.child with
  | none => none
  | some child =>
    some (((w.setChild { child with killed := true }).record (.kill w.state.lives c)).setTimer c
      .finished)

/-- One step of a timer. -/
def stepTimer (w : World) (c : Caller) : Option World :=
  match (w.call c).timer with
  | .pending => some (w.goOff c)
  | .polled => w.note c
  | .noted => w.strike c
  | _ => none

/-- One step of an actor. -/
def step (w : World) : Actor → Option World
  | .caller c => w.stepCaller c
  | .timer c => w.stepTimer c

end World

end ParserClient
