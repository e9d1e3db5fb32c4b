import ParserClient.Message.Settings
import ParserClient.Session.Child

/-!
# The state of a session

A *client* is configured with a command, the tag of an encoding and a deadline for requests that
bring none. A session is the client together with the child that is attached to it, the flags that
its operations set, the mutex that admits one request at a time, and the launches still to come.
What happens is written down in order; each happening names the life of the child that it belongs
to, lives being counted by attempts to start one.

## Main definitions

* `Client`, `Client.make`, `Client.ofSettings`.
* `Caller`, `Happening`.
* `State`, `State.initial`.
-/

namespace ParserClient

/-- What a client is configured with. The tag is read when a request is made, not before. -/
structure Client where
  binary : Text
  encoding : Value
  deadline : Option Seconds

namespace Client

/-- A client with the given command, tag and deadline; an empty command and an empty tag give way
to the standard ones. -/
def make (binary : Text) (encoding : Value) (deadline : Option Seconds) : Client where
  binary := if binary.isEmpty then Settings.standardBinary else binary
  encoding := if encoding.isEmpty then .text ContentEncoding.standard.name else encoding
  deadline := deadline

/-- The client that settings configure. -/
def ofSettings (s : Settings) : Client :=
  make s.binary (.text s.encoding.name) (s.deadline.map .float)

end Client

/-- One of the two callers that may make a request at the same time. -/
inductive Caller where
  | first
  | second
  deriving DecidableEq, Repr

/-- What happens in a session. -/
inductive Happening where
  | spawn (life : Nat) (command : Text)
  | call (life : Nat) (caller : Caller) (event : PipeEvent)
  | closeOutlet (life : Nat)
  | wait (life : Nat)
  | closeInlet (life : Nat)
  | poll (life : Nat) (caller : Caller)
  | kill (life : Nat) (caller : Caller)
  | acquire (caller : Caller)
  | release (caller : Caller)
  | warn (w : Warning)

/-- A session: the client, its child, the flags of its operations, the holder of the mutex, the
launches to come, the number of lives begun and what has happened. -/
structure State where
  client : Client
  running : Bool
  child : Option Child
  killed : Bool
  holder : Option Caller
  launches : List Launch
  lives : Nat
  trace : List Happening

namespace State

/-- A session in which nothing has happened. -/
def initial (client : Client) (launches : List Launch) : State where
  client := client
  running := false
  child := none
  killed := false
  holder := none
  launches := launches
  lives := 0
  trace := []

/-- Writes down what happens. -/
def record (s : State) (h : Happening) : State := { s with trace := s.trace ++ [h] }

/-- Writes down a call on the pipes of the child. -/
def recordCall (s : State) (c : Caller) (e : PipeEvent) : State := s.record (.call s.lives c e)

end State

end ParserClient
