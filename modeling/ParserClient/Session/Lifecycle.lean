import ParserClient.Session.State

/-!
# Starting and closing

Closing a session detaches the child, closes the pipe to it, waits for it and closes the pipe from
it. A refusal of one of these steps does not keep the others from being made; the first fault is
raised when all are done. A misuse found when the pipe to the child is closed, or when it is
waited for, is raised at once. An exit code other than zero is a fault unless the deadline of a
request has killed the child.

Starting a session that is not running first closes it if a killed child is still attached, and
then launches the command.

## Main definitions

* `State.close`, `State.start`.
-/

namespace ParserClient

namespace State

/-- The number of the refusal that says that a pipe is closed already. -/
def alreadyClosed : Int := 9

/-- The fault of closing the pipe from a child: a pipe that is closed already is none. -/
def inletFault : Option Mishap → Option Fault
  | none => none
  | some (.misused _) => none
  | some (.refused r) => if r.number = alreadyClosed then none else some (.mishap (.refused r))

/-- The result of an operation with its first fault. -/
def resultOf : Option Fault → Except Fault Unit
  | none => .ok ()
  | some f => .error f

/-- Closes the pipe from a detached child; an earlier fault comes first. -/
def closeInlet (s : State) (child : Child) (fault : Option Fault) : Except Fault Unit × State :=
  (resultOf (fault.or (inletFault child.inlet.close)), s.record (.closeInlet s.lives))

/-- Waits for a detached child and closes the pipe from it; an earlier fault comes first. -/
def waitAndClose (s : State) (child : Child) (fault : Option Fault) : Except Fault Unit × State :=
  let s := s.record (.wait s.lives)
  match child.waitResult with
  | .error (.misused text) => (.error (.mishap (.misused text)), s)
  | .error (.refused r) => s.closeInlet child (fault.or (some (.mishap (.refused r))))
  | .ok code =>
    s.closeInlet child
      (fault.or (if code ≠ 0 ∧ s.killed = false then some (.exited code) else none))

/-- Stops the session. -/
def close (s : State) : Except Fault Unit × State :=
  match s.child with
  | none => (.ok (), s)
  | some child =>
    let s := { s with running := false, child := none }.record (.closeOutlet s.lives)
    match child.outlet.close with
    | some (.misused text) => (.error (.mishap (.misused text)), s)
    | some (.refused r) => s.waitAndClose child (some (.mishap (.refused r)))
    | none => s.waitAndClose child none

/-- Closes a session whose child was killed. Only a misuse is raised; any other fault is logged. -/
def reap (s : State) : Except Fault Unit × State :=
  match s.close with
  | (.ok (), s) => (.ok (), s)
  | (.error (.mishap (.misused text)), s) => (.error (.mishap (.misused text)), s)
  | (.error f, s) => (.ok (), s.record (.warn (.notCleaned f)))

/-- The refusal to launch a command when no launch is left. -/
def noLaunch : Refusal := ⟨2, "No such file or directory", none⟩

/-- Launches the command. -/
def launch (s : State) : Except Fault Unit × State :=
  let life := s.lives + 1
  let next := s.launches.headD (.error (.mishap (.refused noLaunch)))
  let s := { s with lives := life, launches := s.launches.tail }.record
    (.spawn life s.client.binary)
  match next with
  | .error (.mishap (.refused r)) => (.error (.cannotStart s.client.binary r), s)
  | .error (.mishap (.misused text)) => (.error (.mishap (.misused text)), s)
  | .error (.noBytes cause) => (.error (.noBytes cause), s)
  | .ok child => (.ok (), { s with running := true, child := some child, killed := false })

/-- Starts the session; a running one is left as it is. -/
def start (s : State) : Except Fault Unit × State :=
  if s.running then (.ok (), s)
  else if s.child.isSome then
    match s.reap with
    | (.ok (), s) => s.launch
    | (.error f, s) => (.error f, s)
  else s.launch

end State

end ParserClient
