import ParserClient.Frame.Reading
import ParserClient.Frame.Writing

/-!
# Children

A *child* is a process that a client has started: the two pipe ends towards it, how it ends, and
what has been done to it. A launch gives a child or a fault.

## Main definitions

* `Child`, `Child.waitResult`, `Child.isOpen`.
* `Launch`, `LaunchFault`.
-/

namespace ParserClient

/-- A process that a client has started. A child that echoes puts every line that reaches it on
its own output. -/
structure Child where
  outlet : Outlet
  inlet : Inlet
  code : Int
  waitMishap : Option Mishap
  exited : Option Int
  process : Nat
  echoes : Bool
  polled : Bool
  killed : Bool
  deriving DecidableEq, Repr

/-- Why a command is not started: a mishap, or a command that has no bytes. -/
inductive LaunchFault where
  | mishap (m : Mishap)
  | noBytes (cause : Utf8.Unencodable)
  deriving DecidableEq, Repr

/-- What starting a command comes to. -/
abbrev Launch := Except LaunchFault Child

namespace Child

/-- The exit code of a child that was killed. -/
def killedCode : Int := -9

/-- What waiting for a child comes to: a mishap or its exit code. -/
def waitResult (c : Child) : Except Mishap Int :=
  match c.waitMishap with
  | some m => .error m
  | none => .ok (if c.killed then killedCode else c.code)

/-- The child is found running when it is polled. -/
def isAlive (c : Child) : Bool := c.exited.isNone

/-- A gate is open: what it waits for has been done to the child. -/
def isOpen (c : Child) : Gate → Bool
  | .kill => c.killed
  | .poll => c.polled

/-- An attempt does not have to wait. -/
def mayEnd (c : Child) (a : Attempt) : Bool := a.gate.all c.isOpen

/-- The child after a write. -/
def afterWrite (c : Child) : Child := { c with outlet := c.outlet.dropWrite }

/-- The child after a flush of a frame. -/
def afterFlush (c : Child) (frame : Bytes) (reached : Bool) : Child :=
  { c with
    outlet := c.outlet.dropFlush
    inlet :=
      if c.echoes && reached then { c.inlet with items := c.inlet.items ++ [.bytes frame] }
      else c.inlet }

/-- The child with the items that are left on its output. -/
def withItems (c : Child) (items : List Delivery) : Child :=
  { c with inlet := { c.inlet with items := items } }

end Child

end ParserClient
