import ParserClient.Mishap
import ParserClient.Text.Utf8

/-!
# Pipes

The two ends of pipes that a client holds, as scripts of what they will do. An *outlet* is written
to and flushed; each of these calls succeeds or has a mishap. An *inlet* is read line by line; each
call delivers bytes or a mishap, and after the last item it delivers the end of the stream, every
time. A call may have to wait behind a *gate*, which opens when something is done to the child. What
is read may nest only as deep as the stack of the reader has *room*.

## Main definitions

* `Gate`, `Attempt`, `Outlet`, `Delivery`, `Room`, `Inlet`.
* `PipeEvent` — the calls on the two ends, as they are observed.
* `Outlet.nextWrite`, `Outlet.nextFlush` — the script of the next call.
* `Delivery.ofBytes` — the lines of a byte string.
-/

namespace ParserClient

/-- What a call can wait for: the child is killed, or the child is polled. -/
inductive Gate where
  | kill
  | poll
  deriving DecidableEq, Repr

/-- What a call on an outlet does: it waits behind a gate, if there is one, and succeeds or has a
mishap. -/
structure Attempt where
  gate : Option Gate
  mishap : Option Mishap
  deriving DecidableEq, Repr

/-- A call that succeeds at once. -/
def Attempt.success : Attempt := ⟨none, none⟩

/-- The end of a pipe that is written to. -/
structure Outlet where
  writes : List Attempt
  flushes : List Attempt
  close : Option Mishap
  deriving DecidableEq, Repr

/-- What a call on an inlet meets. -/
inductive Delivery where
  | bytes (b : Bytes)
  | mishap (m : Mishap)
  | gate (g : Gate)
  deriving DecidableEq, Repr

/-- The room on the stack of a reader: how deep the containers of a text may nest that is read, how
many frames may be taken up to make a tree of what has been read, and on how many levels it may be
shown in a complaint. -/
structure Room where
  depth : Nat
  frames : Nat
  levels : Nat
  deriving DecidableEq, Repr

/-- What is left of a stack of a thousand frames by a reader that has been called from the bottom of
it, give or take a few. -/
def Room.standard : Room := ⟨990, 990, 990⟩

/-- The end of a pipe that is read from, and the room of its reader. -/
structure Inlet where
  items : List Delivery
  close : Option Mishap
  room : Room
  deriving DecidableEq, Repr

/-- A call on one of the two ends, observed when it begins. -/
inductive PipeEvent where
  | write (frame : Bytes)
  | flush
  | readline
  deriving DecidableEq, Repr

namespace Outlet

/-- What the next write does. -/
def nextWrite (o : Outlet) : Attempt := o.writes.headD .success

/-- What the next flush does. -/
def nextFlush (o : Outlet) : Attempt := o.flushes.headD .success

/-- The outlet after a write. -/
def dropWrite (o : Outlet) : Outlet := { o with writes := o.writes.tail }

/-- The outlet after a flush. -/
def dropFlush (o : Outlet) : Outlet := { o with flushes := o.flushes.tail }

end Outlet

/-- The lines of a byte string, each with its line feed. What stands behind the last line feed is
a line too, unless it is empty. -/
def linesOf : Bytes → List Bytes
  | [] => []
  | b :: rest =>
    if b = 10 then [b] :: linesOf rest
    else
      match linesOf rest with
      | [] => [[b]]
      | line :: lines => (b :: line) :: lines

/-- The deliveries of a byte string, line by line. -/
def Delivery.ofBytes (bytes : Bytes) : List Delivery := (linesOf bytes).map .bytes

theorem flatten_linesOf (bytes : Bytes) : (linesOf bytes).flatten = bytes := by
  induction bytes with
  | nil => rfl
  | cons b rest ih =>
    simp only [linesOf]
    split
    · simp [ih]
    · split
      · next h => simp_all
      · next h => simp_all

end ParserClient
