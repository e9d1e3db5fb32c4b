import ParserClient.Session.World

/-!
# Schedules

The interleavings that a session follows when nothing but the gates decides. An order of actors is
kept to as long as one of them can move, the first in the order that can. In a request alone the
caller comes before its timer, so the timer goes off when the call waits for it. Of two requests the
first goes on until it is inside its first call on the pipes, the second as far as it can, and then
the first comes before the second.

## Main definitions

* `World.settle` — keeping to an order until nothing moves.
* `World.alone`, `World.together`.
-/

namespace ParserClient

namespace World

/-- One step of the first actor in an order that can move. -/
def advance (w : World) (order : List Actor) : Option World := order.findSome? w.step

/-- At most `bound` steps in an order. -/
def settle (w : World) (order : List Actor) : (bound : Nat) → World
  | 0 => w
  | bound + 1 =>
    match w.advance order with
    | none => w
    | some w => w.settle order bound

/-- The number of items on the output of the child. -/
def itemsLeft (w : World) : Nat := (w.state.child.map (·.inlet.items.length)).getD 0

/-- A bound on the steps of two calls: each takes one step for an item that it reads, and no more
than twenty others. -/
def budget (w : World) : Nat := w.itemsLeft + 40

/-- A session with one call, which is made until it is over or waits for ever. -/
def alone (s : State) (content : Text) (deadline : Option Seconds) : World :=
  let w : World := ⟨s, .entering content deadline, .idle⟩
  w.settle [.caller .first, .timer .first] w.budget

/-- The number of steps that bring a call inside its first call on the pipes. -/
def stepsToPipes : Nat := 3

/-- A session with two calls, the second of which begins when the first is inside its first call
on the pipes. -/
def together (s : State) (content₁ : Text) (deadline₁ : Option Seconds) (content₂ : Text)
    (deadline₂ : Option Seconds) : World :=
  let w : World := ⟨s, .entering content₁ deadline₁, .entering content₂ deadline₂⟩
  let w := w.settle [.caller .first] stepsToPipes
  let w := w.settle [.caller .second] w.budget
  w.settle [.caller .first, .timer .first, .caller .second, .timer .second] w.budget

end World

end ParserClient
