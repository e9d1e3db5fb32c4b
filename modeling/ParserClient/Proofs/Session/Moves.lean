import Mathlib.Logic.Relation
import ParserClient.Session.Schedule

/-!
# Moves of a world

Every interleaving of two callers and their timers is a sequence of moves: an actor takes a step. A
move of one caller or of its timer reads and changes the session and the call of that caller, and
nothing else; so what a caller does can be looked at with the other caller taken away.

## Main definitions

* `Caller.other`, `Caller.pick`, `Actor.owner`.
* `World.single`, `World.focus` — a world with one call, and a world with the other call left out.
* `World.Move`, `World.Moves` — one move, and moves one after the other.

## Main results

* `World.step_focus`, `World.call_other_of_step` — a step concerns its owner only.
* `World.moves_alone`, `World.moves_together` — what a session does with one request and with two
  is reached by moves.
-/

namespace ParserClient

/-- The caller beside the given one. -/
def Caller.other : Caller → Caller
  | .first => .second
  | .second => .first

namespace Caller

/-- What there is for each of the two callers. -/
def pick {α : Type} (first second : α) : Caller → α
  | .first => first
  | .second => second

@[simp] theorem other_other (c : Caller) : c.other.other = c := by cases c <;> rfl

theorem other_ne (c : Caller) : c.other ≠ c := by cases c <;> exact nofun

theorem eq_or_eq_other (c d : Caller) : d = c ∨ d = c.other := by
  cases c <;> cases d <;> simp [other]

end Caller

/-- The caller that an actor acts for. -/
def Actor.owner : Actor → Caller
  | .caller c => c
  | .timer c => c

namespace World

/-! ### Calls of a world -/

@[simp] theorem call_setCall (w : World) (c : Caller) (k : Call) : (w.setCall c k).call c = k := by
  cases c <;> rfl

@[simp] theorem call_other_setCall (w : World) (c : Caller) (k : Call) :
    (w.setCall c k).call c.other = w.call c.other := by
  cases c <;> rfl

@[simp] theorem state_setCall (w : World) (c : Caller) (k : Call) :
    (w.setCall c k).state = w.state := by
  cases c <;> rfl

@[simp] theorem call_goto (w : World) (c : Caller) (p : Phase) :
    (w.goto c p).call c = { w.call c with phase := p } := call_setCall ..

@[simp] theorem state_goto (w : World) (c : Caller) (p : Phase) : (w.goto c p).state = w.state :=
  state_setCall ..

@[simp] theorem call_setTimer (w : World) (c : Caller) (t : Timer) :
    (w.setTimer c t).call c = { w.call c with timer := t } := call_setCall ..

@[simp] theorem state_setTimer (w : World) (c : Caller) (t : Timer) :
    (w.setTimer c t).state = w.state := state_setCall ..

@[simp] theorem call_record (w : World) (c : Caller) (h : Happening) :
    (w.record h).call c = w.call c := by cases c <;> rfl

@[simp] theorem state_record (w : World) (h : Happening) :
    (w.record h).state = w.state.record h := rfl

@[simp] theorem call_recordCall (w : World) (c d : Caller) (e : PipeEvent) :
    (w.recordCall d e).call c = w.call c := by cases c <;> rfl

@[simp] theorem state_recordCall (w : World) (c : Caller) (e : PipeEvent) :
    (w.recordCall c e).state = w.state.recordCall c e := rfl

@[simp] theorem call_setChild (w : World) (c : Caller) (child : Child) :
    (w.setChild child).call c = w.call c := by cases c <;> rfl

@[simp] theorem state_setChild (w : World) (child : Child) :
    (w.setChild child).state = { w.state with child := some child } := rfl

@[simp] theorem call_withState (w : World) (c : Caller) (s : State) :
    ({ w with state := s } : World).call c = w.call c := by cases c <;> rfl

/-- A world with one call. -/
def single (s : State) (c : Caller) (k : Call) : World := setCall ⟨s, .idle, .idle⟩ c k

@[simp] theorem state_single (s : State) (c : Caller) (k : Call) : (single s c k).state = s :=
  state_setCall ..

@[simp] theorem call_single (s : State) (c : Caller) (k : Call) : (single s c k).call c = k :=
  call_setCall ..

/-- A world with the call of one caller only. -/
def focus (w : World) (c : Caller) : World := single w.state c (w.call c)

@[simp] theorem state_focus (w : World) (c : Caller) : (w.focus c).state = w.state :=
  state_single ..

@[simp] theorem call_focus (w : World) (c : Caller) : (w.focus c).call c = w.call c :=
  call_single ..

@[simp] theorem focus_focus (w : World) (c : Caller) : (w.focus c).focus c = w.focus c := by
  cases c <;> rfl

/-! ### A step concerns its owner only -/

/-- The world in which a caller has gone on as in another world. -/
def lift (w : World) (c : Caller) (v : World) : World :=
  setCall { w with state := v.state } c (v.call c)

@[simp] theorem call_other_lift (w : World) (c : Caller) (v : World) :
    (w.lift c v).call c.other = w.call c.other := by
  simp [lift]

section Lift

variable (w v : World) (c : Caller)

@[simp] theorem lift_focus : w.lift c (w.focus c) = w := by cases c <;> rfl

@[simp] theorem lift_setCall (k : Call) :
    w.lift c (v.setCall c k) = (w.lift c v).setCall c k := by cases c <;> rfl

@[simp] theorem lift_goto (p : Phase) : w.lift c (v.goto c p) = (w.lift c v).goto c p := by
  cases c <;> rfl

@[simp] theorem lift_setTimer (t : Timer) :
    w.lift c (v.setTimer c t) = (w.lift c v).setTimer c t := by cases c <;> rfl

@[simp] theorem lift_record (h : Happening) :
    w.lift c (v.record h) = (w.lift c v).record h := by cases c <;> rfl

@[simp] theorem lift_recordCall (e : PipeEvent) :
    w.lift c (v.recordCall c e) = (w.lift c v).recordCall c e := by cases c <;> rfl

@[simp] theorem lift_setChild (child : Child) :
    w.lift c (v.setChild child) = (w.lift c v).setChild child := by cases c <;> rfl

@[simp] theorem lift_withState (s : State) :
    w.lift c { v with state := s } = { w.lift c v with state := s } := by cases c <;> rfl

@[simp] theorem lift_beginSalvage (m : Mishap) :
    w.lift c (v.beginSalvage c m) = (w.lift c v).beginSalvage c m := by simp [beginSalvage]

theorem enter_lift (content : Text) (deadline : Option Seconds) :
    w.enter c content deadline = w.lift c ((w.focus c).enter c content deadline) := by
  simp only [enter, state_focus, call_focus]
  cases requestFor w.state content <;> simp

theorem acquire_lift (request : Request) :
    w.acquire c request = ((w.focus c).acquire c request).map (w.lift c) := by
  simp only [acquire, state_focus]
  cases w.state.holder with
  | some _ => rfl
  | none => by_cases hr : w.state.running = true <;> simp [hr]

theorem beginWrite_lift (request : Request) :
    w.beginWrite c request = w.lift c ((w.focus c).beginWrite c request) := by
  unfold beginWrite
  cases Frame.ofRequest request <;> simp

theorem endWrite_lift (frame : Bytes) :
    w.endWrite c frame = ((w.focus c).endWrite c frame).map (w.lift c) := by
  simp only [endWrite, state_focus]
  cases w.state.child with
  | none => rfl
  | some child =>
    by_cases hg : child.mayEnd child.outlet.nextWrite = true
    · cases hm : child.outlet.nextWrite.mishap <;> simp [hg, hm]
    · simp [hg]

theorem endFlush_lift (frame : Bytes) :
    w.endFlush c frame = ((w.focus c).endFlush c frame).map (w.lift c) := by
  simp only [endFlush, state_focus]
  cases w.state.child with
  | none => rfl
  | some child =>
    by_cases hg : child.mayEnd child.outlet.nextFlush = true
    · cases hm : child.outlet.nextFlush.mishap <;> simp [hg, hm]
    · simp [hg]

theorem endRead_lift : w.endRead c = ((w.focus c).endRead c).map (w.lift c) := by
  simp only [endRead, state_focus]
  cases w.state.child with
  | none => rfl
  | some child =>
    cases hp : Inlet.pull child.isOpen child.inlet.items with
    | none => simp [hp]
    | some result =>
      obtain ⟨line | line, items⟩ := result
      · simp [hp]
      · by_cases hb : Frame.isBlank line = true <;> simp [hp, hb]

theorem endSalvage_lift (m : Mishap) :
    w.endSalvage c m = ((w.focus c).endSalvage c m).map (w.lift c) := by
  simp only [endSalvage, state_focus]
  cases w.state.child with
  | none => rfl
  | some child =>
    cases hp : Inlet.pull child.isOpen child.inlet.items with
    | none => simp [hp]
    | some result => obtain ⟨line | line, items⟩ := result <;> simp [hp]

theorem cancel_lift (exchange : Exchange) :
    w.cancel c exchange = w.lift c ((w.focus c).cancel c exchange) := by
  simp only [cancel, call_focus]
  by_cases ht : (w.call c).timer = .pending <;> simp [ht]

theorem leave_lift (exchange : Exchange) :
    w.leave c exchange = ((w.focus c).leave c exchange).map (w.lift c) := by
  simp only [leave, call_focus, state_focus]
  by_cases ht : (w.call c).timer.isBusy = true <;> simp [ht]

theorem goOff_lift : w.goOff c = w.lift c ((w.focus c).goOff c) := by
  simp only [goOff, state_focus]
  cases w.state.child <;> simp

theorem note_lift : w.note c = ((w.focus c).note c).map (w.lift c) := by
  simp only [note, state_focus, call_focus]
  cases w.state.child <;> cases (w.call c).deadline <;> simp

theorem strike_lift : w.strike c = ((w.focus c).strike c).map (w.lift c) := by
  simp only [strike, state_focus]
  cases w.state.child <;> simp

end Lift

/-- A step is the step of its owner with the other caller taken away. -/
theorem step_lift (w : World) (a : Actor) :
    w.step a = ((w.focus a.owner).step a).map (w.lift a.owner) := by
  cases a with
  | caller c =>
    simp only [step, stepCaller, Actor.owner, call_focus]
    cases (w.call c).phase with
    | idle => rfl
    | entering content deadline => exact congrArg some (w.enter_lift c content deadline)
    | queued request => exact w.acquire_lift c request
    | sending request => exact congrArg some (w.beginWrite_lift c request)
    | writing frame => exact w.endWrite_lift c frame
    | flushing frame => exact w.endFlush_lift c frame
    | reading => exact w.endRead_lift c
    | salvaging m => exact w.endSalvage_lift c m
    | concluding exchange => simp
    | cancelling exchange => exact congrArg some (w.cancel_lift c exchange)
    | leaving exchange => exact w.leave_lift c exchange
    | done answer => rfl
  | timer c =>
    simp only [step, stepTimer, Actor.owner, call_focus]
    cases (w.call c).timer with
    | pending => exact congrArg some (w.goOff_lift c)
    | polled => exact w.note_lift c
    | noted => exact w.strike_lift c
    | _ => rfl

/-- A step leaves the call of the other caller as it is. -/
theorem call_other_of_step {w w' : World} {a : Actor} (h : w.step a = some w') :
    w'.call a.owner.other = w.call a.owner.other := by
  rw [step_lift] at h
  obtain ⟨v, -, rfl⟩ := Option.map_eq_some_iff.mp h
  exact call_other_lift ..

theorem focus_lift (w v : World) (c : Caller) : (w.lift c v).focus c = (w.focus c).lift c v := by
  cases c <;> rfl

/-- A step can be taken with the other caller taken away. -/
theorem step_focus {w w' : World} {a : Actor} (h : w.step a = some w') :
    (w.focus a.owner).step a = some (w'.focus a.owner) := by
  rw [step_lift] at h
  obtain ⟨v, hv, rfl⟩ := Option.map_eq_some_iff.mp h
  -- a world with one call is left as it is when the other caller is taken away once more
  have hself := step_lift (w.focus a.owner) a
  rw [focus_focus, hv, Option.map_some] at hself
  rw [hv, focus_lift, ← Option.some.inj hself]

/-! ### Moves -/

/-- A move of a world: a step of an actor. -/
def Move (w w' : World) : Prop := ∃ a, w.step a = some w'

/-- Moves one after the other: the second world is reached from the first in some interleaving. -/
abbrev Moves : World → World → Prop := Relation.ReflTransGen Move

theorem moves_settle (w : World) (order : List Actor) (bound : Nat) :
    Moves w (w.settle order bound) := by
  induction bound generalizing w with
  | zero => exact .refl
  | succ bound ih =>
    unfold settle
    cases hw : w.advance order with
    | none => exact .refl
    | some v =>
      obtain ⟨a, -, ha⟩ := List.exists_of_findSome?_eq_some hw
      exact .head ⟨a, ha⟩ (ih v)

/-- A request alone, as a session makes it, is one of its interleavings. -/
theorem moves_alone (s : State) (content : Text) (deadline : Option Seconds) :
    Moves (single s .first (.entering content deadline)) (alone s content deadline) :=
  moves_settle ..

/-- Two requests, as a session makes them, are one of their interleavings. -/
theorem moves_together (s : State) (content₁ : Text) (deadline₁ : Option Seconds)
    (content₂ : Text) (deadline₂ : Option Seconds) :
    Moves ⟨s, .entering content₁ deadline₁, .entering content₂ deadline₂⟩
      (together s content₁ deadline₁ content₂ deadline₂) :=
  ((moves_settle ..).trans (moves_settle ..)).trans (moves_settle ..)

end World

end ParserClient
