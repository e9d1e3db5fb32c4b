import ParserClient.Proofs.Session.Lives

/-!
# What closing a session does

Closing lets go of the child first, and then makes three steps: it closes the pipe to the child,
waits for the child and closes the pipe from it. All three are made, whatever the system refuses,
and the first fault is raised behind them, if closing the pipe to the child and waiting for it are
not misused. A misuse in one of these two steps is raised at once: the steps behind it are not
made, a fault in front of it is lost, and the session has no child any more with which they could be
made later.

## Main definitions

* `Child.closingFaults` — the faults of the three steps, in order.
* `State.Closes` — the steps that are made, and what closing comes to.

## Main results

* `State.closes_close` — what closing does to a session with a child.
* `State.close_of_tame`, `State.closes_of_not_tame` — with no step misused, and with one.
* `closing_complete_iff` — when all three steps are made, and what is raised then.
-/

namespace ParserClient

namespace Child

variable (ch : Child)

/-- The fault of closing the pipe to a child. -/
def outletFault : Option Fault := ch.outlet.close.map .mishap

/-- The fault of waiting for a child: a mishap, or an exit code other than zero of a child that no
deadline has killed. -/
def waitFault (killed : Bool) : Option Fault :=
  match ch.waitResult with
  | .error m => some (.mishap m)
  | .ok code => if code ≠ 0 ∧ killed = false then some (.exited code) else none

/-- The faults of the steps of closing, in order. -/
def closingFaults (killed : Bool) : List Fault :=
  [ch.outletFault, ch.waitFault killed, State.inletFault ch.inlet.close].filterMap id

theorem head?_closingFaults (killed : Bool) :
    (ch.closingFaults killed).head? =
      (ch.outletFault.or (ch.waitFault killed)).or (State.inletFault ch.inlet.close) := by
  unfold closingFaults
  cases ch.outletFault <;> cases ch.waitFault killed <;>
    cases State.inletFault ch.inlet.close <;> rfl

end Child

namespace State

/-- Closing a session with the child makes the steps and comes to the result. -/
inductive Closes (s : State) (child : Child) : List Happening → Except Fault Unit → Prop
  /-- Closing the pipe to the child is misused. -/
  | outlet {text : Text} (h : child.outlet.close = some (.misused text)) :
      Closes s child [.closeOutlet s.lives] (.error (.mishap (.misused text)))
  /-- Waiting for the child is misused. -/
  | wait {text : Text} (houtlet : ∀ t, child.outlet.close ≠ some (.misused t))
      (h : child.waitMishap = some (.misused text)) :
      Closes s child [.closeOutlet s.lives, .wait s.lives] (.error (.mishap (.misused text)))
  /-- All steps are made, and the first fault is raised. -/
  | complete (h : child.Tame) :
      Closes s child (closing s.lives) (resultOf (child.closingFaults s.killed).head?)

variable {s : State} {child : Child}

theorem Closes.steps_prefix {steps : List Happening} {result : Except Fault Unit}
    (h : s.Closes child steps result) : steps <+: closing s.lives := by
  cases h with
  | outlet => exact ⟨[.wait s.lives, .closeInlet s.lives], rfl⟩
  | wait => exact ⟨[.closeInlet s.lives], rfl⟩
  | complete => exact List.prefix_rfl

/-- Waiting, if it is not misused, and closing the pipe from the child behind it. -/
theorem waitAndClose_of_tame (fault : Option Fault)
    (hwait : ∀ text, child.waitMishap ≠ some (.misused text)) :
    s.waitAndClose child fault =
      (resultOf ((fault.or (child.waitFault s.killed)).or (inletFault child.inlet.close)),
        { s with trace := s.trace ++ [.wait s.lives, .closeInlet s.lives] }) := by
  have hrecord : (s.record (.wait s.lives)).record (.closeInlet s.lives) =
      { s with trace := s.trace ++ [.wait s.lives, .closeInlet s.lives] } := by
    simp [record]
  rw [← hrecord]
  unfold waitAndClose Child.waitFault Child.waitResult
  cases hmishap : child.waitMishap with
  | none => rfl
  | some m =>
    cases m with
    | misused text => exact absurd hmishap (hwait text)
    | refused r => rfl

theorem waitAndClose_of_misused (fault : Option Fault) {text : Text}
    (hwait : child.waitMishap = some (.misused text)) :
    s.waitAndClose child fault =
      (.error (.mishap (.misused text)), { s with trace := s.trace ++ [.wait s.lives] }) := by
  simp only [waitAndClose, Child.waitResult, hwait, record]

/-- Closing goes on to wait for the child if closing the pipe to it is not misused. -/
theorem close_of_outlet (hchild : s.child = some child)
    (houtlet : ∀ text, child.outlet.close ≠ some (.misused text)) :
    s.close = (({ s with running := false, child := none } : State).record
      (.closeOutlet s.lives)).waitAndClose child child.outletFault := by
  unfold Child.outletFault
  cases hclose : child.outlet.close with
  | none => simp only [close, hchild, hclose, Option.map_none]
  | some m =>
    cases m with
    | misused text => exact absurd hclose (houtlet text)
    | refused r => simp only [close, hchild, hclose, Option.map_some]

/-- Closing lets the child go, and makes some of the steps. -/
theorem closes_close (hchild : s.child = some child) :
    ∃ steps result, s.Closes child steps result ∧
      s.close =
        (result, { s with running := false, child := none, trace := s.trace ++ steps }) := by
  by_cases houtlet : ∀ text, child.outlet.close ≠ some (.misused text)
  · rw [close_of_outlet hchild houtlet]
    by_cases hwait : ∀ text, child.waitMishap ≠ some (.misused text)
    · refine ⟨_, _, .complete ⟨houtlet, hwait⟩, ?_⟩
      rw [waitAndClose_of_tame _ hwait, child.head?_closingFaults]
      simp [record, closing]
    · obtain ⟨text, htext⟩ := not_forall_not.mp hwait
      refine ⟨_, _, .wait houtlet htext, ?_⟩
      rw [waitAndClose_of_misused _ htext]
      simp [record]
  · obtain ⟨text, htext⟩ := not_forall_not.mp houtlet
    refine ⟨_, _, .outlet htext, ?_⟩
    simp only [close, hchild, htext, record]

/-- Closing makes all steps and comes to their first fault if none is misused. -/
theorem close_of_tame (hchild : s.child = some child) (htame : child.Tame) :
    s.close = (resultOf (child.closingFaults s.killed).head?,
      { s with running := false, child := none, trace := s.trace ++ closing s.lives }) := by
  obtain ⟨steps, result, hcloses, hclose⟩ := closes_close hchild
  rw [hclose]
  cases hcloses with
  | outlet h => exact absurd h (htame.close _)
  | wait _ h => exact absurd h (htame.wait _)
  | complete _ => rfl

/-- Closing comes to a misuse if one of the steps is misused. -/
theorem closes_of_not_tame (hchild : s.child = some child) (hmisused : ¬ child.Tame) :
    ∃ steps text, s.Closes child steps (.error (.mishap (.misused text))) ∧
      s.close = (.error (.mishap (.misused text)),
        { s with running := false, child := none, trace := s.trace ++ steps }) := by
  obtain ⟨steps, result, hcloses, hclose⟩ := closes_close hchild
  cases hcloses with
  | outlet h => exact ⟨_, _, .outlet h, hclose⟩
  | wait houtlet h => exact ⟨_, _, .wait houtlet h, hclose⟩
  | complete h => exact absurd h hmisused

end State

/-- A session with a child is closed. The child is let go and the session does not run. All three
steps are made, in order, exactly if neither closing the pipe to the child nor waiting for it is
misused; the first fault of the three is raised then, a pipe from the child that is closed already
not counting. Otherwise the misuse is raised, and nothing is done behind it. -/
theorem closing_complete_iff {s : State} {child : Child} (hchild : s.child = some child) :
    s.close.2.child = none ∧ s.close.2.running = false ∧
      (s.close.2.trace = s.trace ++ closing s.lives ↔ child.Tame) ∧
      (child.Tame → s.close.1 = State.resultOf (child.closingFaults s.killed).head?) ∧
      ∃ steps, s.Closes child steps s.close.1 ∧ s.close.2.trace = s.trace ++ steps := by
  obtain ⟨steps, result, hcloses, hclose⟩ := State.closes_close hchild
  simp only [hclose]
  refine ⟨trivial, trivial, ?_, fun htame => ?_, steps, hcloses, rfl⟩
  · rw [List.append_cancel_left_eq]
    cases hcloses with
    | outlet h => exact iff_of_false (by simp [closing]) fun ht => ht.close _ h
    | wait _ h => exact iff_of_false (by simp [closing]) fun ht => ht.wait _ h
    | complete h => exact iff_of_true rfl h
  · have hresult := State.close_of_tame hchild htame
    rw [hclose] at hresult
    exact congrArg Prod.fst hresult

/-- A child each step of whose closing fails in a way that is no misuse. -/
def Child.resisting : Child :=
  { Child.following [] [] with
    outlet := ⟨[], [], some (.refused ⟨32, "Broken pipe", none⟩)⟩
    inlet := ⟨[], some (.refused ⟨5, "I/O error", none⟩), .standard⟩
    code := 2 }

theorem resisting_closed :
    let s := State.started .resisting
    (∃ launches episodes, Session .standard launches episodes s) ∧ s.child = some .resisting ∧
      s.close.2.trace = s.trace ++ closing s.lives ∧
      s.close.1 = .error (.mishap (.refused ⟨32, "Broken pipe", none⟩)) := by
  intro s
  have htame : Child.Tame .resisting := ⟨fun _ => nofun, fun _ => nofun⟩
  have hchild : s.child = some .resisting := rfl
  obtain ⟨-, -, hall, hresult, -⟩ := closing_complete_iff hchild
  exact ⟨⟨_, _, session_started .resisting⟩, hchild, hall.mpr htame, hresult htame⟩

/-- A child whose pipe finds the flush misused with which closing it begins. -/
def Child.leaking : Child :=
  { Child.following [] [] with outlet := ⟨[], [], some (.misused "flush of closed file")⟩ }

/-- It is not so that closing a session with a child always makes all three steps. -/
theorem not_always_closed :
    ¬ ∀ (client : Client) (launches : List Launch) (episodes : List Episode) (s : State),
      Session client launches episodes s → s.child.isSome = true →
        s.close.2.trace = s.trace ++ closing s.lives := by
  intro hall
  have hclosed := hall _ _ _ _ (session_started .leaking) rfl
  exact absurd (congrArg List.length hclosed) (by decide)

end ParserClient
