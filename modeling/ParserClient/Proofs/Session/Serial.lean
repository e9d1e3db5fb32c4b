import ParserClient.Proofs.Session.Alone

/-!
# Two requests at the same time

Of two calls that are made at the same time one goes first, and the other waits in front of the
mutex until the first is over. A call in front of the mutex has changed nothing, and what it has
found out, its request, is found out again from the state behind the first call if the session still
runs; if it does not, the call is turned away, as it would have been there. A call for which there
is no request goes first, wherever it stands: it has changed nothing and sees the state before.

## Main definitions

* `World.asking` — two callers begin to ask.
* `Serial` — how far two calls have come.
* `Ordered` — two calls are made one after the other.

## Main results

* `serial_of_moves` — every interleaving of two calls is serial.
* `Serial.ordered`, `answers_of_moves` — the calls on the pipes, and the answers, are those of the
  two calls made one after the other.
-/

namespace ParserClient

namespace World

/-- A world in which both callers begin to ask. -/
def asking (s : State) (q : Caller → Ask) : World :=
  ⟨s, (q .first).call, (q .second).call⟩

variable {s : State} {c : Caller} {q : Caller → Ask}

@[simp] theorem call_asking : (asking s q).call c = (q c).call := by cases c <;> rfl

end World

/-- How far two calls have come which began in the state `s`. -/
inductive Serial (s : State) (q : Caller → Ask) (w : World) : Prop
  /-- The caller `c` has gone on by itself, and the other is in front of the mutex. -/
  | ahead (c : Caller) (moves : World.Moves (World.single s c (q c).call) (w.focus c))
      (waits : (w.call c.other).Waits s (q c.other))
  /-- The caller `c` has its answer, and the other has gone on by itself from there. -/
  | behind (c : Caller) {a : Answer} {mid : State} (answers : s.Answers c (q c) a mid)
      (phase : (w.call c).phase = .done a) (rest : (w.call c).AtRest)
      (moves : World.Moves (World.single mid c.other (q c.other).call) (w.focus c.other))
  /-- The caller `c` has its answer and has stopped the session, and the other, which had made its
  request before, has been turned away at the mutex. -/
  | turned (c : Caller) {a : Answer} (answers : s.Answers c (q c) a w.state)
      (phase : (w.call c).phase = .done a) (rest : (w.call c).AtRest)
      (stopped : w.state.running = false)
      (turned : (w.call c.other).phase = .done (.error .notRunning))
      (rest' : (w.call c.other).AtRest)

namespace Progress

variable {s s' : State} {c : Caller} {q : Ask} {k : Call}

theorem client (h : Progress s c q s' k) : s'.client = s.client := by
  cases h with
  | waiting same _ => rw [same]
  | inside _ inside => exact inside.client
  | served _ served _ _ => exact served.client

/-- The session runs on until the call has its answer. -/
theorem running_or_done (h : Progress s c q s' k) :
    s'.running = s.running ∨ ∃ a, k.phase = .done a ∧ k.AtRest := by
  cases h with
  | waiting same _ => exact .inl (by rw [same])
  | inside _ inside => exact .inl inside.running
  | served _ served phase timer => exact .inr ⟨_, phase, served.atRest phase timer⟩

end Progress

namespace World

variable {s : State} {q : Caller → Ask} {c : Caller} {w w' : World}

/-- A call in front of the mutex has come there by itself, from any state that admits it there. -/
theorem moves_focus_of_waits {q : Ask} (hwaits : (w.call c).Waits w.state q) :
    Moves (single w.state c q.call) (w.focus c) := moves_of_waits hwaits

/-- The state and the call of `c` as they are in another world. -/
theorem focus_congr (hstate : w'.state = w.state) (hcall : w'.call c = w.call c) :
    w'.focus c = w.focus c := by
  rw [focus, hstate, hcall, focus]

/-! ### One move -/

/-- The call in front of the mutex begins. -/
theorem serial_of_enter (hs : s.Quiet) (hmoves : Moves (single s c (q c).call) (w.focus c))
    (hk : w.call c.other = (q c.other).call)
    (hw : w' = w.enter c.other (q c.other).content (q c.other).deadline)
    (hcall : w'.call c = w.call c) : Serial s q w' := by
  obtain ⟨hstate, hwaits⟩ := waits_enter hk
  rw [← hw] at hstate hwaits
  have hprogress := (progress_of_moves hs hmoves).1
  rw [state_focus, call_focus] at hprogress
  rcases hprogress.running_or_done with hrunning | ⟨a, hphase, hrest⟩
  · refine .ahead c ?_ (hwaits.congr hprogress.client.symm hrunning.symm)
    rwa [focus_congr hstate hcall]
  · refine .behind c (State.answers_of_focus hmoves (Call.answer?_of_phase hphase))
      (by rwa [hcall]) (by rwa [hcall]) ?_
    rw [← hstate] at hwaits ⊢
    exact moves_focus_of_waits hwaits

/-- The call in front of the mutex takes it, or is turned away. -/
theorem serial_of_acquire {r : Request} (hs : s.Quiet)
    (hmoves : Moves (single s c (q c).call) (w.focus c))
    (hwaits : (w.call c.other).Waits s (q c.other))
    (hr : requestFor s (q c.other).content = .ok r)
    (hacquire : w.acquire c.other r = some w') (hmove : Move (w.focus c.other) (w'.focus c.other))
    (hcall : w'.call c = w.call c) : Serial s q w' := by
  have hprogress := (progress_of_moves hs hmoves).1
  rw [state_focus, call_focus] at hprogress
  cases hprogress with
  | waiting same waits =>
    subst same
    refine .ahead c.other ((moves_focus_of_waits hwaits).tail hmove) ?_
    rwa [Caller.other_other, hcall]
  | inside _ inside =>
    rw [acquire_of_held inside.holder] at hacquire
    cases hacquire
  | served _ served phase timer =>
    have hanswers := State.answers_of_focus hmoves (Call.answer?_of_phase phase)
    have hrest := served.atRest phase timer
    by_cases hrun : w.state.running = true
    · have hsame : w.state.running = s.running := hrun.trans (running_of_requestFor hr).symm
      refine .behind c hanswers (by rwa [hcall]) (by rwa [hcall]) ?_
      exact (moves_focus_of_waits (hwaits.congr served.client hsame)).tail hmove
    · rw [Bool.not_eq_true] at hrun
      rw [acquire_of_stopped served.holder hrun, Option.some.injEq] at hacquire
      subst hacquire
      refine .turned c ?_ (by rwa [hcall]) (by rwa [hcall]) ?_ ?_ ?_
      · rwa [state_goto]
      · rwa [state_goto]
      · rw [call_goto]
      · rw [call_goto]
        exact ⟨.inr ⟨_, rfl⟩, .inl hwaits.timer⟩

end World

namespace Serial

open World

variable {s : State} {q : Caller → Ask} {w w' : World}

theorem step {a : Actor} (hs : s.Quiet) (h : Serial s q w) (hstep : w.step a = some w') :
    Serial s q w' := by
  have hother := call_other_of_step hstep
  have hfocus := step_focus hstep
  cases h with
  | ahead c moves waits =>
    rcases c.eq_or_eq_other a.owner with ha | ha
    · rw [ha] at hother hfocus
      exact .ahead c (moves.tail ⟨a, hfocus⟩) (by rwa [hother])
    · rw [ha, Caller.other_other] at hother
      rw [ha] at hfocus
      rcases step_of_waits (ha ▸ waits) hstep with ⟨hk, hw⟩ | ⟨r, hr, -, hacquire⟩
      · rw [ha] at hk hw
        exact serial_of_enter hs moves hk hw hother
      · rw [ha] at hr hacquire
        exact serial_of_acquire hs moves waits hr hacquire ⟨a, hfocus⟩ hother
  | behind c answers phase rest moves =>
    rcases c.eq_or_eq_other a.owner with ha | ha
    · rw [step_eq_none_of_atRest (ha ▸ rest)] at hstep
      cases hstep
    · rw [ha, Caller.other_other] at hother
      rw [ha] at hfocus
      exact .behind c answers (by rwa [hother]) (by rwa [hother]) (moves.tail ⟨a, hfocus⟩)
  | turned c answers phase rest stopped turned rest' =>
    rcases c.eq_or_eq_other a.owner with ha | ha
    · rw [step_eq_none_of_atRest (ha ▸ rest)] at hstep
      cases hstep
    · rw [step_eq_none_of_atRest (ha ▸ rest')] at hstep
      cases hstep

end Serial

/-- Every interleaving of two calls and of their timers is serial. -/
theorem serial_of_moves {s : State} {q : Caller → Ask} {w : World} (hs : s.Quiet)
    (h : World.Moves (World.asking s q) w) : Serial s q w := by
  induction h with
  | refl =>
    have hwaits (c : Caller) :
        ((World.asking s q).call c).Waits (World.asking s q).state (q c) := by
      rw [World.call_asking]
      exact .entering
    exact .ahead .first (World.moves_focus_of_waits (hwaits .first)) (hwaits .second)
  | tail _ hmove ih =>
    obtain ⟨a, hstep⟩ := hmove
    exact ih.step hs hstep

/-! ### One call after the other -/

/-- All calls on the pipes among the happenings are made by `c`. -/
def CallsBy (c : Caller) (t : List Happening) : Prop := ∀ life d e, .call life d e ∈ t → d = c

/-- From the state `s` to the state `s'` calls on the pipes are made by `c` only. -/
def State.Extended (s : State) (c : Caller) (s' : State) : Prop :=
  ∃ t, s'.trace = s.trace ++ t ∧ CallsBy c t

/-- Two calls are made one after the other: that of `c` leads to the state `mid`, and that of the
other from there to the state of the world. -/
structure Ordered (s : State) (q : Caller → Ask) (w : World) (c : Caller) (mid : State) : Prop where
  first : s.Extended c mid
  second : mid.Extended c.other w.state
  answers : ∀ a : Caller → Answer, (∀ d, (w.call d).answer? = some (a d)) →
    s.Answers c (q c) (a c) mid ∧ mid.Answers c.other (q c.other) (a c.other) w.state

namespace State

variable {s s' : State} {c : Caller} {q : Ask} {a : Answer}

theorem extended_of_trace (h : s'.trace = s.trace) : s.Extended c s' :=
  ⟨[], by rw [h, List.append_nil], by simp [CallsBy]⟩

theorem extended_of_within {u t : List Happening} (hu : ∀ h ∈ u, h.Within s.lives c)
    (ht : s'.trace = s.trace ++ t) (hmem : ∀ life d e, .call life d e ∈ t → .call life d e ∈ u) :
    s.Extended c s' :=
  ⟨t, ht, fun life d e h => (hu _ (hmem life d e h)).2⟩

end State

theorem Progress.extended {s s' : State} {c : Caller} {q : Ask} {k : Call}
    (h : Progress s c q s' k) : s.Extended c s' := by
  cases h with
  | waiting same _ => exact State.extended_of_trace (by rw [same])
  | inside _ inside => exact State.extended_of_within inside.within inside.trace (by simp)
  | served _ served _ _ => exact State.extended_of_within served.within served.trace (by simp)

theorem State.Answers.extended {s s' : State} {c : Caller} {q : Ask} {a : Answer} (hs : s.Quiet)
    (h : s.Answers c q a s') : s.Extended c s' := by
  obtain ⟨w, hw, -, rfl⟩ := h
  exact (World.progress_of_moves hs hw).1.extended

/-- Two calls are made one after the other in every interleaving; two answers, and the state behind
them, are those of the two calls made so. -/
theorem Serial.ordered {s : State} {q : Caller → Ask} {w : World} (hs : s.Quiet)
    (h : Serial s q w) : ∃ c mid, Ordered s q w c mid := by
  cases h with
  | ahead c moves waits =>
    -- the call in front of the mutex has changed nothing, so it may have been the first
    have hprogress := (World.progress_of_moves hs moves).1
    rw [World.state_focus, World.call_focus] at hprogress
    refine ⟨c.other, s, State.extended_of_trace rfl, ?_, fun a ha => ?_⟩
    · rw [Caller.other_other]
      exact hprogress.extended
    · obtain ⟨-, f, hf, hr⟩ := waits.atRest (Call.phase_of_answer? (ha c.other))
      rw [hf, Caller.other_other]
      exact ⟨State.answers_of_requestFor hr, State.answers_of_focus moves (ha c)⟩
  | @behind c a' mid answers phase rest moves =>
    have hprogress := (World.progress_of_moves (answers.quiet hs) moves).1
    rw [World.state_focus, World.call_focus] at hprogress
    refine ⟨c, mid, answers.extended hs, hprogress.extended, fun a ha => ?_⟩
    rw [Call.phase_of_answer? (ha c)] at phase
    exact ⟨Phase.done.inj phase ▸ answers, State.answers_of_focus moves (ha c.other)⟩
  | turned c answers phase rest stopped turned rest' =>
    refine ⟨c, w.state, answers.extended hs, State.extended_of_trace rfl, fun a ha => ?_⟩
    rw [Call.phase_of_answer? (ha c)] at phase
    rw [Call.phase_of_answer? (ha c.other)] at turned
    refine ⟨Phase.done.inj phase ▸ answers, ?_⟩
    rw [Phase.done.inj turned]
    exact State.answers_of_requestFor (World.requestFor_of_stopped stopped _)

/-- Two answers are those of the two calls made one after the other. -/
theorem answers_of_moves {s : State} {q : Caller → Ask} {w : World} {a : Caller → Answer}
    (hs : s.Quiet) (h : World.Moves (World.asking s q) w)
    (ha : ∀ d, (w.call d).answer? = some (a d)) :
    ∃ c mid, s.Answers c (q c) (a c) mid ∧
      mid.Answers c.other (q c.other) (a c.other) w.state := by
  obtain ⟨c, mid, hordered⟩ := (serial_of_moves hs h).ordered hs
  exact ⟨c, mid, hordered.answers a ha⟩

end ParserClient
