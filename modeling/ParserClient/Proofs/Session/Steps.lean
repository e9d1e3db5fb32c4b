import ParserClient.Session.World

/-!
# What a step comes to

A step that waits at a gate, at the mutex or for a timer is not taken. For every step that may wait,
this file says what the world is once it has been taken; what is proved about steps elsewhere is
proved from these statements, so that the steps themselves need not be opened again.

## Main results

* `World.endWrite_eq_some`, `World.endFlush_eq_some`, `World.endRead_eq_some`,
  `World.endSalvage_eq_some`, `World.leave_eq_some` — the steps of a caller inside a call.
* `World.acquire_of_held`, `World.acquire_of_stopped`, `World.acquire_of_free` — taking the mutex.
* `World.note_eq_some`, `World.strike_eq_some` — the steps of a timer.
* `World.requestFor_eq_error`, `Reply.answer_eq_error`, `World.judged_eq_error` — where the fault of
  an answer comes from.
-/

namespace ParserClient

namespace World

variable {w w' : World} {c : Caller}

/-! ### Taking the mutex -/

theorem acquire_of_held {r : Request} {d : Caller} (h : w.state.holder = some d) :
    w.acquire c r = none := by
  simp only [acquire, h]

theorem acquire_of_stopped {r : Request} (hfree : w.state.holder = none)
    (hstopped : w.state.running = false) :
    w.acquire c r = some (w.goto c (.done (.error .notRunning))) := by
  simp [acquire, hfree, hstopped]

/-- The state of a session whose mutex a caller has just taken. -/
theorem acquire_of_free {r : Request} (hfree : w.state.holder = none)
    (hrun : w.state.running = true) :
    w.acquire c r =
      some (({ w with state := { w.state with holder := some c } }.record (.acquire c)).setCall c
        { w.call c with
          phase := .sending r
          timer := if (w.call c).deadline.isSome then .pending else .off }) := by
  cases c <;> simp [acquire, hfree, hrun] <;> rfl

/-! ### Calls on the pipes -/

theorem endWrite_eq_some {frame : Bytes} (h : w.endWrite c frame = some w') :
    ∃ child, w.state.child = some child ∧
      ((∃ m, child.outlet.nextWrite.mishap = some m ∧
          w' = (w.setChild child.afterWrite).beginSalvage c m) ∨
        child.outlet.nextWrite.mishap = none ∧
          w' = ((w.setChild child.afterWrite).recordCall c .flush).goto c (.flushing frame)) := by
  unfold endWrite at h
  cases hchild : w.state.child with
  | none => simp [hchild] at h
  | some child =>
    refine ⟨child, rfl, ?_⟩
    simp only [hchild] at h
    by_cases hend : child.mayEnd child.outlet.nextWrite = true
    · rw [if_pos hend] at h
      cases hm : child.outlet.nextWrite.mishap with
      | some m => exact .inl ⟨m, rfl, by simpa [hm] using h.symm⟩
      | none => exact .inr ⟨rfl, by simpa [hm] using h.symm⟩
    · rw [if_neg hend] at h
      cases h

theorem endFlush_eq_some {frame : Bytes} (h : w.endFlush c frame = some w') :
    ∃ child, w.state.child = some child ∧
      ((∃ m, child.outlet.nextFlush.mishap = some m ∧
          w' = (w.setChild (child.afterFlush frame false)).beginSalvage c m) ∨
        child.outlet.nextFlush.mishap = none ∧
          w' = ((w.setChild (child.afterFlush frame true)).recordCall c .readline).goto c
            .reading) := by
  unfold endFlush at h
  cases hchild : w.state.child with
  | none => simp [hchild] at h
  | some child =>
    refine ⟨child, rfl, ?_⟩
    simp only [hchild] at h
    by_cases hend : child.mayEnd child.outlet.nextFlush = true
    · rw [if_pos hend] at h
      cases hm : child.outlet.nextFlush.mishap with
      | some m => exact .inl ⟨m, rfl, by simpa [hm] using h.symm⟩
      | none => exact .inr ⟨rfl, by simpa [hm] using h.symm⟩
    · rw [if_neg hend] at h
      cases h

/-- A reading call has taken items off the output of the child. -/
theorem endRead_eq_some (h : w.endRead c = some w') :
    ∃ child result items, w.state.child = some child ∧
      Inlet.pull child.isOpen child.inlet.items = some (result, items) ∧
      ((∃ f, result = .error f ∧
          w' = (w.setChild (child.withItems items)).goto c (.concluding (.error (.frame f)))) ∨
        ∃ line, result = .ok line ∧
          (Frame.isBlank line = true ∧
              w' = (w.setChild (child.withItems items)).recordCall c .readline ∨
            Frame.isBlank line = false ∧
              w' = (w.setChild (child.withItems items)).goto c
                (.concluding (Frame.readReply child.inlet.room line)))) := by
  unfold endRead at h
  cases hchild : w.state.child with
  | none => simp [hchild] at h
  | some child =>
    cases hpull : Inlet.pull child.isOpen child.inlet.items with
    | none => simp [hchild, hpull] at h
    | some pulled =>
      obtain ⟨result, items⟩ := pulled
      refine ⟨child, result, items, rfl, hpull, ?_⟩
      simp only [hchild, hpull] at h
      cases result with
      | error f => exact .inl ⟨f, rfl, (Option.some.inj h).symm⟩
      | ok line =>
        refine .inr ⟨line, rfl, ?_⟩
        by_cases hblank : Frame.isBlank line = true
        · exact .inl ⟨hblank, by simpa [hblank] using h.symm⟩
        · rw [Bool.not_eq_true] at hblank
          exact .inr ⟨hblank, by simpa [hblank] using h.symm⟩

/-- The reading call after a mishap has taken items off the output of the child. -/
theorem endSalvage_eq_some {m : Mishap} (h : w.endSalvage c m = some w') :
    ∃ child result items, w.state.child = some child ∧
      Inlet.pull child.isOpen child.inlet.items = some (result, items) ∧
      ((∃ f, result = .error f ∧
          w' = (w.setChild (child.withItems items)).goto c (.concluding (.error (.frame f)))) ∨
        ∃ line, result = .ok line ∧
          w' = (w.setChild (child.withItems items)).goto c
            (.concluding (.error (.crashed m (Frame.rawText line))))) := by
  unfold endSalvage at h
  cases hchild : w.state.child with
  | none => simp [hchild] at h
  | some child =>
    cases hpull : Inlet.pull child.isOpen child.inlet.items with
    | none => simp [hchild, hpull] at h
    | some pulled =>
      obtain ⟨result, items⟩ := pulled
      refine ⟨child, result, items, rfl, hpull, ?_⟩
      simp only [hchild, hpull] at h
      cases result with
      | error f => exact .inl ⟨f, rfl, (Option.some.inj h).symm⟩
      | ok line => exact .inr ⟨line, rfl, (Option.some.inj h).symm⟩

/-! ### The end of a call and its timer -/

theorem leave_eq_some {exchange : Exchange} (h : w.leave c exchange = some w') :
    (w.call c).timer.isBusy = false ∧
      w' = ({ w with
              state := { w.state with
                running := w.state.running && !w.state.killed
                holder := none } }.record (.release c)).goto c (.done exchange.answer) := by
  unfold leave at h
  by_cases hbusy : (w.call c).timer.isBusy = true
  · rw [if_pos hbusy] at h
    cases h
  · rw [if_neg hbusy] at h
    rw [Bool.not_eq_true] at hbusy
    exact ⟨hbusy, (Option.some.inj h).symm⟩

theorem note_eq_some (h : w.note c = some w') :
    ∃ child seconds, w.state.child = some child ∧ (w.call c).deadline = some seconds ∧
      w' = ({ w with state := { w.state with killed := true } }.record
        (.warn (.killing seconds child.process))).setTimer c .noted := by
  unfold note at h
  cases hchild : w.state.child with
  | none => simp [hchild] at h
  | some child =>
    cases hdue : (w.call c).deadline with
    | none => simp [hchild, hdue] at h
    | some seconds => exact ⟨child, seconds, rfl, rfl, by simpa [hchild, hdue] using h.symm⟩

theorem strike_eq_some (h : w.strike c = some w') :
    ∃ child, w.state.child = some child ∧
      w' = ((w.setChild { child with killed := true }).record (.kill w.state.lives c)).setTimer c
        .finished := by
  unfold strike at h
  cases hchild : w.state.child with
  | none => simp [hchild] at h
  | some child => exact ⟨child, rfl, by simpa [hchild] using h.symm⟩

end World

/-! ### Where a fault comes from -/

/-- There is no request for a content if the session does not run, if its tag names no encoding, or
if the content has no bytes. -/
theorem World.requestFor_eq_error {s : State} {content : Text} {f : Fault}
    (h : requestFor s content = .error f) :
    f = .notRunning ∨ (∃ g, f = .ofTag g) ∨ ∃ cause, f = .unencodable cause := by
  unfold requestFor at h
  split at h
  · split at h
    · next g _ => exact .inr (.inl ⟨g, (Except.error.inj h).symm⟩)
    · split at h
      · next cause _ => exact .inr (.inr ⟨cause, (Except.error.inj h).symm⟩)
      · cases h
  · exact .inl (Except.error.inj h).symm

theorem Reply.answer_eq_error {reply : Reply} {f : Fault} (h : reply.answer = .error f) :
    (∃ errors, f = .incomplete reply.tree errors) ∨ (∃ errors, f = .failed errors) ∨
      ∃ name, f = .unsupported name := by
  unfold Reply.answer at h
  cases hs : reply.status with
  | ok =>
    rw [hs] at h
    cases h
  | error =>
    rw [hs] at h
    exact .inl ⟨_, (Except.error.inj h).symm⟩
  | fatal =>
    rw [hs] at h
    exact .inr (.inl ⟨_, (Except.error.inj h).symm⟩)
  | other name =>
    rw [hs] at h
    exact .inr (.inr ⟨_, (Except.error.inj h).symm⟩)

/-- The fault of an exchange that has been judged is that of the deadline, if a kill is noted, or
that of the exchange, or it is what the reply says. -/
theorem World.judged_eq_error {killed : Bool} {deadline : Option Seconds} {exchange : Exchange}
    {f : Fault} (h : (judged killed deadline exchange).answer = .error f) :
    killed = true ∧ f = .ofDeadline deadline ∨ exchange = .error f ∨
      ∃ reply : Reply, reply.answer = .error f := by
  unfold judged at h
  split at h
  · obtain rfl := Except.error.inj h
    cases killed with
    | true => exact .inl ⟨rfl, rfl⟩
    | false => exact .inr (.inl rfl)
  · cases exchange with
    | ok reply => exact .inr (.inr ⟨reply, h⟩)
    | error g => exact .inr (.inl (congrArg _ (Except.error.inj h)))

/-- The fault of a deadline carries it, unless the deadline has too many digits to be written. -/
theorem Fault.ofDeadline_cases (deadline : Option Seconds) :
    (∃ t, Seconds.shown? deadline = .ok t) ∧ ofDeadline deadline = .late deadline ∨
      ∃ o, Seconds.shown? deadline = .error o ∧ ofDeadline deadline = .oversized o := by
  unfold ofDeadline lateSentence?
  cases h : Seconds.shown? deadline with
  | ok t => exact .inl ⟨⟨t, rfl⟩, rfl⟩
  | error o => exact .inr ⟨o, rfl, rfl⟩

end ParserClient
