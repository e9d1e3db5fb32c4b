import ParserClient.Proofs.Session.Lifecycle

/-!
# A deadline that kills

A timer that kills the child breaks off whatever the call is doing with the pipes, and the call then
ends as its exchange does. Between the exchange and the answer the call looks once whether a kill
has been noted, and turns a fault of the exchange of lines into a fault of the deadline if it has.
The answer is therefore that of the deadline, or what a valid reply is, exactly if the exchange has
come to a reply, or has failed with a fault of the exchange of lines while the kill was noted
already, under a deadline that can be written. It is another one if the line that was read brings a
fault of another kind about, if the line was read after a mishap of the write or the flush, if the
timer notes the kill when the call has looked, or if the deadline is an integer with too many digits
for its fault to be worded.

## Main definitions

* `Phase.isJudged`, `Phase.Ends`, `World.Judged` — the exchange of a call is looked at.
* `Fault.isOfExchange` — the faults that an exchange comes to.
* `Seconds.IsWritten` — a deadline that can be written.
* `Answer.AfterKill` — what a call whose deadline has killed the child is meant to end with.

## Main results

* `World.judged_of_moves` — a call that is over has been looked at on the way.
* `Child.isOfExchange_of_dialogue` — no exchange fails with the fault of a reply or of a deadline.
* `kill_answered_iff` — when a call whose child has been killed ends as it is meant to.
-/

namespace ParserClient

/-! ### The moment at which the exchange is looked at -/

namespace Phase

/-- The exchange of the call has been looked at, or the call is over. -/
def isJudged : Phase → Bool
  | .cancelling _ | .leaving _ | .done _ => true
  | _ => false

/-- The call ends with an exchange, or has done so. -/
def Ends (exchange : Exchange) (p : Phase) : Prop :=
  p = .cancelling exchange ∨ p = .leaving exchange ∨ p = .done exchange.answer

end Phase

namespace World

variable {s : State} {c : Caller} {q : Ask} {w w' : World}

theorem phase_of_stepTimer (h : w.stepTimer c = some w') :
    (w'.call c).phase = (w.call c).phase := by
  unfold stepTimer at h
  cases ht : (w.call c).timer with
  | pending =>
    simp only [ht, Option.some.injEq] at h
    subst h
    unfold goOff
    cases w.state.child <;> simp
  | polled =>
    obtain ⟨child, seconds, -, -, rfl⟩ := note_eq_some (by simpa only [ht] using h)
    simp
  | noted =>
    obtain ⟨child, -, rfl⟩ := strike_eq_some (by simpa only [ht] using h)
    simp
  | off | finished | cancelled => simp [ht] at h

/-- A call that ends goes on to end with the same exchange. -/
theorem ends_of_stepCaller {exchange : Exchange} (he : (w.call c).phase.Ends exchange)
    (h : w.stepCaller c = some w') : (w'.call c).phase.Ends exchange := by
  unfold stepCaller at h
  rcases he with hp | hp | hp
  · simp only [hp, Option.some.injEq] at h
    subst h
    exact .inr (.inl (by simp [cancel]))
  · obtain ⟨-, rfl⟩ := leave_eq_some (by simpa only [hp] using h)
    exact .inr (.inr (by simp))
  · simp only [hp] at h
    cases h

/-! A step that talks to the child does not end the call. -/

theorem isJudged_of_beginWrite (r : Request) :
    ((w.beginWrite c r).call c).phase.isJudged = false := by
  unfold beginWrite
  cases Frame.ofRequest r <;> simp [Phase.isJudged]

theorem isJudged_of_endWrite {frame : Bytes} (h : w.endWrite c frame = some w') :
    (w'.call c).phase.isJudged = false := by
  obtain ⟨child, -, ⟨m, -, rfl⟩ | ⟨-, rfl⟩⟩ := endWrite_eq_some h
  · simp [beginSalvage, Phase.isJudged]
  · simp [Phase.isJudged]

theorem isJudged_of_endFlush {frame : Bytes} (h : w.endFlush c frame = some w') :
    (w'.call c).phase.isJudged = false := by
  obtain ⟨child, -, ⟨m, -, rfl⟩ | ⟨-, rfl⟩⟩ := endFlush_eq_some h
  · simp [beginSalvage, Phase.isJudged]
  · simp [Phase.isJudged]

theorem isJudged_of_endRead (hp : (w.call c).phase = .reading) (h : w.endRead c = some w') :
    (w'.call c).phase.isJudged = false := by
  obtain ⟨child, result, items, -, -, ⟨f, -, rfl⟩ | ⟨line, -, ⟨-, rfl⟩ | ⟨-, rfl⟩⟩⟩ :=
    endRead_eq_some h
  · simp [Phase.isJudged]
  · simp [hp, Phase.isJudged]
  · simp [Phase.isJudged]

theorem isJudged_of_endSalvage {m : Mishap} (h : w.endSalvage c m = some w') :
    (w'.call c).phase.isJudged = false := by
  obtain ⟨child, result, items, -, -, ⟨f, -, rfl⟩ | ⟨line, -, rfl⟩⟩ := endSalvage_eq_some h
  · simp [Phase.isJudged]
  · simp [Phase.isJudged]

/-- A call whose exchange has not been looked at is in front of the mutex, or goes on to talk to the
child, or looks. -/
theorem isJudged_of_stepCaller (hp : (w.call c).phase.isJudged = false)
    (h : w.stepCaller c = some w') :
    (w'.call c).phase.isJudged = false ∨ (∀ ch, (w.call c).phase.remainder ch = none) ∨
      ∃ e, (w.call c).phase = .concluding e ∧
        (w'.call c).phase = .cancelling (judged w.state.killed (w.call c).deadline e) := by
  unfold stepCaller at h
  cases hphase : (w.call c).phase with
  | idle | entering | queued => exact .inr (.inl fun _ => rfl)
  | sending r =>
    simp only [hphase, Option.some.injEq] at h
    subst h
    exact .inl (isJudged_of_beginWrite r)
  | writing frame => exact .inl (isJudged_of_endWrite (by simpa only [hphase] using h))
  | flushing frame => exact .inl (isJudged_of_endFlush (by simpa only [hphase] using h))
  | reading => exact .inl (isJudged_of_endRead hphase (by simpa only [hphase] using h))
  | salvaging m => exact .inl (isJudged_of_endSalvage (by simpa only [hphase] using h))
  | concluding e =>
    simp only [hphase, Option.some.injEq] at h
    subst h
    exact .inr (.inr ⟨e, rfl, by simp⟩)
  | cancelling | leaving | done => simp [hphase, Phase.isJudged] at hp

/-- On the way from one world to another the call of `c` looks at its exchange in the world `v`. -/
structure Judged (w₀ : World) (c : Caller) (exchange : Exchange) (v w : World) : Prop where
  moves : Moves w₀ v
  phase : (v.call c).phase = .concluding exchange
  later : ∃ v', v.step (.caller c) = some v' ∧ Moves v' w

theorem Judged.tail {w₀ v : World} {exchange : Exchange} (h : Judged w₀ c exchange v w)
    (hmove : Move w w') : Judged w₀ c exchange v w' := by
  obtain ⟨v', hv', hmoves⟩ := h.later
  exact ⟨h.moves, h.phase, v', hv', hmoves.tail hmove⟩

/-- A step of the caller of a call that has not looked at its exchange: it does so, or it does not
end the call. -/
theorem isJudged_of_progress {r : Request} (hs : s.Quiet) (hr : requestFor s q.content = .ok r)
    (hprogress : Progress s c q w.state (w.call c)) (hp : (w.call c).phase.isJudged = false)
    (h : w.stepCaller c = some w') :
    (w'.call c).phase.isJudged = false ∨ ∃ e, (w.call c).phase = .concluding e ∧
      (w'.call c).phase = .cancelling (judged w.state.killed (w.call c).deadline e) := by
  cases hprogress with
  | waiting same waits =>
    subst same
    left
    rcases step_of_waits (a := .caller c) waits h with ⟨hk, rfl⟩ | ⟨r', hr', hk, hacquire⟩
    · simp [enter, Actor.owner, hr, Phase.isJudged]
    · rw [acquire_of_free hs.free (running_of_requestFor hr'), Option.some.injEq] at hacquire
      subst hacquire
      simp [Phase.isJudged, Actor.owner]
  | inside _ inside =>
    rcases isJudged_of_stepCaller hp h with hn | hnone | hlook
    · exact .inl hn
    · have hfollows := inside.follows
      cases hphase : (w.call c).phase with
      | cancelling | leaving => simp [hphase, Phase.isJudged] at hp
      | _ =>
        rw [hphase] at hnone hfollows
        simp [Phase.Follows, hnone] at hfollows
    · exact .inr hlook
  | served _ _ phase _ => simp [phase, Phase.isJudged] at hp

/-- A call for which there is a request looks at its exchange, and ends with what it has seen. -/
theorem judged_of_moves {r : Request} (hs : s.Quiet) (hr : requestFor s q.content = .ok r)
    (h : Moves (single s c q.call) w) :
    (w.call c).phase.isJudged = false ∨ ∃ e v, Judged (single s c q.call) c e v w ∧
      (w.call c).phase.Ends (judged v.state.killed (v.call c).deadline e) := by
  induction h with
  | refl =>
    left
    rw [call_single]
    rfl
  | @tail w w' hmoves hmove ih =>
    -- a move that is no step of the caller leaves the phase as it is
    have hsame (hphase : (w'.call c).phase = (w.call c).phase) :
        (w'.call c).phase.isJudged = false ∨ ∃ e v, Judged (single s c q.call) c e v w' ∧
          (w'.call c).phase.Ends (judged v.state.killed (v.call c).deadline e) := by
      rw [hphase]
      rcases ih with hn | ⟨e, v, hjudged, hends⟩
      · exact .inl hn
      · exact .inr ⟨e, v, hjudged.tail hmove, hends⟩
    obtain ⟨a, h⟩ := hmove
    rcases c.eq_or_eq_other a.owner with ha | ha
    · subst ha
      cases a with
      | timer c => exact hsame (phase_of_stepTimer h)
      | caller c =>
        rcases ih with hn | ⟨e, v, hjudged, hends⟩
        · rcases isJudged_of_progress hs hr (progress_of_moves hs hmoves).1 hn h with
            hn | ⟨e, hphase, hlook⟩
          · exact .inl hn
          · exact .inr ⟨e, w, ⟨hmoves, hphase, w', h, .refl⟩, .inl hlook⟩
        · exact .inr ⟨e, v, hjudged.tail ⟨_, h⟩, ends_of_stepCaller hends h⟩
    · have hother := call_other_of_step h
      rw [ha, Caller.other_other] at hother
      exact hsame (by rw [hother])

end World

/-! ### The faults of an exchange -/

/-- The fault is one that an exchange comes to: not one of a reply, and not one of the session. -/
def Fault.isOfExchange : Fault → Bool
  | .frame _ | .oversized _ | .tooDeep | .noBytes _ | .crashed _ _ => true
  | _ => false

theorem Frame.isOfExchange_of_readReply {room : Room} {line : Bytes} {f : Fault}
    (h : readReply room line = .error f) : f.isOfExchange = true := by
  rcases readReply_eq_error h with ⟨_, rfl⟩ | ⟨_, rfl⟩ | rfl | ⟨_, rfl⟩ | ⟨_, rfl⟩ <;> rfl

namespace Child

/-- No exchange comes to the fault of a reply or to that of a deadline. -/
theorem isOfExchange_of_dialogue {ch : Child} {request : Request} {f : Fault}
    (h : (ch.dialogue request).exchange = .error f) : f.isOfExchange = true := by
  rcases dialogue_eq_error h with ⟨_, -, rfl⟩ | ⟨_, _, -, rfl⟩ | ⟨_, hline⟩ | ⟨_, _, rfl⟩
  · rfl
  · rfl
  · exact Frame.isOfExchange_of_readReply hline
  · rfl

end Child

/-! ### The wording of a deadline -/

namespace Seconds

/-- The deadline can be written: if it is an integer, it has no more digits than are written. -/
def IsWritten (seconds : Seconds) : Prop :=
  ∀ n, seconds = .int n → (Nat.toDigits 10 n.natAbs).length ≤ digitLimit

theorem shown?_eq_ok_iff {seconds : Seconds} :
    (∃ t, shown? (some seconds) = .ok t) ↔ seconds.IsWritten := by
  cases seconds with
  | int n =>
    rw [shown?, Integer.text?]
    split
    · next hdigits =>
      refine iff_of_true ⟨_, rfl⟩ ?_
      rintro m ⟨⟩
      exact hdigits
    · next hdigits => exact iff_of_false nofun fun h => hdigits (h n rfl)
  | float x => exact iff_of_true ⟨_, rfl⟩ nofun
  | flag b => exact iff_of_true ⟨_, rfl⟩ nofun

end Seconds

namespace Fault

/-- The fault of a deadline that can be written carries it. -/
theorem ofDeadline_of_isWritten {seconds : Seconds} (h : seconds.IsWritten) :
    ofDeadline (some seconds) = .late (some seconds) := by
  obtain ⟨t, ht⟩ := Seconds.shown?_eq_ok_iff.mpr h
  rcases ofDeadline_cases (some seconds) with ⟨-, hlate⟩ | ⟨o, ho, -⟩
  · exact hlate
  · rw [ht] at ho
    cases ho

theorem isOfExchange_ofDeadline {seconds : Seconds} (h : ¬ seconds.IsWritten) :
    (ofDeadline (some seconds)).isOfExchange = true := by
  rcases ofDeadline_cases (some seconds) with ⟨ht, -⟩ | ⟨o, -, ho⟩
  · exact absurd (Seconds.shown?_eq_ok_iff.mp ht) h
  · rw [ho]
    rfl

end Fault

/-! ### Answers after a kill -/

/-- An answer with which a call is meant to end whose deadline has killed the child: what a valid
reply is, or the fault of the deadline. -/
def Answer.AfterKill (seconds : Seconds) (a : Answer) : Prop :=
  (∃ reply : Reply, a = reply.answer) ∨ a = .error (.late (some seconds))

theorem Reply.not_isOfExchange_of_answer {reply : Reply} {f : Fault}
    (h : reply.answer = .error f) : f.isOfExchange = false := by
  rcases reply.answer_eq_error h with ⟨_, rfl⟩ | ⟨_, rfl⟩ | ⟨_, rfl⟩ <;> rfl

theorem Answer.not_afterKill (seconds : Seconds) {f : Fault} (h : f.isOfExchange = true) :
    ¬ Answer.AfterKill seconds (.error f) := by
  rintro (⟨reply, hreply⟩ | hlate)
  · rw [Reply.not_isOfExchange_of_answer hreply.symm] at h
    cases h
  · rw [Except.error.inj hlate] at h
    cases h

/-- What an exchange is judged to be is meant after a kill if it is a reply, or a fault of the
exchange of lines that is turned into one of the deadline, which can be written. -/
theorem World.afterKill_judged_iff {seconds : Seconds} {killed : Bool} {exchange : Exchange}
    (h : ∀ f, exchange = .error f → f.isOfExchange = true) :
    Answer.AfterKill seconds (judged killed (some seconds) exchange).answer ↔
      (∃ reply, exchange = .ok reply) ∨
        ∃ f, exchange = .error (.frame f) ∧ killed = true ∧ seconds.IsWritten := by
  cases exchange with
  | ok reply =>
    have hmeant : Answer.AfterKill seconds reply.answer := .inl ⟨reply, rfl⟩
    exact iff_of_true hmeant (.inl ⟨reply, rfl⟩)
  | error f =>
    have hf := h f rfl
    have hnoReply : ¬ ∃ reply, (.error f : Exchange) = .ok reply := nofun
    rw [or_iff_right hnoReply]
    cases f with
    | frame f =>
      cases killed with
      | false =>
        have hother := Answer.not_afterKill seconds (f := .frame f) rfl
        exact iff_of_false hother fun ⟨_, _, hkilled, _⟩ => nomatch hkilled
      | true =>
        by_cases hwritten : seconds.IsWritten
        · have hmeant : Answer.AfterKill seconds (.error (.ofDeadline (some seconds))) :=
            .inr (by rw [Fault.ofDeadline_of_isWritten hwritten])
          exact iff_of_true hmeant ⟨f, rfl, rfl, hwritten⟩
        · have hother := Answer.not_afterKill seconds (Fault.isOfExchange_ofDeadline hwritten)
          exact iff_of_false hother fun ⟨_, _, _, h⟩ => hwritten h
    | _ => exact iff_of_false (Answer.not_afterKill seconds hf) fun ⟨_, hg, _⟩ => nomatch hg

/-- A call is looked at with the exchange of its dialogue and with the deadline in force. -/
theorem World.Judged.exchange_eq {s : State} {c : Caller} {q : Ask} {child : Child} {r : Request}
    {e : Exchange} {v w : World} (hs : s.Quiet) (hadmits : s.Admits q child r)
    (h : Judged (single s c q.call) c e v w) :
    e = (child.dialogue r).exchange ∧ (v.call c).deadline = q.deadlineIn s := by
  have hphase := h.phase
  cases (progress_of_moves hs h.moves).1 with
  | waiting _ waits =>
    generalize v.call c = k at waits hphase
    cases waits <;> cases hphase
  | @inside child' here r' u admits inside =>
    have hchild : child' = child := by
      rw [← Option.some.injEq, ← admits.child, hadmits.child]
    have hr : r' = r := by
      rw [← Except.ok.injEq (ε := Fault), ← admits.request, hadmits.request]
    have hahead := inside.follows.ahead (by rw [hphase]; rfl)
    rw [hchild, hr] at hahead
    exact ⟨by rw [← hahead]; rfl, inside.due⟩
  | served _ _ phase _ =>
    rw [hphase] at phase
    cases phase

/-- A request with a deadline whose timer kills the child, in any interleaving of the two. The call
looks at its exchange in one world `v` on the way; its answer is one that is meant after a kill
exactly if the exchange has come to a reply, or if it has failed with a fault of the exchange of
lines, the kill has been noted in `v`, and the deadline can be written. -/
theorem kill_answered_iff {client : Client} {launches : List Launch} {episodes : List Episode}
    {s : State} (h : Session client launches episodes s) {c : Caller} {q : Ask}
    {seconds : Seconds} (hdeadline : q.deadlineIn s = some seconds) {w : World} {a : Answer}
    (hw : World.Moves (World.single s c q.call) w) (ha : (w.call c).answer? = some a)
    (hkill : .kill s.lives c ∈ w.state.trace.drop s.trace.length) :
    ∃ child r v, s.child = some child ∧ World.requestFor s q.content = .ok r ∧
      World.Judged (World.single s c q.call) c (child.dialogue r).exchange v w ∧
      (Answer.AfterKill seconds a ↔
        (∃ reply, (child.dialogue r).exchange = .ok reply) ∨
          ∃ f, (child.dialogue r).exchange = .error (.frame f) ∧ v.state.killed = true ∧
            seconds.IsWritten) := by
  have hs := h.orderly.quiet
  have hphase := Call.phase_of_answer? ha
  obtain ⟨child, r, hadmits⟩ : ∃ child r, s.Admits q child r := by
    cases (World.progress_of_moves hs hw).1 with
    | waiting same _ => simp [same] at hkill
    | inside admits _ => exact ⟨_, _, admits⟩
    | served admits _ _ _ => exact ⟨_, _, admits⟩
  rcases World.judged_of_moves hs hadmits.request hw with hn | ⟨e, v, hjudged, hends⟩
  · simp [hphase, Phase.isJudged] at hn
  · obtain ⟨rfl, hdue⟩ := hjudged.exchange_eq hs hadmits
    have hanswer : a =
        (World.judged v.state.killed (some seconds) (child.dialogue r).exchange).answer := by
      rw [← hdeadline, ← hdue]
      rcases hends with hp | hp | hp <;> rw [hphase] at hp <;> cases hp
      rfl
    refine ⟨child, r, v, hadmits.child, hadmits.request, hjudged, ?_⟩
    rw [hanswer]
    exact World.afterKill_judged_iff fun f => Child.isOfExchange_of_dialogue

/-- The reading of a child that delivers nothing ends with its kill, which has then been noted. -/
theorem kill_of_silent_child_answered :
    let s := State.started (.following [] [.gate .kill])
    let w := World.alone s [] (some (.int 1))
    (w.call .first).answer? = some (.error (.late (some (.int 1)))) ∧
      .kill s.lives .first ∈ w.state.trace.drop s.trace.length ∧
      ∃ (child : Child) (r : Request) (v : World), World.requestFor s [] = .ok r ∧
        World.Judged (World.single s .first (.entering [] (some (.int 1)))) .first
          (child.dialogue r).exchange v w ∧
        ((∃ reply, (child.dialogue r).exchange = .ok reply) ∨
          ∃ f, (child.dialogue r).exchange = .error (.frame f) ∧ v.state.killed = true ∧
            Seconds.IsWritten (.int 1)) := by
  intro s w
  have hanswer : (w.call .first).answer? = some (.error (.late (some (.int 1)))) := by rfl
  have hkill : .kill s.lives .first ∈ w.state.trace.drop s.trace.length :=
    List.mem_of_getElem? (i := 6) (by rfl)
  obtain ⟨child, r, v, -, hr, hjudged, hiff⟩ :=
    kill_answered_iff (session_started (.following [] [.gate .kill])) (q := ⟨[], some (.int 1)⟩)
      rfl (World.moves_alone s [] (some (.int 1))) hanswer hkill
  exact ⟨hanswer, hkill, child, r, v, hr, hjudged, hiff.mp (.inr rfl)⟩

/-- A child whose write is broken off by its kill, and which has written a line before. -/
def Child.breaking : Child :=
  .following [⟨some .kill, some (.refused ⟨32, "Broken pipe", none⟩)⟩] [.bytes [115, 101, 103, 118]]

/-- It is not so that every call whose deadline has killed the child ends with what a valid reply is
or with the fault of the deadline. -/
theorem not_answered_after_kill :
    ¬ ∀ (client : Client) (launches : List Launch) (episodes : List Episode) (s : State)
      (c : Caller) (q : Ask) (seconds : Seconds) (w : World) (a : Answer),
      Session client launches episodes s → s.running = true → q.deadlineIn s = some seconds →
      World.Moves (World.single s c q.call) w → (w.call c).answer? = some a →
      .kill s.lives c ∈ w.state.trace.drop s.trace.length → Answer.AfterKill seconds a := by
  intro hall
  have hkill : .kill 1 .first ∈
      (World.alone (.started .breaking) [] (some (.int 1))).state.trace.drop 1 :=
    List.mem_of_getElem? (i := 4) (by rfl)
  have hanswer : ((World.alone (.started .breaking) [] (some (.int 1))).call .first).answer? =
      some (.error (.crashed (.refused ⟨32, "Broken pipe", none⟩) "segv")) := by rfl
  exact Answer.not_afterKill _ rfl
    (hall _ _ _ _ .first ⟨[], some (.int 1)⟩ (.int 1) _ _ (session_started .breaking) rfl rfl
      (World.moves_alone _ [] (some (.int 1))) hanswer hkill)

end ParserClient
