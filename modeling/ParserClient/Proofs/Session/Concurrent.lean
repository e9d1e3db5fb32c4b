import ParserClient.Proofs.Session.Lifecycle

/-!
# Requests are served one after the other

Two requests that are made at the same time, in any interleaving of the two callers and of their
timers, come to the answers and to the state of the two requests made one after the other, and no
call on the pipes of one comes between those of the other. A request that kills the child stops the
session, and a request behind it is turned away without a call on the pipes.

## Main results

* `State.Answers.stopped_of_kill` — a kill stops the session.
* `State.Answers.of_stopped` — what a session answers that does not run.
* `requests_serialised` — two requests at the same time are two requests one after the other.
-/

namespace ParserClient

namespace State.Answers

variable {s s' : State} {c : Caller} {q : Ask} {a : Answer}

/-- A request that writes a kill down leaves a session that does not run. -/
theorem stopped_of_kill {t : List Happening} (hs : s.Quiet) (h : s.Answers c q a s')
    (ht : s'.trace = s.trace ++ t) {life : Nat} {d : Caller} (hkill : .kill life d ∈ t) :
    s'.running = false := by
  rcases h.cases hs with ⟨f, -, -, rfl⟩ | ⟨child, r, t', u, hadmits, hserved⟩
  · rw [List.self_eq_append_right] at ht
    rw [ht] at hkill
    cases hkill
  · rw [hserved.trace, List.append_cancel_left_eq] at ht
    have hmem : .kill life d ∈ u := by simpa [← ht] using hkill
    rw [hserved.running, hserved.killed, (hserved.kill_mem_iff.mp hmem).2, Bool.or_true,
      Bool.not_true, Bool.and_false]

/-- A session that does not run says so and is left as it is. -/
theorem of_stopped (hs : s.Quiet) (hstopped : s.running = false) (h : s.Answers c q a s') :
    a = .error .notRunning ∧ s' = s := by
  have hnone := World.requestFor_of_stopped hstopped q.content
  rcases h.cases hs with ⟨f, rfl, hf, hsame⟩ | ⟨child, r, t, u, hadmits, -⟩
  · rw [hnone, Except.error.injEq] at hf
    exact ⟨by rw [hf], hsame⟩
  · have hr := hadmits.request
    rw [hnone] at hr
    cases hr

end State.Answers

/-- Two callers ask at the same time. At any moment the calls on the pipes of one caller, `c`, come
before those of the other. Once both have their answers, these are what `c` is answered alone, which
leads to the state `mid`, and what the other is answered alone from there, which leads to the state
as it is. If the call of `c` kills the child, the other is told that the session does not run, and
nothing more happens. -/
theorem requests_serialised {client : Client} {launches : List Launch} {episodes : List Episode}
    {s : State} (h : Session client launches episodes s) {q : Caller → Ask} {w : World}
    (hw : World.Moves (World.asking s q) w) :
    ∃ c mid t₁ t₂,
      mid.trace = s.trace ++ t₁ ∧ w.state.trace = mid.trace ++ t₂ ∧
      CallsBy c t₁ ∧ CallsBy c.other t₂ ∧
      ∀ a : Caller → Answer, (∀ d, (w.call d).answer? = some (a d)) →
        s.Answers c (q c) (a c) mid ∧ mid.Answers c.other (q c.other) (a c.other) w.state ∧
        w.state.holder = none ∧
        ((∃ life d, .kill life d ∈ t₁) →
          mid.running = false ∧ a c.other = .error .notRunning ∧ t₂ = []) := by
  have hs := h.orderly.quiet
  obtain ⟨c, mid, hordered⟩ := (serial_of_moves hs hw).ordered hs
  obtain ⟨t₁, ht₁, hcalls₁⟩ := hordered.first
  obtain ⟨t₂, ht₂, hcalls₂⟩ := hordered.second
  refine ⟨c, mid, t₁, t₂, ht₁, ht₂, hcalls₁, hcalls₂, fun a ha => ?_⟩
  obtain ⟨hfirst, hsecond⟩ := hordered.answers a ha
  have hmid := hfirst.quiet hs
  refine ⟨hfirst, hsecond, (hsecond.quiet hmid).free, ?_⟩
  rintro ⟨life, d, hkill⟩
  have hstopped := hfirst.stopped_of_kill hs ht₁ hkill
  obtain ⟨hanswer, hsame⟩ := hsecond.of_stopped hmid hstopped
  rw [hsame, List.self_eq_append_right] at ht₂
  exact ⟨hstopped, hanswer, ht₂⟩

/-- The first of two requests has a deadline and kills a child that delivers nothing; the second is
turned away. -/
theorem serialised_with_silent_child :
    let s := State.started (.following [] [.gate .kill])
    let w := World.together s [] (some (.int 1)) [] none
    (w.call .first).answer? = some (.error (.late (some (.int 1)))) ∧
      (w.call .second).answer? = some (.error .notRunning) ∧
      ∃ c mid, s.Answers c ⟨[], if c = .first then some (.int 1) else none⟩
          (.error (if c = .first then .late (some (.int 1)) else .notRunning)) mid ∧
        mid.Answers c.other ⟨[], if c.other = .first then some (.int 1) else none⟩
          (.error (if c.other = .first then .late (some (.int 1)) else .notRunning)) w.state := by
  intro s w
  have hfirst : (w.call .first).answer? = some (.error (.late (some (.int 1)))) := by rfl
  have hsecond : (w.call .second).answer? = some (.error .notRunning) := by rfl
  obtain ⟨c, mid, t₁, t₂, -, -, -, -, hanswers⟩ :=
    requests_serialised (session_started (.following [] [.gate .kill]))
      (q := fun c => ⟨[], if c = .first then some (.int 1) else none⟩)
      (World.moves_together s [] (some (.int 1)) [] none)
  have hboth := hanswers
    (fun c => .error (if c = .first then .late (some (.int 1)) else .notRunning)) (by
      intro d
      cases d with
      | first => exact hfirst
      | second => exact hsecond)
  exact ⟨hfirst, hsecond, c, mid, hboth.1, hboth.2.1⟩

end ParserClient
