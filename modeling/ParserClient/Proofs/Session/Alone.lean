import ParserClient.Proofs.Session.Service

/-!
# A request alone

A call that is made while no other call is on its way first *waits* in front of the mutex: it has
not begun, or it has made its request, or there is no request for its content and it is over. Then
it is inside, and then its request has been served. The state changes only inside.

## Main definitions

* `Ask` — what a caller asks.
* `Call.Waits` — a call in front of the mutex.
* `State.Quiet` — a state between calls.
* `Progress` — how far a call has come that is made alone.
* `State.Answers` — a request alone is answered, in some interleaving with its timer.

## Main results

* `World.progress_of_moves` — where a call alone is after any moves.
* `State.Answers.cases` — an answer says that there is no request, or the request has been served.
-/

namespace ParserClient

/-- What a caller asks: a content, and the deadline that the call brings, if it brings one. -/
structure Ask where
  content : Text
  deadline : Option Seconds

namespace Ask

/-- The call that begins to ask. -/
def call (q : Ask) : Call := .entering q.content q.deadline

/-- The deadline in force for the call. -/
def deadlineIn (q : Ask) (s : State) : Option Seconds := q.deadline.or s.client.deadline

end Ask

/-! ### Calls that wait and calls at rest -/

namespace Call

/-- The call asks `q` in the state `s` and has not taken the mutex. -/
inductive Waits (s : State) (q : Ask) : Call → Prop
  | entering : Waits s q q.call
  | queued {r : Request} (h : World.requestFor s q.content = .ok r) :
      Waits s q ⟨.queued r, .off, q.deadlineIn s⟩
  | rejected {f : Fault} (h : World.requestFor s q.content = .error f) :
      Waits s q ⟨.done (.error f), .off, none⟩

theorem atRest_idle : Call.idle.AtRest := ⟨.inl rfl, .inl rfl⟩

theorem phase_of_answer? {k : Call} {a : Answer} (h : k.answer? = some a) : k.phase = .done a := by
  unfold answer? at h
  split at h
  · next b hb => rw [hb, Option.some.inj h]
  · cases h

theorem answer?_of_phase {k : Call} {a : Answer} (h : k.phase = .done a) : k.answer? = some a := by
  simp only [answer?, h]

end Call

namespace World

theorem running_of_requestFor {s : State} {content : Text} {r : Request}
    (h : requestFor s content = .ok r) : s.running = true := by
  unfold requestFor at h
  by_cases hrun : s.running = true
  · exact hrun
  · simp [hrun] at h

theorem requestFor_of_stopped {s : State} (h : s.running = false) (content : Text) :
    requestFor s content = .error .notRunning := by
  simp [requestFor, h]

/-- A request is made from the client and the running flag, and from nothing else. -/
theorem requestFor_congr {s s' : State} (hclient : s'.client = s.client)
    (hrunning : s'.running = s.running) (content : Text) :
    requestFor s' content = requestFor s content := by
  simp only [requestFor, hclient, hrunning]

end World

theorem Call.Waits.congr {s s' : State} {q : Ask} {k : Call} (hclient : s'.client = s.client)
    (hrunning : s'.running = s.running) (h : k.Waits s q) : k.Waits s' q := by
  have hdeadline : q.deadlineIn s = q.deadlineIn s' := by simp only [Ask.deadlineIn, hclient]
  cases h with
  | entering => exact .entering
  | queued h =>
    rw [hdeadline]
    exact .queued (by rw [World.requestFor_congr hclient hrunning, h])
  | rejected h => exact .rejected (by rw [World.requestFor_congr hclient hrunning, h])

/-- A call that has been turned away, for want of a request, is at rest. -/
theorem Call.Waits.atRest {s : State} {q : Ask} {k : Call} {a : Answer} (h : k.Waits s q)
    (hdone : k.phase = .done a) : k.AtRest ∧ ∃ f, a = .error f ∧
      World.requestFor s q.content = .error f := by
  cases h with
  | entering => cases hdone
  | queued => cases hdone
  | rejected h => exact ⟨⟨.inr ⟨_, rfl⟩, .inl rfl⟩, _, (Phase.done.inj hdone).symm, h⟩

theorem Call.Waits.timer {s : State} {q : Ask} {k : Call} (h : k.Waits s q) : k.timer = .off := by
  cases h <;> rfl

/-! ### States between calls -/

namespace State

/-- No call is inside, and a session that is running has a child. -/
structure Quiet (s : State) : Prop where
  free : s.holder = none
  attached : s.running = true → s.child.isSome = true

/-- The session has a child and a request for what is asked. -/
structure Admits (s : State) (q : Ask) (child : Child) (r : Request) : Prop where
  child : s.child = some child
  request : World.requestFor s q.content = .ok r

theorem Quiet.admits {s : State} (hq : s.Quiet) {q : Ask} {r : Request}
    (h : World.requestFor s q.content = .ok r) : ∃ child, s.Admits q child r := by
  obtain ⟨child, hchild⟩ :=
    Option.isSome_iff_exists.mp (hq.attached (World.running_of_requestFor h))
  exact ⟨child, hchild, h⟩

end State

theorem Served.quiet {s : State} {c : Caller} {deadline : Option Seconds} {d : Dialogue} {t : Timer}
    {u : List Happening} {answer : Answer} {s' : State} (h : Served s c deadline d t u answer s') :
    s'.Quiet where
  free := h.holder
  attached _ := by rw [h.child, Option.isSome_some]

/-- A kill is written down if it has been noted, and it is that of the call. -/
theorem Served.kill_mem_iff {s : State} {c : Caller} {deadline : Option Seconds} {d : Dialogue}
    {t : Timer} {u : List Happening} {answer : Answer} {s' : State}
    (h : Served s c deadline d t u answer s') {life : Nat} {e : Caller} :
    .kill life e ∈ u ↔ (life = s.lives ∧ e = c) ∧ t.hasNoted d.child.isAlive = true := by
  have hmark : .kill life e ∈ u ↔ .kill life e ∈ t.marks s.lives c d.child.isAlive := by
    rw [← h.marks, List.mem_filter]
    exact (and_iff_left rfl).symm
  rw [hmark]
  rcases h.settled with rfl | rfl | rfl
  · simp [Timer.marks, Timer.hasNoted]
  · simp [Timer.marks, Timer.hasNoted]
  · by_cases halive : d.child.isAlive = true <;> simp [Timer.marks, Timer.hasNoted, halive]

/-! ### How far a call has come -/

/-- The state `s'` and the call `k` of the caller `c` when it has begun to ask `q` in the state `s`
and no other call has been inside since. -/
inductive Progress (s : State) (c : Caller) (q : Ask) (s' : State) (k : Call) : Prop
  | waiting (same : s' = s) (waits : k.Waits s q)
  | inside {child here : Child} {r : Request} {u : List Happening} (admits : s.Admits q child r)
      (inside : Inside s c (q.deadlineIn s) (child.dialogue r) here u s' k)
  | served {child : Child} {r : Request} {t : Timer} {u : List Happening} {a : Answer}
      (admits : s.Admits q child r)
      (served : Served s c (q.deadlineIn s) (child.dialogue r) t u a s')
      (phase : k.phase = .done a) (timer : k.timer = t)

namespace World

variable {s : State} {c : Caller} {q : Ask} {w w' : World}

/-- A call at rest takes no step. -/
theorem step_eq_none_of_atRest {a : Actor} (h : (w.call a.owner).AtRest) : w.step a = none := by
  obtain ⟨hphase, htimer⟩ := h
  cases a with
  | caller c =>
    rcases hphase with hp | ⟨a, hp⟩ <;> simp only [Actor.owner] at hp <;>
      simp only [step, stepCaller, hp]
  | timer c =>
    rcases htimer with ht | ht | ht <;> simp only [Actor.owner] at ht <;>
      simp only [step, stepTimer, ht]

/-- A call in front of the mutex begins, or takes the mutex. -/
theorem step_of_waits {a : Actor} (hk : (w.call a.owner).Waits s q) (h : w.step a = some w') :
    (w.call a.owner = q.call ∧ w' = w.enter a.owner q.content q.deadline) ∨
      ∃ r, requestFor s q.content = .ok r ∧
        w.call a.owner = ⟨.queued r, .off, q.deadlineIn s⟩ ∧ w.acquire a.owner r = some w' := by
  cases a with
  | caller c =>
    simp only [step, stepCaller, Actor.owner] at h hk ⊢
    generalize hcall : w.call c = k at hk
    rw [hcall] at h
    cases hk with
    | entering => exact .inl ⟨rfl, (Option.some.inj h).symm⟩
    | queued hr => exact .inr ⟨_, hr, rfl, h⟩
    | rejected => cases h
  | timer c =>
    simp only [step, stepTimer, Actor.owner] at h hk
    generalize w.call c = k at hk h
    cases hk <;> cases h

/-- A call that begins waits; the state is left as it is. -/
theorem waits_enter (hk : w.call c = q.call) :
    (w.enter c q.content q.deadline).state = w.state ∧
      ((w.enter c q.content q.deadline).call c).Waits w.state q := by
  unfold enter
  cases hr : requestFor w.state q.content with
  | error f =>
    refine ⟨state_goto .., ?_⟩
    simp only [call_goto, hk]
    exact .rejected hr
  | ok r =>
    refine ⟨state_setCall .., ?_⟩
    simp only [call_setCall, hk]
    exact .queued hr

/-- A call that takes the mutex is inside, at the beginning of the dialogue of its request. -/
theorem inside_acquire {child : Child} {r : Request} (hq : w.state.Quiet)
    (hadmits : w.state.Admits q child r) (hk : w.call c = ⟨.queued r, .off, q.deadlineIn w.state⟩)
    (h : w.acquire c r = some w') :
    Inside w.state c (q.deadlineIn w.state) (child.dialogue r) child [] w'.state (w'.call c) := by
  have hrun := running_of_requestFor hadmits.request
  rw [acquire_of_free hq.free hrun, Option.some.injEq, hk] at h
  subst h
  have hunmarked :
      child.marked (if (q.deadlineIn w.state).isSome then .pending else .off) = child := by
    cases q.deadlineIn w.state <;> simp [Child.marked, Timer.hasPolled, Timer.hasStruck]
  simp only [state_setCall, call_setCall, state_record, State.record]
  exact
    { client := rfl
      running := rfl
      child := by simp only [hadmits.child, hunmarked]
      killed := by cases q.deadlineIn w.state <;> simp [Timer.hasNoted]
      holder := rfl
      launches := rfl
      lives := rfl
      trace := rfl
      within := by simp
      marks := by cases q.deadlineIn w.state <;> rfl
      due := rfl
      armed := by cases q.deadlineIn w.state <;> simp
      alive := by cases q.deadlineIn w.state <;> simp [Timer.isBusy]
      follows := .of_ahead rfl rfl
      settled := by simp }

end World

namespace Progress

variable {s s' : State} {c : Caller} {q : Ask} {k : Call}

theorem step {w w' : World} {a : Actor} (hq : s.Quiet) (ha : a.owner = c)
    (hp : Progress s c q w.state (w.call c)) (h : w.step a = some w') :
    Progress s c q w'.state (w'.call c) := by
  subst ha
  cases hp with
  | waiting same waits =>
    subst same
    rcases World.step_of_waits waits h with ⟨hk, rfl⟩ | ⟨r, hr, hk, hacquire⟩
    · obtain ⟨hstate, hwaits⟩ := World.waits_enter hk
      exact .waiting hstate hwaits
    · obtain ⟨child, hadmits⟩ := hq.admits hr
      exact .inside hadmits (World.inside_acquire hq hadmits hk hacquire)
  | inside admits inside =>
    rcases inside.step rfl h with ⟨next, v, hinside⟩ | ⟨t, a, hserved, hphase, htimer⟩
    · exact .inside admits hinside
    · exact .served admits hserved hphase htimer
  | served admits served phase timer =>
    rw [World.step_eq_none_of_atRest (served.atRest phase timer)] at h
    cases h

end Progress

namespace World

variable {s : State} {c : Caller} {q : Ask} {w w' : World}

/-! ### Moves of one call -/

theorem setCall_single (k k' : Call) : (single s c k).setCall c k' = single s c k' := by
  cases c <;> rfl

/-- While the other call is at rest, a move is one of the call by itself. -/
theorem Move.focus (h : Move w w') (hrest : (w.call c.other).AtRest) :
    Move (w.focus c) (w'.focus c) ∧ w'.call c.other = w.call c.other := by
  obtain ⟨a, h⟩ := h
  rcases c.eq_or_eq_other a.owner with ha | ha
  · subst ha
    exact ⟨⟨a, step_focus h⟩, call_other_of_step h⟩
  · rw [← ha] at hrest
    rw [step_eq_none_of_atRest hrest] at h
    cases h

/-- Where a call alone is after any moves of its own and of its timer. -/
theorem progress_of_moves (hq : s.Quiet) (h : Moves (single s c q.call) w) :
    Progress s c q w.state (w.call c) ∧ w.call c.other = .idle := by
  induction h with
  | refl =>
    simp only [state_single, call_single]
    exact ⟨.waiting rfl .entering, by cases c <;> rfl⟩
  | tail _ hmove ih =>
    obtain ⟨hprogress, hidle⟩ := ih
    refine ⟨?_, (hmove.focus (hidle ▸ Call.atRest_idle)).2.trans hidle⟩
    obtain ⟨a, h⟩ := hmove
    rcases c.eq_or_eq_other a.owner with ha | ha
    · exact hprogress.step hq ha h
    · rw [step_eq_none_of_atRest (by rw [ha, hidle]; exact Call.atRest_idle)] at h
      cases h

/-- A call in front of the mutex has come there by itself. -/
theorem moves_of_waits {k : Call} (hk : k.Waits s q) :
    Moves (single s c q.call) (single s c k) := by
  have hstep : (single s c q.call).step (.caller c) =
      some ((single s c q.call).enter c q.content q.deadline) := by
    simp only [step, stepCaller, call_single, Ask.call, Call.entering]
  cases hk with
  | entering => exact .refl
  | queued hr =>
    refine .single ⟨.caller c, hstep.trans ?_⟩
    simp only [enter, state_single, hr, call_single, setCall_single]
    rfl
  | rejected hr =>
    refine .single ⟨.caller c, hstep.trans ?_⟩
    simp only [enter, state_single, hr, goto, call_single, setCall_single]
    rfl

end World

/-! ### Answers -/

namespace State

variable {s s' : State} {c : Caller} {q : Ask} {a : Answer}

/-- Asked `q` alone by `c` in the state `s`, the session answers `a` and comes to the state `s'`, in
some interleaving of the call with its timer. -/
def Answers (s : State) (c : Caller) (q : Ask) (a : Answer) (s' : State) : Prop :=
  ∃ w, World.Moves (World.single s c q.call) w ∧ (w.call c).answer? = some a ∧ w.state = s'

theorem answers_of_focus {w : World} (h : World.Moves (World.single s c q.call) (w.focus c))
    (ha : (w.call c).answer? = some a) : s.Answers c q a w.state :=
  ⟨w.focus c, h, by rwa [World.call_focus], World.state_focus ..⟩

/-- There is no request for what is asked: this is the answer, and the state is left. -/
theorem answers_of_requestFor {f : Fault} (h : World.requestFor s q.content = .error f) :
    s.Answers c q (.error f) s :=
  ⟨_, World.moves_of_waits (.rejected h), by rw [World.call_single]; rfl, World.state_single ..⟩

/-- A request is answered by what keeps it from being made, or it has been served. -/
theorem Answers.cases (hq : s.Quiet) (h : s.Answers c q a s') :
    (∃ f, a = .error f ∧ World.requestFor s q.content = .error f ∧ s' = s) ∨
      ∃ child r t u, s.Admits q child r ∧
        Served s c (q.deadlineIn s) (child.dialogue r) t u a s' := by
  obtain ⟨w, hw, ha, rfl⟩ := h
  have hphase := Call.phase_of_answer? ha
  cases (World.progress_of_moves hq hw).1 with
  | waiting same waits =>
    obtain ⟨-, f, rfl, hf⟩ := waits.atRest hphase
    exact .inl ⟨f, rfl, hf, same⟩
  | inside admits inside =>
    rw [inside.answer?_eq_none] at ha
    cases ha
  | served admits served phase timer =>
    rw [hphase] at phase
    rw [Phase.done.inj phase]
    exact .inr ⟨_, _, _, _, admits, served⟩

theorem Answers.quiet (hq : s.Quiet) (h : s.Answers c q a s') : s'.Quiet := by
  rcases h.cases hq with ⟨f, -, -, rfl⟩ | ⟨child, r, t, u, -, hserved⟩
  · exact hq
  · exact hserved.quiet

theorem Answers.client (hq : s.Quiet) (h : s.Answers c q a s') : s'.client = s.client := by
  rcases h.cases hq with ⟨f, -, -, rfl⟩ | ⟨child, r, t, u, -, hserved⟩
  · rfl
  · exact hserved.client

theorem Answers.lives (hq : s.Quiet) (h : s.Answers c q a s') : s'.lives = s.lives := by
  rcases h.cases hq with ⟨f, -, -, rfl⟩ | ⟨child, r, t, u, -, hserved⟩
  · rfl
  · exact hserved.lives

end State

end ParserClient
