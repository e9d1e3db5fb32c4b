import ParserClient.Proofs.Session.Deadline

/-!
# A deadline stays with its own request

The timer of a call polls the child at most once, then kills it at most once, and it does so only
between the moment at which the call takes the mutex and the moment at which it gives it back. The
kill comes only if the poll has found the child running. A call without a deadline has no timer.
When a call is over, its timer does nothing more, so it meets neither a later request nor a child
that is started later. A call ends with the fault of a deadline only if its own timer has killed
the child, and the fault names the deadline that the call has brought, or that of the client if it
has brought none.

While calls are on their way this is said of each of them, in every interleaving. Between the
operations of a session it is said of all that has been written down.

## Main definitions

* `Sparing` — what a timer has done to a child.
* `CallTrace` — what is written down of one call.
* `Chronicle` — what is written down of a whole session.
* `Confined` — a call and its timer, at any moment.
* `Fault.isOfUpkeep` — the faults that starting and closing come to.

## Main results

* `State.Performs.ne_late` — only a request fails with the fault of a deadline.
* `Session.guarded` — what every session has written down is a chronicle.
* `Progress.confined` — a call that is made alone is confined.
* `confined_of_moves` — so is each of two calls that are made at the same time.
* `deadline_confined` — in a whole session, deadlines are confined.
-/

namespace ParserClient

/-! ### What is written down -/

/-- The launch of the life has given a child that is found running when it is polled. -/
def GivenAlive (launches : List Launch) (life : Nat) : Prop :=
  ∃ n given, life = n + 1 ∧ launches[n]? = some (.ok given) ∧ given.isAlive = true

/-- The dealings of a timer with the child of a life: none, one poll, or one poll and then, if the
child is alive, one kill. -/
def Sparing (life : Nat) (c : Caller) (alive : Prop) (marks : List Happening) : Prop :=
  marks = [] ∨ marks = [.poll life c] ∨ alive ∧ marks = [.poll life c, .kill life c]

/-- What is written down of the call of a caller, while the mutex is held as given: nothing, or what
has happened since it took the mutex, or all between its taking and its giving back. In between
nothing is written down but its own calls on the pipes, what is logged, and the dealings of its
timer. -/
inductive CallTrace (life : Nat) (c : Caller) (alive : Prop) (holder : Option Caller) :
    List Happening → Prop
  | outside : CallTrace life c alive holder []
  | inside {u : List Happening} (hholder : holder = some c)
      (hwithin : ∀ h ∈ u, h.Within life c)
      (hmarks : Sparing life c alive (u.filter Happening.isMark)) :
      CallTrace life c alive holder (.acquire c :: u)
  | ended {u : List Happening} (hwithin : ∀ h ∈ u, h.Within life c)
      (hmarks : Sparing life c alive (u.filter Happening.isMark)) :
      CallTrace life c alive holder (.acquire c :: (u ++ [.release c]))

/-- What is written down of a session in which so many lives have begun: what belongs to no call,
and calls that are over, each to the child of the life in which it was made. -/
inductive Chronicle (launches : List Launch) : Nat → List Happening → Prop
  | nil : Chronicle launches 0 []
  | upkeep {n m : Nat} {t u : List Happening} (h : Chronicle launches n t) (hle : n ≤ m)
      (hu : ∀ x ∈ u, x.isUpkeep = true) : Chronicle launches m (t ++ u)
  | call {n : Nat} {t u : List Happening} {c : Caller} (h : Chronicle launches n t)
      (hcall : CallTrace n c (GivenAlive launches n) none u) : Chronicle launches n (t ++ u)

/-- The call of a caller to the child of a life, and its timer, in a world in which `part` has been
written down of them. The timer takes a step only while the call holds the mutex, and a call that
has its answer does not hold it. -/
structure Confined (life : Nat) (c : Caller) (alive : Prop) (deadline : Option Seconds) (w : World)
    (part : List Happening) : Prop where
  trace : CallTrace life c alive w.state.holder part
  unarmed : deadline = none → ∀ h ∈ part, h.isMark = false
  held : ∀ w', w.step (.timer c) = some w' → w.state.holder = some c
  ended : ∀ a, (w.call c).answer? = some a → w.state.holder ≠ some c
  late : ∀ due, (w.call c).answer? = some (.error (.late due)) →
    .kill life c ∈ part ∧ ∃ seconds, due = some seconds ∧ deadline = some seconds

theorem Timer.sparing_marks (t : Timer) (life : Nat) (c : Caller) (isAlive : Bool) {alive : Prop}
    (halive : isAlive = true → alive) : Sparing life c alive (t.marks life c isAlive) := by
  cases t with
  | off | pending | cancelled => exact .inl rfl
  | polled | noted => exact .inr (.inl rfl)
  | finished =>
    cases isAlive with
    | false => exact .inr (.inl rfl)
    | true => exact .inr (.inr ⟨halive rfl, rfl⟩)

/-- A timer that is not armed has done nothing. -/
theorem Timer.unmarked_of_off {t : Timer} {life : Nat} {c : Caller} {isAlive : Bool}
    {u : List Happening} (hoff : t = .off)
    (hmarks : u.filter Happening.isMark = t.marks life c isAlive) :
    ∀ h ∈ u, h.isMark = false := by
  subst hoff
  intro h hh
  exact Bool.eq_false_iff.mpr (List.filter_eq_nil_iff.mp hmarks h hh)

/-- A call that does not hold the mutex has not begun with the child, or is over. -/
theorem CallTrace.free {life : Nat} {c : Caller} {alive : Prop} {holder : Option Caller}
    {t : List Happening} (h : CallTrace life c alive holder t) (hholder : holder ≠ some c) :
    CallTrace life c alive none t := by
  cases h with
  | outside => exact .outside
  | inside hheld => exact absurd hheld hholder
  | ended hwithin hmarks => exact .ended hwithin hmarks

/-! ### Children that are alive -/

/-- A dialogue does not change how the child is found when it is polled. -/
theorem Child.isAlive_dialogue (ch : Child) (r : Request) :
    (ch.dialogue r).child.isAlive = ch.isAlive := by
  obtain ⟨o, i, h⟩ := ch.child_dialogue r
  rw [h]
  rfl

theorem Phase.isAlive_remainder {ch : Child} {p : Phase} {rest : Dialogue}
    (h : p.remainder ch = some rest) : rest.child.isAlive = ch.isAlive := by
  obtain ⟨o, i, hchild⟩ := p.child_remainder h
  rw [hchild]
  rfl

theorem Phase.Follows.isAlive {d : Dialogue} {deadline : Option Seconds} {killed : Bool}
    {here : Child} {events : List PipeEvent} {p : Phase}
    (h : p.Follows d deadline killed here events) : d.child.isAlive = here.isAlive := by
  cases hp : p.remainder here with
  | some rest =>
    have hrest := p.isAlive_remainder hp
    rw [← h.ahead hp]
    exact hrest
  | none =>
    cases p with
    | cancelling | leaving => rw [h.1]
    | _ => simp [Follows, hp] at h

/-! ### Faults of the deadline -/

theorem World.ne_late_of_requestFor {s : State} {content : Text} {due : Option Seconds} :
    requestFor s content ≠ .error (.late due) := by
  intro h
  rcases requestFor_eq_error h with hf | ⟨g, hf⟩ | ⟨_, hf⟩
  · cases hf
  · cases g <;> cases hf
  · cases hf

/-- A fault of the deadline comes from a kill that had been noted, and names the deadline. -/
theorem World.late_of_judged {early : Bool} {deadline due : Option Seconds} {exchange : Exchange}
    (he : ∀ g, exchange = .error g → g.isOfExchange = true)
    (h : (judged early deadline exchange).answer = .error (.late due)) :
    early = true ∧ due = deadline := by
  rcases judged_eq_error h with ⟨hearly, hlate⟩ | hexchange | ⟨reply, hreply⟩
  · rcases Fault.ofDeadline_cases deadline with ⟨-, hd⟩ | ⟨o, -, hd⟩
    · rw [hd] at hlate
      exact ⟨hearly, Fault.late.inj hlate⟩
    · rw [hd] at hlate
      cases hlate
  · exact absurd (he _ hexchange) Bool.noConfusion
  · rcases reply.answer_eq_error hreply with ⟨_, hf⟩ | ⟨_, hf⟩ | ⟨_, hf⟩ <;> cases hf

/-! ### Faults of starting and closing -/

/-- The fault is one that starting and closing come to. -/
def Fault.isOfUpkeep : Fault → Bool
  | .mishap _ | .cannotStart _ _ | .exited _ | .noBytes _ => true
  | _ => false

/-- The fault of an operation that makes no request. -/
def Outcome.fault? : Outcome → Option Fault
  | .done (.error f) | .entered (.error f) => some f
  | _ => none

namespace State

variable (s : State) (child : Child) {fault : Option Fault} {f : Fault}

theorem isOfUpkeep_of_inletFault {m : Option Mishap} (h : inletFault m = some f) :
    f.isOfUpkeep = true := by
  unfold inletFault at h
  split at h
  · cases h
  · cases h
  · split at h <;> cases h
    rfl

theorem isOfUpkeep_of_or {later : Option Fault} (hfault : ∀ g ∈ fault, g.isOfUpkeep = true)
    (hlater : ∀ g ∈ later, g.isOfUpkeep = true) : ∀ g ∈ fault.or later, g.isOfUpkeep = true := by
  cases fault with
  | none => exact hlater
  | some g => exact hfault

theorem isOfUpkeep_of_closeInlet (hfault : ∀ g ∈ fault, g.isOfUpkeep = true)
    (h : (s.closeInlet child fault).1 = .error f) : f.isOfUpkeep = true := by
  have hboth := isOfUpkeep_of_or hfault fun _ => isOfUpkeep_of_inletFault (m := child.inlet.close)
  simp only [closeInlet] at h
  cases hor : fault.or (inletFault child.inlet.close) with
  | none =>
    rw [hor] at h
    cases h
  | some g =>
    rw [hor] at h hboth
    exact Except.error.inj h ▸ hboth g rfl

theorem isOfUpkeep_of_waitAndClose (hfault : ∀ g ∈ fault, g.isOfUpkeep = true)
    (h : (s.waitAndClose child fault).1 = .error f) : f.isOfUpkeep = true := by
  unfold waitAndClose at h
  cases hwait : child.waitResult with
  | error m =>
    cases m with
    | misused text =>
      rw [hwait] at h
      cases h
      rfl
    | refused r =>
      rw [hwait] at h
      exact isOfUpkeep_of_closeInlet _ child
        (isOfUpkeep_of_or hfault (by simp [Fault.isOfUpkeep])) h
  | ok code =>
    rw [hwait] at h
    refine isOfUpkeep_of_closeInlet _ child (isOfUpkeep_of_or hfault fun g hg => ?_) h
    split at hg <;> cases hg
    rfl

theorem isOfUpkeep_of_close (h : s.close.1 = .error f) : f.isOfUpkeep = true := by
  unfold close at h
  cases hchild : s.child with
  | none =>
    rw [hchild] at h
    cases h
  | some child =>
    simp only [hchild] at h
    split at h
    · cases h
      rfl
    · exact isOfUpkeep_of_waitAndClose _ child (by simp [Fault.isOfUpkeep]) h
    · exact isOfUpkeep_of_waitAndClose _ child (by simp) h

theorem isOfUpkeep_of_launch (h : s.launch.1 = .error f) : f.isOfUpkeep = true := by
  simp only [launch] at h
  split at h <;> cases h <;> rfl

/-- Starting fails with what closing or launching fails with. -/
theorem isOfUpkeep_of_start (h : s.start.1 = .error f) : f.isOfUpkeep = true := by
  unfold start at h
  split at h
  · cases h
  · split at h
    · split at h
      · exact isOfUpkeep_of_launch _ h
      · next g mid hreap =>
        obtain rfl := Except.error.inj h
        unfold reap at hreap
        split at hreap <;> cases hreap
        rfl
    · exact s.isOfUpkeep_of_launch h

/-- No operation that makes no request fails with the fault of a deadline. -/
theorem Performs.ne_late {s s' : State} {command : Command} {outcome : Outcome}
    (h : s.Performs command outcome s') (due : Option Seconds) :
    outcome.fault? ≠ some (.late due) := by
  have hupkeep : ∀ f, outcome.fault? = some f → f.isOfUpkeep = true := by
    intro f hf
    cases h with
    | start | enter =>
      cases hstart : s.start.1 with
      | ok => simp [Outcome.fault?, hstart] at hf
      | error g =>
        obtain rfl : g = f := by simpa [Outcome.fault?, hstart] using hf
        exact s.isOfUpkeep_of_start hstart
    | close | exit =>
      cases hclose : s.close.1 with
      | ok => simp [Outcome.fault?, hclose] at hf
      | error g =>
        obtain rfl : g = f := by simpa [Outcome.fault?, hclose] using hf
        exact s.isOfUpkeep_of_close hclose
    | setEncoding | parse | parseTwo => cases hf
  intro hlate
  cases hupkeep _ hlate

end State

/-! ### One call -/

section OneCall

variable {s s' : State} {c : Caller} {q : Ask} {child here : Child} {r : Request}
  {deadline : Option Seconds} {alive : Prop} {u : List Happening} {w : World}

/-- A call that has not taken the mutex, or does not come to take it. -/
theorem Confined.outside (hrest : w.step (.timer c) = none) (hholder : w.state.holder ≠ some c)
    (hlate : ∀ due, (w.call c).answer? ≠ some (.error (.late due)))
    (life : Nat) (alive : Prop) (deadline : Option Seconds) :
    Confined life c alive deadline w [] where
  trace := .outside
  unarmed := by simp
  held w' hstep := by
    rw [hrest] at hstep
    cases hstep
  ended _ _ := hholder
  late due h := absurd h (hlate due)

theorem Call.Waits.confined (h : (w.call c).Waits s q) (hholder : w.state.holder ≠ some c)
    (life : Nat) (alive : Prop) (deadline : Option Seconds) :
    Confined life c alive deadline w [] := by
  refine .outside ?_ hholder (fun due hlate => ?_) life alive deadline
  · simp only [World.step, World.stepTimer, h.timer]
  · obtain ⟨-, f, hf, hr⟩ := h.atRest (Call.phase_of_answer? hlate)
    obtain rfl := Except.error.inj hf
    exact World.ne_late_of_requestFor hr

theorem Inside.confined (halive : child.isAlive = true → alive)
    (h : Inside s c deadline (child.dialogue r) here u w.state (w.call c)) :
    Confined s.lives c alive deadline w (.acquire c :: u) where
  trace := by
    refine .inside h.holder h.within ?_
    rw [h.marks, ← h.follows.isAlive, child.isAlive_dialogue]
    exact Timer.sparing_marks _ _ _ _ halive
  unarmed hnone := by
    have hunmarked := Timer.unmarked_of_off (h.armed.mpr hnone) h.marks
    exact List.forall_mem_cons.mpr ⟨rfl, hunmarked⟩
  held _ _ := h.holder
  ended a ha := by
    rw [h.answer?_eq_none] at ha
    cases ha
  late due hlate := by
    rw [h.answer?_eq_none] at hlate
    cases hlate

theorem Served.callTrace {t : Timer} {a : Answer} (halive : child.isAlive = true → alive)
    (h : Served s c deadline (child.dialogue r) t u a s') (holder : Option Caller) :
    CallTrace s.lives c alive holder (.acquire c :: (u ++ [.release c])) := by
  refine .ended h.within ?_
  rw [h.marks, child.isAlive_dialogue]
  exact Timer.sparing_marks _ _ _ _ halive

/-- A call that is over stays confined while the other caller goes on. -/
theorem Served.confined {launches : List Launch} {t : Timer} {a : Answer}
    (ho : s.Orderly launches) (hadmits : s.Admits q child r)
    (halive : child.isAlive = true → alive)
    (h : Served s c (q.deadlineIn s) (child.dialogue r) t u a s')
    (hphase : (w.call c).phase = .done a) (hrest : (w.call c).AtRest)
    (hholder : w.state.holder ≠ some c) :
    Confined s.lives c alive (q.deadlineIn s) w (.acquire c :: (u ++ [.release c])) where
  trace := h.callTrace halive _
  unarmed hnone := by
    have hunmarked := Timer.unmarked_of_off (h.armed.mpr hnone) h.marks
    simpa [Happening.isMark, or_imp, forall_and] using hunmarked
  held w' hstep := by
    rw [World.step_eq_none_of_atRest hrest] at hstep
    cases hstep
  ended _ _ := hholder
  late due hlate := by
    have ha : a = .error (.late due) := by
      rw [Call.answer?_of_phase hphase] at hlate
      exact Option.some.inj hlate
    obtain ⟨early, hearly, hanswer⟩ := h.answer
    obtain ⟨rfl, rfl⟩ := World.late_of_judged (fun _ => Child.isOfExchange_of_dialogue)
      (hanswer.symm.trans ha)
    have hnoted : t.hasNoted (child.dialogue r).child.isAlive = true := by
      have hkilled := hearly rfl
      rwa [h.killed, ho.alive_of_admits hadmits, Bool.false_or] at hkilled
    have hkill := h.kill_mem_iff.mpr ⟨⟨rfl, rfl⟩, hnoted⟩
    have harmed : q.deadlineIn s ≠ none := by
      intro hnone
      rw [h.armed.mpr hnone] at hnoted
      cases hnoted
    obtain ⟨seconds, hseconds⟩ := Option.ne_none_iff_exists'.mp harmed
    exact ⟨by simp [hkill], seconds, hseconds, hseconds⟩

end OneCall

/-! ### Sessions -/

/-- Deadlines have been confined in the session up to now. -/
structure State.Guarded (client : Client) (launches : List Launch) (s : State) : Prop where
  deadline : s.client.deadline = client.deadline
  alive : ∀ child, s.child = some child → child.isAlive = true → GivenAlive launches s.lives
  chronicle : Chronicle launches s.lives s.trace

namespace State.Guarded

variable {client : Client} {launches : List Launch} {s s' : State}

theorem letsGo (h : s.Guarded client launches) (hgo : s.LetsGo s') :
    s'.Guarded client launches := by
  cases hgo with
  | unattached => exact h
  | detached hu => exact ⟨h.deadline, by simp, h.chronicle.upkeep (Nat.le_refl _) hu⟩

theorem uses (h : s.Guarded client launches) (ho : s.Orderly launches) (hchild : s.child = none)
    (hu : s.Uses s') : s'.Guarded client launches := by
  cases hu with
  | failed hu => exact ⟨h.deadline, by simp [hchild], h.chronicle.upkeep (Nat.le_succ _) hu⟩
  | @attached u child hu hnext =>
    refine ⟨h.deadline, ?_, h.chronicle.upkeep (Nat.le_succ _) hu⟩
    rintro _ ⟨⟩ halive
    rw [ho.left, List.head?_drop] at hnext
    exact ⟨s.lives, child, rfl, hnext, halive⟩

theorem begins (h : s.Guarded client launches) (ho : s.Orderly launches) (hb : s.Begins s') :
    s'.Guarded client launches := by
  cases hb with
  | running => exact h
  | kept hgo => exact h.letsGo hgo
  | used _ hgo hu => exact (h.letsGo hgo).uses (ho.letsGo hgo) hgo.child_eq_none hu

theorem served {c : Caller} {deadline : Option Seconds} {child : Child} {r : Request} {t : Timer}
    {u : List Happening} {a : Answer} (h : s.Guarded client launches)
    (hchild : s.child = some child)
    (hs : Served s c deadline (child.dialogue r) t u a s') : s'.Guarded client launches where
  deadline := by rw [hs.client, h.deadline]
  alive next hnext halive := by
    rw [hs.child] at hnext
    obtain rfl := Option.some.inj hnext
    rw [Child.isAlive_marked, child.isAlive_dialogue] at halive
    exact hs.lives ▸ h.alive child hchild halive
  chronicle := by
    rw [hs.lives, hs.trace]
    exact h.chronicle.call (hs.callTrace (h.alive child hchild) none)

theorem answers {c : Caller} {q : Ask} {a : Answer} (h : s.Guarded client launches)
    (hs : s.Quiet) (ha : s.Answers c q a s') : s'.Guarded client launches := by
  rcases ha.cases hs with ⟨f, -, -, rfl⟩ | ⟨child, r, t, u, hadmits, hserved⟩
  · exact h
  · exact h.served hadmits.child hserved

/-- Every operation goes on with the chronicle. -/
theorem performs {command : Command} {outcome : Outcome} (h : s.Guarded client launches)
    (ho : s.Orderly launches) (hp : s.Performs command outcome s') :
    s'.Guarded client launches := by
  cases hp with
  | start | enter => exact h.begins ho s.begins_start
  | close | exit => exact h.letsGo s.letsGo_close
  | setEncoding tag => exact ⟨h.deadline, h.alive, h.chronicle⟩
  | parse ha => exact h.answers ho.quiet ha
  | parseTwo hmoves ha =>
    obtain ⟨c, mid, hfirst, hsecond⟩ := answers_of_moves ho.quiet hmoves ha
    exact (h.answers ho.quiet hfirst).answers (hfirst.quiet ho.quiet) hsecond

theorem deadlineIn (h : s.Guarded client launches) (q : Ask) :
    q.deadlineIn s = q.deadline.or client.deadline := by
  rw [Ask.deadlineIn, h.deadline]

end State.Guarded

/-- What every session has written down is a chronicle. -/
theorem Session.guarded {client : Client} {launches : List Launch} {episodes : List Episode}
    {s : State} (h : Session client launches episodes s) : s.Guarded client launches := by
  induction h with
  | nil => exact ⟨rfl, by simp [State.initial], .nil⟩
  | snoc hsession hp ih => exact ih.performs hsession.orderly hp

/-! ### Calls on their way -/

section OnTheirWay

variable {client : Client} {launches : List Launch} {s s' : State} {c : Caller} {q : Ask}
  {w : World}

/-- No other caller holds the mutex. -/
theorem Progress.holder_ne {d : Caller} {k : Call} (hs : s.Quiet) (h : Progress s c q s' k)
    (hd : d ≠ c) : s'.holder ≠ some d := by
  cases h with
  | waiting same _ => simp [same, hs.free]
  | inside _ inside => simpa [inside.holder] using hd.symm
  | served _ served _ _ => simp [served.holder]

/-- A call that is made alone is confined. -/
theorem Progress.confined (ho : s.Orderly launches) (hg : s.Guarded client launches)
    (h : Progress s c q w.state (w.call c)) :
    ∃ part, w.state.trace = s.trace ++ part ∧
      Confined s.lives c (GivenAlive launches s.lives) (q.deadline.or client.deadline) w part := by
  rw [← hg.deadlineIn]
  cases h with
  | waiting same waits =>
    exact ⟨[], by rw [same, List.append_nil],
      waits.confined (by simp [same, ho.quiet.free]) ..⟩
  | inside admits inside =>
    exact ⟨_, inside.trace, inside.confined (hg.alive _ admits.child)⟩
  | served admits served phase timer =>
    have hrest := served.atRest phase timer
    exact ⟨_, served.trace, served.confined ho admits (hg.alive _ admits.child) phase hrest
      (by simp [served.holder])⟩

/-- A call that is over stays confined while the other caller goes on. -/
theorem State.Answers.confined {a : Answer} (ho : s.Orderly launches)
    (hg : s.Guarded client launches) (h : s.Answers c q a s')
    (hphase : (w.call c).phase = .done a) (hrest : (w.call c).AtRest)
    (hholder : w.state.holder ≠ some c) :
    ∃ part, s'.trace = s.trace ++ part ∧
      Confined s.lives c (GivenAlive launches s.lives) (q.deadline.or client.deadline) w part := by
  rw [← hg.deadlineIn]
  rcases h.cases ho.quiet with ⟨f, rfl, hf, rfl⟩ | ⟨child, r, t, u, hadmits, hserved⟩
  · refine ⟨[], by rw [List.append_nil], ?_⟩
    refine .outside (World.step_eq_none_of_atRest hrest) hholder (fun due hlate => ?_) ..
    rw [Call.answer?_of_phase hphase] at hlate
    obtain rfl := Except.error.inj (Option.some.inj hlate)
    exact World.ne_late_of_requestFor hf
  · exact ⟨_, hserved.trace,
      hserved.confined ho hadmits (hg.alive _ hadmits.child) hphase hrest hholder⟩

/-- Of two calls that are made at the same time each is confined, and what is written down of one
is complete before anything is written down of the other. -/
theorem confined_of_moves {q : Caller → Ask} (ho : s.Orderly launches)
    (hg : s.Guarded client launches) (hw : World.Moves (World.asking s q) w) :
    ∃ c t₁ t₂, w.state.trace = s.trace ++ (t₁ ++ t₂) ∧
      (t₂ = [] ∨ CallTrace s.lives c (GivenAlive launches s.lives) none t₁) ∧
      Confined s.lives c (GivenAlive launches s.lives) ((q c).deadline.or client.deadline) w t₁ ∧
      Confined s.lives c.other (GivenAlive launches s.lives)
        ((q c.other).deadline.or client.deadline) w t₂ := by
  have hs := ho.quiet
  cases serial_of_moves hs hw with
  | ahead c moves waits =>
    have hprogress := (World.progress_of_moves hs moves).1
    rw [World.state_focus, World.call_focus] at hprogress
    obtain ⟨t, ht, hconfined⟩ := hprogress.confined ho hg
    have hholder := hprogress.holder_ne hs (Caller.other_ne c)
    exact ⟨c, t, [], by rw [ht, List.append_nil], .inl rfl, hconfined,
      waits.confined hholder ..⟩
  | @behind c a mid answers phase rest moves =>
    have hmid := answers.quiet hs
    have hprogress := (World.progress_of_moves hmid moves).1
    rw [World.state_focus, World.call_focus] at hprogress
    have hholder := hprogress.holder_ne hmid (Caller.other_ne c).symm
    obtain ⟨t₁, ht₁, hfirst⟩ := answers.confined ho hg phase rest hholder
    obtain ⟨t₂, ht₂, hsecond⟩ := hprogress.confined (ho.answers answers) (hg.answers hs answers)
    rw [answers.lives hs] at hsecond
    exact ⟨c, t₁, t₂, by rw [ht₂, ht₁, List.append_assoc], .inr (hfirst.trace.free hholder),
      hfirst, hsecond⟩
  | turned c answers phase rest stopped turned rest' =>
    have hfree := (answers.quiet hs).free
    obtain ⟨t, ht, hconfined⟩ := answers.confined ho hg phase rest (by simp [hfree])
    have hrest : w.step (.timer c.other) = none := World.step_eq_none_of_atRest rest'
    have hlate due : (w.call c.other).answer? ≠ some (.error (.late due)) := by
      rw [Call.answer?_of_phase turned]
      exact nofun
    exact ⟨c, t, [], by rw [ht, List.append_nil], .inl rfl, hconfined,
      .outside hrest (by simp [hfree]) hlate ..⟩

end OnTheirWay

/-- In a session of any length all that has been written down is a chronicle: polls and kills come
from timers only, each between the moment at which its call has taken the mutex and the moment at
which it has given it back, and are of the child of the life in which the call was made.

From there on a call that is made alone is confined at any moment, in every interleaving with its
timer, and so is each of two calls that are made at the same time, of which one is over before the
other begins with the child. The deadline of a call is the one that it brings, or else the one that
the client was configured with. No other operation fails with the fault of a deadline. -/
theorem deadline_confined {client : Client} {launches : List Launch} {episodes : List Episode}
    {s : State} (h : Session client launches episodes s) :
    Chronicle launches s.lives s.trace ∧
    (∀ (c : Caller) (q : Ask) (w : World), World.Moves (World.single s c q.call) w →
      ∃ t, w.state.trace = s.trace ++ t ∧
        Confined s.lives c (GivenAlive launches s.lives) (q.deadline.or client.deadline) w t) ∧
    (∀ (q : Caller → Ask) (w : World), World.Moves (World.asking s q) w →
      ∃ c t₁ t₂, w.state.trace = s.trace ++ (t₁ ++ t₂) ∧
        (t₂ = [] ∨ CallTrace s.lives c (GivenAlive launches s.lives) none t₁) ∧
        Confined s.lives c (GivenAlive launches s.lives) ((q c).deadline.or client.deadline) w t₁ ∧
        Confined s.lives c.other (GivenAlive launches s.lives)
          ((q c.other).deadline.or client.deadline) w t₂) ∧
    ∀ command outcome s' due, s.Performs command outcome s' →
      outcome.fault? ≠ some (.late due) := by
  have ho := h.orderly
  have hg := h.guarded
  exact ⟨hg.chronicle,
    fun c q w hw => (World.progress_of_moves ho.quiet hw).1.confined ho hg,
    fun q w hw => confined_of_moves ho hg hw,
    fun command outcome s' due hp => hp.ne_late due⟩

/-- The first of two requests brings a deadline, which is negative, and kills the child; the second,
which brings none, is turned away. -/
theorem confined_with_silent_child :
    let s := State.started (.following [] [.gate .kill])
    let w := World.together s [] (some (.int (-1))) [] none
    (w.call .first).answer? = some (.error (.late (some (.int (-1))))) ∧
      ∃ c t₁ t₂, w.state.trace = s.trace ++ (t₁ ++ t₂) ∧
        Confined 1 c (GivenAlive [.ok (.following [] [.gate .kill])] 1)
          (if c = .first then some (.int (-1)) else none) w t₁ ∧
        Confined 1 c.other (GivenAlive [.ok (.following [] [.gate .kill])] 1)
          (if c.other = .first then some (.int (-1)) else none) w t₂ := by
  intro s w
  refine ⟨by rfl, ?_⟩
  obtain ⟨-, -, htwo, -⟩ := deadline_confined (session_started (.following [] [.gate .kill]))
  obtain ⟨c, t₁, t₂, htrace, -, hfirst, hsecond⟩ :=
    htwo (fun c => ⟨[], if c = .first then some (.int (-1)) else none⟩) w
      (World.moves_together s [] (some (.int (-1))) [] none)
  rw [show Client.standard.deadline = none from rfl, Option.or_none] at hfirst hsecond
  exact ⟨c, t₁, t₂, htrace, hfirst, hsecond⟩

end ParserClient
