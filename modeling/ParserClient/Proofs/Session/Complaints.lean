import ParserClient.Proofs.Session.Starting

/-!
# What closing a session reports

There are four things to complain of when a child is closed: the pipe to it is not closed, it is not
waited for, it has ended with an exit code other than zero, and the pipe from it is not closed. Each
has its rank, and closing raises the first one that applies. The exit code does not apply to a child
that has been killed by a deadline of its own life; that a child of an earlier life has been killed,
or that starting has failed since, does not count. A pipe from a child that is closed already is not
complained of.

Closing leaves a session that does not run and has no child, and it stays so until it is started
with success; meanwhile closing does nothing.

## Main definitions

* `Child.Complains`, `Child.Reports` — what there is to complain of, and what of it is raised.
* `State.Idles` — operations none of which starts the session.

## Main results

* `Child.reports_closingFaults` — the first fault of closing is the first complaint.
* `State.Idles.stopped` — a session without a child has none until it is started.
* `close_reports_first` — what closing raises, and what it leaves.
-/

namespace ParserClient

namespace Child

/-! ### Complaints -/

/-- What there is to complain of, by its rank, when a child is closed that a deadline of its own
life has killed or not. -/
inductive Complains (ch : Child) (struck : Prop) : Nat → Fault → Prop
  /-- Closing the pipe to the child is refused. -/
  | outlet {r : Refusal} (h : ch.outlet.close = some (.refused r)) :
      Complains ch struck 0 (.mishap (.refused r))
  /-- Waiting for the child is refused. -/
  | wait {r : Refusal} (h : ch.waitResult = .error (.refused r)) :
      Complains ch struck 1 (.mishap (.refused r))
  /-- The child ends with an exit code other than zero, and it has not been killed. -/
  | exited {code : Int} (h : ch.waitResult = .ok code) (hcode : code ≠ 0) (hstruck : ¬ struck) :
      Complains ch struck 2 (.exited code)
  /-- Closing the pipe from the child is refused, and not because it is closed already. -/
  | inlet {r : Refusal} (h : ch.inlet.close = some (.refused r))
      (hopen : r.number ≠ State.alreadyClosed) : Complains ch struck 3 (.mishap (.refused r))

/-- The first complaint is raised, if there is any. -/
inductive Reports (ch : Child) (struck : Prop) : Except Fault Unit → Prop
  | nothing (h : ∀ rank f, ¬ ch.Complains struck rank f) : Reports ch struck (.ok ())
  | first {rank : Nat} {f : Fault} (h : ch.Complains struck rank f)
      (hfirst : ∀ earlier < rank, ∀ g, ¬ ch.Complains struck earlier g) :
      Reports ch struck (.error f)

variable {ch : Child} {struck : Prop} {rank : Nat} {f g : Fault}

theorem Complains.unique (h : ch.Complains struck rank f) (h' : ch.Complains struck rank g) :
    f = g := by
  cases h <;> cases h' <;> simp_all

theorem Reports.unique {result result' : Except Fault Unit} (h : ch.Reports struck result)
    (h' : ch.Reports struck result') : result = result' := by
  cases h with
  | nothing hnone =>
    cases h' with
    | nothing => rfl
    | first h' => exact absurd h' (hnone _ _)
  | @first rank _ h hfirst =>
    cases h' with
    | nothing hnone => exact absurd h (hnone _ _)
    | @first rank' _ h' hfirst' =>
      obtain hlt | rfl | hlt := Nat.lt_trichotomy rank rank'
      · exact absurd h (hfirst' _ hlt _)
      · rw [h.unique h']
      · exact absurd h' (hfirst _ hlt _)

theorem complains_zero_iff (htame : ch.Tame) :
    ch.Complains struck 0 f ↔ ch.outletFault = some f := by
  unfold outletFault
  constructor
  · intro h
    cases h with
    | outlet h =>
      rw [h]
      rfl
  · intro h
    obtain ⟨m, hm, rfl⟩ := Option.map_eq_some_iff.mp h
    cases m with
    | refused r => exact .outlet hm
    | misused text => exact absurd hm (htame.close text)

theorem waitResult_ne_misused (htame : ch.Tame) (text : Text) :
    ch.waitResult ≠ .error (.misused text) := by
  intro h
  unfold waitResult at h
  cases hm : ch.waitMishap with
  | none => simp [hm] at h
  | some m =>
    rw [hm] at h
    obtain rfl := Except.error.inj h
    exact htame.wait text hm

/-- The fault of waiting is a refusal to wait for the child, or its exit code. -/
theorem complains_wait_iff (htame : ch.Tame) {killed : Bool} (hstruck : killed = true ↔ struck) :
    ch.Complains struck 1 f ∨ ch.Complains struck 2 f ↔ ch.waitFault killed = some f := by
  unfold waitFault
  constructor
  · rintro (h | h)
    · cases h with
      | wait h => rw [h]
    · cases h with
      | exited h hcode hne =>
        have halive : killed = false := by rwa [← Bool.not_eq_true, hstruck]
        simp only [h, ne_eq, hcode, not_false_eq_true, halive, and_self, if_true]
  · intro h
    cases hwait : ch.waitResult with
    | error m =>
      cases m with
      | misused text => exact absurd hwait (waitResult_ne_misused htame text)
      | refused r =>
        rw [hwait] at h
        obtain rfl := Option.some.inj h
        exact .inl (.wait hwait)
    | ok code =>
      simp only [hwait, Option.ite_none_right_eq_some, Option.some.injEq] at h
      obtain ⟨⟨hcode, halive⟩, rfl⟩ := h
      exact .inr (.exited hwait hcode (by simp [← hstruck, halive]))

theorem complains_three_iff :
    ch.Complains struck 3 f ↔ State.inletFault ch.inlet.close = some f := by
  unfold State.inletFault
  constructor
  · intro h
    cases h with
    | inlet h hopen => simp only [h, hopen, if_false]
  · intro h
    cases hclose : ch.inlet.close with
    | none => simp [hclose] at h
    | some m =>
      cases m with
      | misused text => simp [hclose] at h
      | refused r =>
        simp only [hclose, Option.ite_none_left_eq_some, Option.some.injEq] at h
        obtain ⟨hopen, rfl⟩ := h
        exact .inlet hclose hopen

theorem Complains.not_wait (h : ch.Complains struck 2 f) : ¬ ch.Complains struck 1 g := by
  intro hwait
  cases h with
  | exited h =>
    cases hwait with
    | wait hwait =>
      rw [h] at hwait
      cases hwait

/-- The first fault of closing, if no step is misused, is the first complaint. -/
theorem reports_closingFaults (htame : ch.Tame) {killed : Bool} (hstruck : killed = true ↔ struck) :
    ch.Reports struck (State.resultOf (ch.closingFaults killed).head?) := by
  have hzero (g : Fault) : ch.Complains struck 0 g ↔ ch.outletFault = some g :=
    complains_zero_iff htame
  have hwait (g : Fault) := complains_wait_iff (f := g) htame hstruck
  have hthree (g : Fault) : ch.Complains struck 3 g ↔ State.inletFault ch.inlet.close = some g :=
    complains_three_iff
  rw [head?_closingFaults]
  cases houtlet : ch.outletFault with
  | some f => exact .first ((hzero f).mpr houtlet) fun _ hlt => absurd hlt (Nat.not_lt_zero _)
  | none =>
    have hnone₀ (g : Fault) : ¬ ch.Complains struck 0 g := by
      rw [hzero, houtlet]
      exact nofun
    cases hw : ch.waitFault killed with
    | some f =>
      rcases (hwait f).mpr hw with h | h
      · refine .first h fun earlier hlt g => ?_
        obtain rfl := Nat.lt_one_iff.mp hlt
        exact hnone₀ g
      · refine .first h fun earlier hlt g => ?_
        match earlier with
        | 0 => exact hnone₀ g
        | 1 => exact h.not_wait
    | none =>
      have hnone (g : Fault) : ¬ ch.Complains struck 1 g ∧ ¬ ch.Complains struck 2 g := by
        rw [← not_or, hwait, hw]
        exact nofun
      cases hi : State.inletFault ch.inlet.close with
      | some f =>
        refine .first ((hthree f).mpr hi) fun earlier hlt g => ?_
        match earlier with
        | 0 => exact hnone₀ g
        | 1 => exact (hnone g).1
        | 2 => exact (hnone g).2
      | none =>
        refine .nothing fun rank g h => ?_
        match rank, h with
        | 0, h => exact hnone₀ g h
        | 1, h => exact (hnone g).1 h
        | 2, h => exact (hnone g).2 h
        | 3, h =>
          rw [hthree, hi] at h
          cases h

end Child

/-! ### Sessions without a child -/

/-- The session is started, or entered, with success. -/
inductive Command.Begins : Command → Outcome → Prop
  | start : Begins .start (.done (.ok ()))
  | enter : Begins .enter (.entered (.ok ()))

namespace State

/-- Operations lead from one state to another, and none of them starts the session. -/
inductive Idles (s : State) : State → Prop
  | refl : Idles s s
  | tail {mid s' : State} {command : Command} {outcome : Outcome} (h : Idles s mid)
      (hp : mid.Performs command outcome s') (hfails : ¬ command.Begins outcome) : Idles s s'

/-- The session does not run and has no child. -/
structure Stopped (s : State) : Prop where
  running : s.running = false
  child : s.child = none

variable {s s' : State}

theorem Stopped.close_eq (h : s.Stopped) : s.close = (.ok (), s) := by
  simp only [close, h.child]

/-- A session that is not started with success stays without a child. -/
theorem Stopped.start (hne : s.start.1 ≠ .ok ()) : s.start.2.Stopped := by
  have hstarts := s.starts_start
  cases hresult : s.start.1 with
  | ok => exact absurd hresult hne
  | error f =>
    rw [hresult] at hstarts
    exact ⟨hstarts.stopped.1, hstarts.stopped.2⟩

theorem Stopped.performs {command : Command} {outcome : Outcome} (h : s.Stopped) (hs : s.Quiet)
    (hp : s.Performs command outcome s') (hfails : ¬ command.Begins outcome) : s'.Stopped := by
  cases hp with
  | start => exact .start fun hok => hfails (hok ▸ .start)
  | enter => exact .start fun hok => hfails (hok ▸ .enter)
  | close | exit =>
    rw [h.close_eq]
    exact h
  | setEncoding tag => exact ⟨h.running, h.child⟩
  | parse ha => exact (ha.of_stopped hs h.running).2 ▸ h
  | parseTwo hmoves ha =>
    obtain ⟨c, mid, hfirst, hsecond⟩ := answers_of_moves hs hmoves ha
    have hmid : mid.Stopped := (hfirst.of_stopped hs h.running).2 ▸ h
    exact (hsecond.of_stopped (hfirst.quiet hs) hmid.running).2 ▸ hmid

/-- A session without a child has none until it is started. -/
theorem Idles.stopped {launches : List Launch} (h : s.Idles s') (ho : s.Orderly launches)
    (hs : s.Stopped) : s'.Stopped := by
  have hboth : s'.Orderly launches ∧ s'.Stopped := by
    induction h with
    | refl => exact ⟨ho, hs⟩
    | tail _ hp hfails ih => exact ⟨ih.1.performs hp, ih.2.performs ih.1.quiet hp hfails⟩
  exact hboth.2

end State

/-- A session is closed whose child is not misused when the pipe to it is closed and when it is
waited for. What is raised is the first complaint, the exit code counting exactly if no deadline has
killed this very child. The session then does not run and has no child, and this stays so through
all operations but a start that succeeds: to close it again raises nothing and does nothing. -/
theorem close_reports_first {client : Client} {launches : List Launch} {episodes : List Episode}
    {s : State} (h : Session client launches episodes s) {child : Child}
    (hchild : s.child = some child) (htame : child.Tame) :
    (∀ result, s.close.1 = result ↔
      child.Reports (∃ c, .kill s.lives c ∈ s.trace) result) ∧
    s.close.2.running = false ∧ s.close.2.child = none ∧
    ∀ s', s.close.2.Idles s' →
      s'.running = false ∧ s'.child = none ∧ s'.close = (.ok (), s') := by
  have hsome : s.child.isSome = true := by rw [hchild, Option.isSome_some]
  have hreports := Child.reports_closingFaults htame (h.orderly.noted hsome)
  have hclose := State.close_of_tame hchild htame
  have horderly := h.orderly.letsGo s.letsGo_close
  rw [hclose] at horderly ⊢
  refine ⟨fun result => ⟨?_, fun hresult => hreports.unique hresult⟩, rfl, rfl, fun s' hidles => ?_⟩
  · rintro rfl
    exact hreports
  · have hstopped := hidles.stopped horderly ⟨rfl, rfl⟩
    exact ⟨hstopped.running, hstopped.child, hstopped.close_eq⟩

/-- A child that ends with an exit code other than zero, and whose pipe is not closed. -/
def Child.failing : Child :=
  { Child.following [] [] with
    inlet := ⟨[], some (.refused ⟨5, "I/O error", none⟩), .standard⟩
    code := 3 }

/-- The exit code of a child comes before its pipe. That another child has been killed before, by a
deadline of the same session, does not count. -/
theorem failing_reported :
    let s := (State.stricken .failing).start.2
    (∃ launches episodes, Session .standard launches episodes s) ∧
      s.child = some .failing ∧ Child.Tame .failing ∧ .kill 1 .first ∈ s.trace ∧
      s.close.1 = .error (.exited 3) ∧ s.close.2.close = (.ok (), s.close.2) := by
  intro s
  obtain ⟨episodes, hbefore⟩ := session_stricken .failing
  have h : Session .standard _ _ s := hbefore.snoc .start
  have hchild : s.child = some .failing := by rfl
  have htame : Child.Tame .failing := ⟨fun _ => nofun, fun _ => nofun⟩
  have halive : ¬ ∃ c, .kill s.lives c ∈ s.trace := by
    rw [← h.orderly.noted (by rw [hchild]; rfl)]
    exact nofun
  obtain ⟨hreports, -, -, hidles⟩ := close_reports_first h hchild htame
  have hresult : Child.failing.Reports (∃ c, .kill s.lives c ∈ s.trace) (.error (.exited 3)) := by
    refine .first (.exited rfl (by decide) halive) fun earlier hlt g => ?_
    match earlier with
    | 0 => exact nofun
    | 1 => exact nofun
  exact ⟨⟨_, _, h⟩, hchild, htame, List.mem_of_getElem? (i := 7) (by rfl),
    (hreports _).mpr hresult, (hidles _ .refl).2.2⟩

end ParserClient
