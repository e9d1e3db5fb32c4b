import ParserClient.Proofs.Session.Closing
import ParserClient.Proofs.Session.Concurrent
import ParserClient.Proofs.Session.Rejection

/-!
# What starting a session does

A session that is running is left as it is. Any other lets go of the child that a deadline has
killed, if it is still attached, and then launches the command. What the system refuses when this
child is closed is logged in one warning and keeps nothing from being launched; a misuse is raised,
and nothing is launched.

So starting attaches the child that the launch has given, in a life in which nothing has been
killed, or it raises a fault and leaves a session that does not run and has no child.

## Main definitions

* `State.nextLaunch`, `State.launchResult` — what the next launch gives, and what it comes to.
* `State.Reaped` — what is written down in front of a launch.
* `State.Starts` — all that starting can do.
* `State.Attached` — a session that has just been given a child.

## Main results

* `State.starts_start` — starting does one of these things.
* `start_all_or_nothing` — a session is started, or it is stopped and has no child.
-/

namespace ParserClient

/-- What is raised for a launch of a command that fails. -/
def LaunchFault.raised (binary : Text) : LaunchFault → Fault
  | .mishap (.refused r) => .cannotStart binary r
  | .mishap (.misused text) => .mishap (.misused text)
  | .noBytes cause => .noBytes cause

namespace State

/-! ### Launching -/

/-- What the next launch gives. -/
def nextLaunch (s : State) : Launch := s.launches.headD (.error (.mishap (.refused noLaunch)))

/-- What the next launch comes to. -/
def launchResult (s : State) : Except Fault Unit :=
  match s.nextLaunch with
  | .ok _ => .ok ()
  | .error f => .error (f.raised s.client.binary)

/-- The session when a launch has been used up. -/
def spent (s : State) : State :=
  { s with
    lives := s.lives + 1
    launches := s.launches.tail
    trace := s.trace ++ [.spawn (s.lives + 1) s.client.binary] }

/-- The session when a child has been attached. -/
def attach (s : State) (given : Child) : State :=
  { s with running := true, child := some given, killed := false }

/-- The session when its child has been let go and `u` has been written down. -/
def letGo (s : State) (u : List Happening) : State :=
  { s with running := false, child := none, trace := s.trace ++ u }

section Launching

variable {s : State} {given : Child} {f : LaunchFault} {u : List Happening}

theorem launch_of_ok (h : s.nextLaunch = .ok given) :
    s.launch = (.ok (), s.spent.attach given) := by
  unfold nextLaunch at h
  simp only [launch, h]
  rfl

theorem launch_of_error (h : s.nextLaunch = .error f) :
    s.launch = (.error (f.raised s.client.binary), s.spent) := by
  unfold nextLaunch at h
  simp only [launch, h]
  cases f with
  | mishap m => cases m <;> rfl
  | noBytes cause => rfl

theorem letGo_nil (hrun : s.running = false) (hchild : s.child = none) : s.letGo [] = s := by
  cases s
  simp_all [letGo]

/-! ### Reaping -/

/-- Nothing keeps a stopped session from launching the command: no child is attached, or closing the
one that is attached is refused at most. What is written down in front of the launch is `u`: the
closing, and a warning exactly if closing raises a fault. -/
inductive Reaped (s : State) : List Happening → Prop
  | unattached (h : s.child = none) : Reaped s []
  | closed {child : Child} (h : s.child = some child) (htame : child.Tame) :
      Reaped s (closing s.lives ++ logged s.close.1)

theorem reap_of_not_tame {child : Child} (hchild : s.child = some child)
    (hmisused : ¬ child.Tame) :
    ∃ steps text, s.Closes child steps (.error (.mishap (.misused text))) ∧
      s.reap = (.error (.mishap (.misused text)), s.letGo steps) := by
  obtain ⟨steps, text, hcloses, hclose⟩ := closes_of_not_tame hchild hmisused
  exact ⟨steps, text, hcloses, by simp only [reap, hclose, letGo]⟩

end Launching

/-! ### Starting -/

/-- Starting comes to a result and leads to a state. -/
inductive Starts (s : State) : Except Fault Unit → State → Prop
  /-- The session is running. -/
  | running (h : s.running = true) : Starts s (.ok ()) s
  /-- Closing the child that is still attached is misused. -/
  | misused {child : Child} {steps : List Happening} {text : Text} (hrun : s.running = false)
      (hchild : s.child = some child) (hmisused : ¬ child.Tame)
      (hcloses : s.Closes child steps (.error (.mishap (.misused text)))) :
      Starts s (.error (.mishap (.misused text))) (s.letGo steps)
  /-- The launch fails. -/
  | failed {u : List Happening} {f : LaunchFault} (hrun : s.running = false) (hreaped : s.Reaped u)
      (hnext : s.nextLaunch = .error f) :
      Starts s (.error (f.raised s.client.binary)) (s.letGo u).spent
  /-- The launch gives a child. -/
  | attached {u : List Happening} {given : Child} (hrun : s.running = false) (hreaped : s.Reaped u)
      (hnext : s.nextLaunch = .ok given) : Starts s (.ok ()) ((s.letGo u).spent.attach given)

variable {s s' : State} {u : List Happening}

theorem start_of_reaped (hrun : s.running = false) (h : s.Reaped u) :
    s.start = (s.letGo u).launch := by
  cases h with
  | unattached hchild =>
    simp only [start, hrun, hchild, letGo_nil hrun hchild, Bool.false_eq_true, if_false,
      Option.isSome_none]
  | closed hchild htame =>
    simp only [start, hrun, hchild, s.reap_eq _ hchild htame, letGo, Bool.false_eq_true, if_false,
      Option.isSome_some, if_true, List.append_assoc]

/-- The command is launched behind what has been written down in front of it. -/
theorem launched_of_reaped (hrun : s.running = false) (h : s.Reaped u) :
    s.start.1 = s.launchResult ∧
      s.start.2.trace = s.trace ++ (u ++ [.spawn (s.lives + 1) s.client.binary]) := by
  rw [start_of_reaped hrun h, launchResult]
  cases hnext : s.nextLaunch with
  | ok given =>
    rw [launch_of_ok (s := s.letGo u) hnext]
    exact ⟨rfl, List.append_assoc ..⟩
  | error f =>
    rw [launch_of_error (s := s.letGo u) hnext]
    exact ⟨rfl, List.append_assoc ..⟩

theorem starts_start (s : State) : s.Starts s.start.1 s.start.2 := by
  by_cases hrun : s.running = true
  · simp only [start, if_pos hrun]
    exact .running hrun
  · rw [Bool.not_eq_true] at hrun
    by_cases hready : ∃ u, s.Reaped u
    · obtain ⟨u, hreaped⟩ := hready
      rw [start_of_reaped hrun hreaped]
      cases hnext : s.nextLaunch with
      | ok given =>
        rw [launch_of_ok (s := s.letGo u) hnext]
        exact .attached hrun hreaped hnext
      | error f =>
        rw [launch_of_error (s := s.letGo u) hnext]
        exact .failed hrun hreaped hnext
    · cases hchild : s.child with
      | none => exact absurd ⟨_, .unattached hchild⟩ hready
      | some child =>
        have hmisused : ¬ child.Tame := fun htame => hready ⟨_, .closed hchild htame⟩
        obtain ⟨steps, text, hcloses, hreap⟩ := reap_of_not_tame hchild hmisused
        simp only [start, hrun, hchild, hreap, Bool.false_eq_true, if_false, Option.isSome_some,
          if_true]
        exact .misused hrun hchild hmisused hcloses

/-- A fault of starting leaves a session that does not run and has no child. -/
theorem Starts.stopped {f : Fault} (h : s.Starts (.error f) s') :
    s'.running = false ∧ s'.child = none := by
  cases h <;> exact ⟨rfl, rfl⟩

/-- A stopped session that raises nothing when it is started has been given the child of the
launch. -/
theorem Starts.given (h : s.Starts (.ok ()) s') (hrun : s.running = false) :
    ∃ u given, s.Reaped u ∧ s.nextLaunch = .ok given ∧
      s' = (s.letGo u).spent.attach given := by
  cases h with
  | running hrunning =>
    rw [hrun] at hrunning
    cases hrunning
  | attached _ hreaped hnext => exact ⟨_, _, hreaped, hnext, rfl⟩

/-- What is written down when a stopped session is started: some of the steps of a closing that is
misused, or what is in front of a launch, and the launch. -/
theorem Starts.written {result : Except Fault Unit} (h : s.Starts result s')
    (hrun : s.running = false) :
    (∃ steps text, steps <+: closing s.lives ∧ result = .error (.mishap (.misused text)) ∧
      s'.trace = s.trace ++ steps) ∨
    ∃ u, s.Reaped u ∧ result = s.launchResult ∧
      s'.trace = s.trace ++ (u ++ [.spawn (s.lives + 1) s.client.binary]) := by
  cases h with
  | running hrunning =>
    rw [hrun] at hrunning
    cases hrunning
  | misused _ _ _ hcloses => exact .inl ⟨_, _, hcloses.steps_prefix, rfl, rfl⟩
  | failed _ hreaped hnext =>
    exact .inr ⟨_, hreaped, by rw [launchResult, hnext], List.append_assoc ..⟩
  | attached _ hreaped hnext =>
    exact .inr ⟨_, hreaped, by rw [launchResult, hnext], List.append_assoc ..⟩

end State

/-! ### Killed children -/

/-- A child that has been killed has no exit code among the faults of its closing. -/
theorem Child.exited_notMem_closingFaults (ch : Child) (code : Int) :
    .exited code ∉ ch.closingFaults true := by
  have houtlet : ch.outletFault ≠ some (.exited code) := by simp [outletFault]
  have hwait : ch.waitFault true ≠ some (.exited code) := by
    unfold waitFault
    cases ch.waitResult <;> simp
  have hinlet : State.inletFault ch.inlet.close ≠ some (.exited code) := by
    unfold State.inletFault
    split
    · simp
    · simp
    · split <;> simp
  simp [closingFaults, houtlet.symm, hwait.symm, hinlet.symm]

namespace State

theorem mem_of_resultOf {faults : List Fault} {f : Fault}
    (h : resultOf faults.head? = .error f) : f ∈ faults := by
  cases faults with
  | nil => cases h
  | cons g faults =>
    obtain rfl := Except.error.inj h
    exact List.mem_cons_self

variable {s s' : State} {u : List Happening}

/-- Closing does not report the exit code of a child that has been killed. -/
theorem close_ne_exited (hkilled : s.child.isSome = true → s.killed = true) (code : Int) :
    s.close.1 ≠ .error (.exited code) := by
  intro h
  cases hchild : s.child with
  | none =>
    simp only [close, hchild] at h
    cases h
  | some child =>
    obtain ⟨steps, result, hcloses, hclose⟩ := closes_close hchild
    rw [hclose] at h
    cases hcloses with
    | outlet | wait => cases h
    | complete =>
      rw [hkilled (by rw [hchild]; rfl)] at h
      exact child.exited_notMem_closingFaults code (mem_of_resultOf h)

/-- Nor is it in what is logged in front of a launch. -/
theorem Reaped.not_warned (h : s.Reaped u) (hkilled : s.child.isSome = true → s.killed = true)
    (code : Int) : .warn (.notCleaned (.exited code)) ∉ u := by
  have hclose := close_ne_exited hkilled code
  cases h with
  | unattached => simp
  | closed =>
    cases hresult : s.close.1 with
    | ok => simp [closing, logged]
    | error f =>
      rintro hmem
      obtain rfl : .exited code = f := by simpa [closing, logged] using hmem
      exact hclose hresult

/-- A child that is attached to a stopped session has been killed. -/
theorem Orderly.killed_of_stopped {launches : List Launch} (h : s.Orderly launches)
    (hrun : s.running = false) (hchild : s.child.isSome = true) : s.killed = true :=
  (h.stopped hchild).mp hrun

theorem launchResult_ne_exited (code : Int) : s.launchResult ≠ .error (.exited code) := by
  unfold launchResult
  split
  · exact nofun
  · next f _ =>
    cases f with
    | mishap m => cases m <;> exact nofun
    | noBytes cause => exact nofun

/-- When a stopped session is started, the exit code of a child that has been killed is neither
raised nor logged. -/
theorem Starts.not_exited {result : Except Fault Unit} (h : s.Starts result s')
    (hrun : s.running = false) (hkilled : s.child.isSome = true → s.killed = true) (code : Int) :
    result ≠ .error (.exited code) ∧
      .warn (.notCleaned (.exited code)) ∉ s'.trace.drop s.trace.length := by
  rcases h.written hrun with ⟨steps, text, hsteps, rfl, htrace⟩ | ⟨u, hreaped, rfl, htrace⟩
  · rw [htrace, List.drop_left]
    exact ⟨nofun, fun hmem => by simpa [closing] using hsteps.subset hmem⟩
  · rw [htrace, List.drop_left]
    exact ⟨launchResult_ne_exited code, by simpa using hreaped.not_warned hkilled code⟩

/-! ### The child that has been given -/

/-- A session has just been given a child. It runs, nothing has been killed in the life of the
child, and a request, unless there is none for its content, is a turn with this child. -/
structure Attached (s : State) (given : Child) : Prop where
  running : s.running = true
  child : s.child = some given
  killed : s.killed = false
  unmarked : ∀ c, .kill s.lives c ∉ s.trace
  serves : ∀ c q a s', s.Answers c q a s' →
    (∃ f, a = .error f ∧ World.requestFor s q.content = .error f ∧ s' = s) ∨
      ∃ part next, Turn s.lives given (shown part) next ∧ s'.child = some next ∧
        s'.trace = s.trace ++ part

theorem Orderly.attached {launches : List Launch} {given : Child} (h : s.Orderly launches)
    (hrun : s.running = true) (hchild : s.child = some given) (hkilled : s.killed = false) :
    s.Attached given where
  running := hrun
  child := hchild
  killed := hkilled
  unmarked c hkill := by
    have hsome : s.child.isSome = true := by rw [hchild, Option.isSome_some]
    have hstruck := (h.noted hsome).mpr ⟨c, hkill⟩
    rw [hkilled] at hstruck
    cases hstruck
  serves c q a s' ha := by
    rcases ha.cases h.quiet with hleft | ⟨child, r, t, u, hadmits, hserved⟩
    · exact .inl hleft
    · obtain rfl : given = child := Option.some.inj (hchild.symm.trans hadmits.child)
      obtain ⟨frame, hframe, hconveys⟩ := World.conveys_of_requestFor hadmits.request
      exact .inr ⟨_, _, hserved.turn hframe hconveys.line, hserved.child, hserved.trace⟩

end State

/-- A session that is running is started without any effect. Any other is started all or not at all.
If starting raises nothing, the session has just been given the child of the launch, in a new life.
If it raises a fault, the session does not run and has no child, and a request is answered
accordingly. If no child is attached, or closing the one that is attached is refused at most, the
command is launched and only what the launch comes to is raised; what closing would raise is logged
in one warning. The exit code of a child that has been killed is neither raised nor logged. A
refusal to launch the command is raised as that. -/
theorem start_all_or_nothing {client : Client} {launches : List Launch} {episodes : List Episode}
    {s : State} (h : Session client launches episodes s) :
    (s.running = true → s.start = (.ok (), s)) ∧
    (s.running = false →
      (s.start.1 = .ok () → ∃ u given, s.Reaped u ∧ s.nextLaunch = .ok given ∧
        s.start.2.Attached given ∧ s.start.2.lives = s.lives + 1) ∧
      (∀ f, s.start.1 = .error f → s.start.2.running = false ∧ s.start.2.child = none ∧
        (∀ content deadline, s.start.2.perform (.parse content deadline) =
          (.answered (.error .notRunning), s.start.2)) ∧
        ∀ c q a s', s.start.2.Answers c q a s' → a = .error .notRunning ∧ s' = s.start.2) ∧
      (∀ u, s.Reaped u → s.start.1 = s.launchResult ∧
        s.start.2.trace = s.trace ++ (u ++ [.spawn (s.lives + 1) s.client.binary])) ∧
      (∀ code, s.close.1 ≠ .error (.exited code) ∧ s.start.1 ≠ .error (.exited code) ∧
        .warn (.notCleaned (.exited code)) ∉ s.start.2.trace.drop s.trace.length) ∧
      ∀ r binary life, s.nextLaunch = .error (.mishap (.refused r)) →
        .spawn life binary ∈ s.start.2.trace.drop s.trace.length →
          s.start.1 = .error (.cannotStart s.client.binary r)) := by
  refine ⟨fun hrun => ?_, fun hrun => ?_⟩
  · simp only [State.start, if_pos hrun]
  have horderly := h.orderly.begins s.begins_start
  have hkilled := h.orderly.killed_of_stopped hrun
  have hstarts := s.starts_start
  refine ⟨fun hok => ?_, fun f hf => ?_, fun u hu => State.launched_of_reaped hrun hu,
    fun code => ?_, fun r binary life hnext hspawn => ?_⟩
  · rw [hok] at hstarts
    obtain ⟨u, given, hreaped, hnext, hstate⟩ := hstarts.given hrun
    rw [hstate] at horderly ⊢
    exact ⟨u, given, hreaped, hnext, horderly.attached rfl rfl rfl, rfl⟩
  · rw [hf] at hstarts
    obtain ⟨hstopped, hchild⟩ := hstarts.stopped
    refine ⟨hstopped, hchild, fun content deadline => ?_, fun c q a s' ha => ?_⟩
    · exact State.perform_of_requestFor (q := ⟨content, deadline⟩)
        (World.requestFor_of_stopped hstopped content)
    · exact ha.of_stopped horderly.quiet hstopped
  · obtain ⟨hraised, hlogged⟩ := hstarts.not_exited hrun hkilled code
    exact ⟨State.close_ne_exited hkilled code, hraised, hlogged⟩
  · rcases hstarts.written hrun with ⟨steps, text, hsteps, -, htrace⟩ | ⟨u, -, hresult, -⟩
    · rw [htrace, List.drop_left] at hspawn
      have hmem := hsteps.subset hspawn
      simp [closing] at hmem
    · rw [hresult, State.launchResult, hnext]
      rfl

/-- A child that delivers nothing before it is killed, and whose pipe is found broken when it is
closed. -/
def Child.clogged : Child :=
  { Child.following [] [.gate .kill] with
    outlet := ⟨[], [], some (.refused ⟨32, "Broken pipe", none⟩)⟩ }

/-- The launches of this child and of another. -/
def Launch.clogged (next : Child) : List Launch := [.ok .clogged, .ok next]

/-- The session that has started this child, and whose deadline has killed it. -/
def State.stricken (next : Child) : State :=
  (World.alone (initial .standard (Launch.clogged next)).start.2 [] (some (.int 1))).state

theorem session_stricken (next : Child) :
    ∃ episodes, Session .standard (Launch.clogged next) episodes (.stricken next) := by
  have hlate : (State.initial .standard (Launch.clogged next)).start.2.Answers .first
      ⟨[], some (.int 1)⟩ (.error (.late (some (.int 1)))) (.stricken next) :=
    ⟨_, World.moves_alone _ [] (some (.int 1)), by rfl, rfl⟩
  exact ⟨_, (Session.nil.snoc .start).snoc (.parse hlate)⟩

/-- The pipe that is found broken is logged, and the second child is attached. -/
theorem stricken_started :
    let s := State.stricken (.following [] [])
    (∃ launches episodes, Session .standard launches episodes s) ∧ s.running = false ∧
      s.start.1 = .ok () ∧ s.start.2.Attached (.following [] []) ∧
      s.start.2.trace = s.trace ++ (closing 1 ++
        [.warn (.notCleaned (.mishap (.refused ⟨32, "Broken pipe", none⟩)))] ++
        [.spawn 2 Client.standard.binary]) := by
  intro s
  obtain ⟨episodes, h⟩ := session_stricken (.following [] [])
  have hrun : s.running = false := by decide +kernel
  have hchild : s.child = some { Child.clogged with
      inlet := ⟨[], none, .standard⟩, polled := true, killed := true } := by
    decide +kernel
  have hready : s.Reaped (closing 1 ++
      [.warn (.notCleaned (.mishap (.refused ⟨32, "Broken pipe", none⟩)))]) :=
    .closed hchild ⟨fun _ => nofun, fun _ => nofun⟩
  have hok : s.start.1 = .ok () := by rfl
  obtain ⟨hgiven, -, hreaped, -, -⟩ := (start_all_or_nothing h).2 hrun
  obtain ⟨-, htrace⟩ := hreaped _ hready
  obtain ⟨-, given, -, hnext, hattached, -⟩ := hgiven hok
  obtain rfl : Child.following [] [] = given := Except.ok.inj hnext
  exact ⟨⟨_, episodes, h⟩, hrun, hok, hattached, htrace⟩

end ParserClient
