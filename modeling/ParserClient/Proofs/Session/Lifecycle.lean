import ParserClient.Proofs.Session.Serial
import ParserClient.Session.Command

/-!
# The life of a session

A session begins with nothing attached and goes through operations, each of which comes to an
outcome; requests do so in every interleaving with their timers. Starting and closing change the
session in two ways only: a child is let go, or a launch is used up and may attach a child. From
this and from what a request leaves behind, every session is *orderly* after every operation,
whether the operation raised a fault or not.

An operation that waits for ever has no outcome and is not part of a session.

## Main definitions

* `State.Performs` — an operation comes to an outcome.
* `Episode`, `Session` — the operations that a session has gone through.
* `State.LetsGo`, `State.Uses`, `State.Begins` — what closing, launching and starting do to a
  session.
* `State.Tended` — nothing but this has happened.
* `State.Orderly` — the mutex is free, a running session has a child, and a child at rest is one
  that the timer of this session has killed.

## Main results

* `State.performs_perform` — what a session performs is one of its interleavings.
* `Session.orderly` — every session is orderly.
* `session_lifecycle` — what this says of the mutex, the child and the kills written down.
-/

namespace ParserClient

/-! ### Sessions -/

/-- An operation comes to an outcome and leads to a state, in some interleaving of the calls that it
makes. -/
inductive State.Performs (s : State) : Command → Outcome → State → Prop
  | start : Performs s .start (.done s.start.1) s.start.2
  | close : Performs s .close (.done s.close.1) s.close.2
  | enter : Performs s .enter (.entered s.start.1) s.start.2
  | exit : Performs s .exit (.done s.close.1) s.close.2
  | setEncoding (tag : Value) :
      Performs s (.setEncoding tag) (.done (.ok ()))
        { s with client := { s.client with encoding := tag } }
  | parse {q : Ask} {a : Answer} {s' : State} (h : s.Answers .first q a s') :
      Performs s (.parse q.content q.deadline) (.answered a) s'
  | parseTwo {q : Caller → Ask} {a : Caller → Answer} {w : World}
      (h : World.Moves (World.asking s q) w) (ha : ∀ c, (w.call c).answer? = some (a c)) :
      Performs s
        (.parseTwo (q .first).content (q .first).deadline (q .second).content (q .second).deadline)
        (.both (a .first) (a .second)) w.state

/-- An operation of a session, its outcome, and what has happened in it. -/
structure Episode where
  command : Command
  outcome : Outcome
  events : List Happening

/-- The episode in which an operation leads from one state to another. -/
def Episode.between (s : State) (command : Command) (outcome : Outcome) (s' : State) : Episode :=
  ⟨command, outcome, s'.trace.drop s.trace.length⟩

/-- A session of the client with the launches has gone through the episodes and is in the state. -/
inductive Session (client : Client) (launches : List Launch) : List Episode → State → Prop
  | nil : Session client launches [] (State.initial client launches)
  | snoc {episodes : List Episode} {s s' : State} {command : Command} {outcome : Outcome}
      (h : Session client launches episodes s) (hp : s.Performs command outcome s') :
      Session client launches (episodes ++ [.between s command outcome s']) s'

namespace State

private theorem perform_parse (s : State) (content : Text) (deadline : Option Seconds) :
    s.perform (.parse content deadline) =
      match (World.alone s content deadline).first.answer? with
      | some a => (.answered a, (World.alone s content deadline).state)
      | none => (.pending, (World.alone s content deadline).state) := by rfl

private theorem perform_parseTwo (s : State) (content₁ : Text) (deadline₁ : Option Seconds)
    (content₂ : Text) (deadline₂ : Option Seconds) :
    s.perform (.parseTwo content₁ deadline₁ content₂ deadline₂) =
      match (World.together s content₁ deadline₁ content₂ deadline₂).first.answer?,
        (World.together s content₁ deadline₁ content₂ deadline₂).second.answer? with
      | some a, some b =>
        (.both a b, (World.together s content₁ deadline₁ content₂ deadline₂).state)
      | _, _ => (.pending, (World.together s content₁ deadline₁ content₂ deadline₂).state) := by rfl

/-- What a session performs, unless it waits for ever, is an outcome in one interleaving. -/
theorem performs_perform (s : State) (command : Command)
    (h : (s.perform command).1 ≠ .pending) :
    s.Performs command (s.perform command).1 (s.perform command).2 := by
  cases command with
  | start => exact .start
  | close => exact .close
  | enter => exact .enter
  | exit => exact .exit
  | setEncoding tag => exact .setEncoding tag
  | parse content deadline =>
    have hmoves := World.moves_alone s content deadline
    rw [perform_parse] at h ⊢
    generalize World.alone s content deadline = w at h hmoves
    cases ha : w.first.answer? with
    | none => simp [ha] at h
    | some a => exact .parse (q := ⟨content, deadline⟩) ⟨w, hmoves, ha, rfl⟩
  | parseTwo content₁ deadline₁ content₂ deadline₂ =>
    have hmoves := World.moves_together s content₁ deadline₁ content₂ deadline₂
    rw [perform_parseTwo] at h ⊢
    generalize World.together s content₁ deadline₁ content₂ deadline₂ = w at h hmoves
    cases ha : w.first.answer? with
    | none => simp [ha] at h
    | some a =>
      cases hb : w.second.answer? with
      | none => simp [ha, hb] at h
      | some b =>
        refine .parseTwo (q := Caller.pick ⟨content₁, deadline₁⟩ ⟨content₂, deadline₂⟩)
          (a := Caller.pick a b) hmoves fun c => ?_
        cases c with
        | first => exact ha
        | second => exact hb

end State

/-! ### What starting and closing do -/

/-- The happening belongs to no request. -/
def Happening.isUpkeep : Happening → Bool
  | .spawn _ _ | .closeOutlet _ | .wait _ | .closeInlet _ | .warn _ => true
  | _ => false

namespace State

/-- A session lets its child go, if one is attached. -/
inductive LetsGo (s : State) : State → Prop
  | unattached (h : s.child = none) : LetsGo s s
  | detached {u : List Happening} (hu : ∀ h ∈ u, h.isUpkeep = true) :
      LetsGo s { s with running := false, child := none, trace := s.trace ++ u }

/-- A session uses a launch up, and what the launch gives is attached. -/
inductive Uses (s : State) : State → Prop
  | failed {u : List Happening} (hu : ∀ h ∈ u, h.isUpkeep = true) :
      Uses s
        { s with lives := s.lives + 1, launches := s.launches.tail, trace := s.trace ++ u }
  | attached {u : List Happening} {child : Child} (hu : ∀ h ∈ u, h.isUpkeep = true)
      (hnext : s.launches.head? = some (.ok child)) :
      Uses s
        { s with
          running := true
          child := some child
          killed := false
          lives := s.lives + 1
          launches := s.launches.tail
          trace := s.trace ++ u }

/-- A session begins: a running one is left, any other lets its child go and uses a launch up, if
nothing keeps it from that. -/
inductive Begins (s : State) : State → Prop
  | running (h : s.running = true) : Begins s s
  | kept {s' : State} (h : s.LetsGo s') : Begins s s'
  | used {mid s' : State} (hrun : s.running = false) (h : s.LetsGo mid) (h' : mid.Uses s') :
      Begins s s'

/-- From the state `s` to the state `s'` no request is made. -/
def Tended (s s' : State) : Prop :=
  ∃ u, (∀ h ∈ u, h.isUpkeep = true) ∧ s'.trace = s.trace ++ u

theorem Tended.refl (s : State) : s.Tended s := ⟨[], by simp, (List.append_nil _).symm⟩

theorem Tended.trans {s mid s' : State} (h : s.Tended mid) (h' : mid.Tended s') : s.Tended s' := by
  obtain ⟨u, hu, ht⟩ := h
  obtain ⟨u', hu', ht'⟩ := h'
  refine ⟨u ++ u', fun x hx => ?_, by rw [ht', ht, List.append_assoc]⟩
  rcases List.mem_append.mp hx with hx | hx
  · exact hu x hx
  · exact hu' x hx

theorem LetsGo.child_eq_none {s s' : State} (h : s.LetsGo s') : s'.child = none := by
  cases h with
  | unattached hnone => exact hnone
  | detached => rfl

theorem LetsGo.tended {s s' : State} (h : s.LetsGo s') : s.Tended s' := by
  cases h with
  | unattached => exact .refl s
  | detached hu => exact ⟨_, hu, rfl⟩

theorem Uses.tended {s s' : State} (h : s.Uses s') : s.Tended s' := by
  cases h with
  | failed hu => exact ⟨_, hu, rfl⟩
  | attached hu _ => exact ⟨_, hu, rfl⟩

theorem Begins.tended {s s' : State} (h : s.Begins s') : s.Tended s' := by
  cases h with
  | running => exact .refl s
  | kept hgo => exact hgo.tended
  | used _ hgo hu => exact hgo.tended.trans hu.tended

section Upkeep

variable (s : State) (child : Child) (fault : Option Fault)

private theorem waitAndClose_state :
    ∃ u, (∀ h ∈ u, h.isUpkeep = true) ∧
      (s.waitAndClose child fault).2 = { s with trace := s.trace ++ u } := by
  unfold waitAndClose
  cases child.waitResult with
  | error m =>
    cases m with
    | misused text => exact ⟨[.wait s.lives], by simp [Happening.isUpkeep], rfl⟩
    | refused r =>
      refine ⟨[.wait s.lives, .closeInlet s.lives], by simp [Happening.isUpkeep], ?_⟩
      simp [closeInlet, record]
  | ok code =>
    refine ⟨[.wait s.lives, .closeInlet s.lives], by simp [Happening.isUpkeep], ?_⟩
    simp [closeInlet, record]

private theorem letsGo_waitAndClose :
    s.LetsGo
      ((({ s with running := false, child := none } : State).record
        (.closeOutlet s.lives)).waitAndClose child fault).2 := by
  obtain ⟨u, hu, h⟩ := waitAndClose_state
    (({ s with running := false, child := none } : State).record (.closeOutlet s.lives)) child fault
  have hgo : s.LetsGo _ := .detached (u := .closeOutlet s.lives :: u)
    (by simpa [Happening.isUpkeep] using hu)
  rw [h]
  simpa [record] using hgo

theorem letsGo_close : s.LetsGo s.close.2 := by
  unfold close
  cases hchild : s.child with
  | none => exact .unattached hchild
  | some child =>
    dsimp only
    cases child.outlet.close with
    | none => exact letsGo_waitAndClose s child none
    | some m =>
      cases m with
      | misused text => exact .detached (u := [.closeOutlet s.lives]) (by simp [Happening.isUpkeep])
      | refused r => exact letsGo_waitAndClose s child (some (.mishap (.refused r)))

theorem LetsGo.warn {s s' : State} (h : s.LetsGo s') (hchild : s.child.isSome = true)
    (warning : Warning) : s.LetsGo (s'.record (.warn warning)) := by
  cases h with
  | unattached hnone => simp [hnone] at hchild
  | @detached u hu =>
    have hgo : s.LetsGo _ := .detached (u := u ++ [.warn warning]) (by
      intro h hh
      rcases List.mem_append.mp hh with hh | hh
      · exact hu h hh
      · rw [List.mem_singleton.mp hh]
        rfl)
    simpa [record] using hgo

theorem letsGo_reap (hchild : s.child.isSome = true) : s.LetsGo s.reap.2 := by
  have hclose := s.letsGo_close
  unfold reap
  split
  · next h => rwa [h] at hclose
  · next h => rwa [h] at hclose
  · next h =>
    rw [h] at hclose
    exact hclose.warn hchild _

theorem uses_launch : s.Uses s.launch.2 := by
  have hspawn : ∀ h ∈ [Happening.spawn (s.lives + 1) s.client.binary], h.isUpkeep = true := by
    simp [Happening.isUpkeep]
  have hfailed : s.Uses _ := .failed hspawn
  unfold launch
  cases hnext : s.launches with
  | nil => simpa [noLaunch, record, hnext] using hfailed
  | cons next rest =>
    rw [hnext] at hfailed
    cases next with
    | ok child =>
      have hattached : s.Uses _ := .attached hspawn (by rw [hnext]; rfl)
      simpa [record, hnext] using hattached
    | error f =>
      cases f with
      | mishap m => cases m <;> simpa [record] using hfailed
      | noBytes cause => simpa [record] using hfailed

theorem begins_start : s.Begins s.start.2 := by
  unfold start
  by_cases hrun : s.running = true
  · rw [if_pos hrun]
    exact .running hrun
  · rw [if_neg hrun]
    rw [Bool.not_eq_true] at hrun
    by_cases hchild : s.child.isSome = true
    · rw [if_pos hchild]
      have hreap := s.letsGo_reap hchild
      generalize s.reap = result at hreap
      obtain ⟨fault | _, s'⟩ := result
      · exact .kept hreap
      · exact .used hrun hreap s'.uses_launch
    · rw [if_neg hchild]
      exact .used hrun (.unattached (by simpa using hchild)) s.uses_launch

end Upkeep

/-! ### Orderly sessions -/

/-- The mutex is free, a running session has a child, and a child that is attached and not running
is one that the timer of this session has killed. The child that is attached is the one that the
launch of its life has given. -/
structure Orderly (launches : List Launch) (s : State) : Prop where
  quiet : s.Quiet
  stopped : s.child.isSome = true → (s.running = false ↔ s.killed = true)
  noted : s.child.isSome = true → (s.killed = true ↔ ∃ c, .kill s.lives c ∈ s.trace)
  past : ∀ life c, .kill life c ∈ s.trace → life ≤ s.lives
  left : s.launches = launches.drop s.lives
  origin : ∀ child, s.child = some child →
    ∃ life given, s.lives = life + 1 ∧ launches[life]? = some (.ok given) ∧
      child.process = given.process

theorem orderly_initial (client : Client) (launches : List Launch) :
    (initial client launches).Orderly launches where
  quiet := ⟨rfl, by simp [initial]⟩
  stopped := by simp [initial]
  noted := by simp [initial]
  past := by simp [initial]
  left := rfl
  origin := by simp [initial]

theorem kill_mem_append_upkeep {t u : List Happening} (hu : ∀ h ∈ u, h.isUpkeep = true)
    {life : Nat} {c : Caller} : .kill life c ∈ t ++ u ↔ .kill life c ∈ t := by
  rw [List.mem_append, or_iff_left]
  intro h
  cases hu _ h

/-- A request writes one kill down if it leaves the child killed, and none otherwise. -/
theorem kill_mem_served_iff {s s' : State} {c : Caller} {deadline : Option Seconds} {d : Dialogue}
    {t : Timer} {u : List Happening} {a : Answer} (hs : Served s c deadline d t u a s')
    (halive : s.killed = false) {life : Nat} {e : Caller} :
    .kill life e ∈ s'.trace ↔
      .kill life e ∈ s.trace ∨ (life = s.lives ∧ e = c) ∧ s'.killed = true := by
  rw [hs.trace, hs.killed, halive, Bool.false_or, ← hs.kill_mem_iff]
  simp

namespace Orderly

variable {launches : List Launch} {s s' mid : State}

theorem letsGo (h : s.Orderly launches) (hgo : s.LetsGo s') : s'.Orderly launches := by
  cases hgo with
  | unattached => exact h
  | detached hu =>
    exact
      { quiet := ⟨h.quiet.free, by simp⟩
        stopped := by simp
        noted := by simp
        past := fun life c hkill => h.past life c ((kill_mem_append_upkeep hu).mp hkill)
        left := h.left
        origin := by simp }

/-- A launch begins a new life, in which nothing has been killed. -/
theorem uses (h : s.Orderly launches) (hrun : s.running = false) (hchild : s.child = none)
    (hu : s.Uses s') : s'.Orderly launches := by
  have hleft : s.launches.tail = launches.drop (s.lives + 1) := by rw [h.left, List.tail_drop]
  cases hu with
  | failed hu =>
    exact
      { quiet := ⟨h.quiet.free, by simp [hrun]⟩
        stopped := by simp [hchild]
        noted := by simp [hchild]
        past := fun life c hkill =>
          Nat.le_succ_of_le (h.past life c ((kill_mem_append_upkeep hu).mp hkill))
        left := hleft
        origin := by simp [hchild] }
  | @attached u child hu hnext =>
    have hnew : ∀ c, .kill (s.lives + 1) c ∉ s.trace := fun c hkill =>
      absurd (h.past _ c hkill) (Nat.not_succ_le_self _)
    exact
      { quiet := ⟨h.quiet.free, by simp⟩
        stopped := by simp
        noted := by simpa [kill_mem_append_upkeep hu] using hnew
        past := fun life c hkill =>
          Nat.le_succ_of_le (h.past life c ((kill_mem_append_upkeep hu).mp hkill))
        left := hleft
        origin := by
          rintro _ ⟨⟩
          refine ⟨s.lives, child, rfl, ?_, rfl⟩
          rw [h.left, List.head?_drop] at hnext
          exact hnext }

theorem begins (h : s.Orderly launches) (hb : s.Begins s') : s'.Orderly launches := by
  cases hb with
  | running => exact h
  | kept hgo => exact h.letsGo hgo
  | used hrun hgo hu =>
    refine (h.letsGo hgo).uses ?_ hgo.child_eq_none hu
    cases hgo with
    | unattached => exact hrun
    | detached => rfl

/-- A session that has a request for what is asked has not killed its child. -/
theorem alive_of_admits {q : Ask} {child : Child} {r : Request} (h : s.Orderly launches)
    (hadmits : s.Admits q child r) : s.killed = false := by
  have hchild : s.child.isSome = true := by rw [hadmits.child, Option.isSome_some]
  rw [← Bool.not_eq_true, ← h.stopped hchild, World.running_of_requestFor hadmits.request]
  exact Bool.noConfusion

theorem served {c : Caller} {q : Ask} {child : Child} {r : Request} {t : Timer}
    {u : List Happening} {a : Answer} (h : s.Orderly launches) (hadmits : s.Admits q child r)
    (hs : Served s c (q.deadlineIn s) (child.dialogue r) t u a s') : s'.Orderly launches := by
  have hchild : s.child.isSome = true := by rw [hadmits.child, Option.isSome_some]
  have hrun := World.running_of_requestFor hadmits.request
  have halive := h.alive_of_admits hadmits
  have hold : ∀ e, .kill s.lives e ∉ s.trace := by
    intro e he
    have hkilled := (h.noted hchild).mpr ⟨e, he⟩
    rw [halive] at hkilled
    cases hkilled
  exact
    { quiet := hs.quiet
      stopped := fun _ => by rw [hs.running, hrun, Bool.true_and, Bool.not_eq_false']
      noted := fun _ => by
        rw [hs.lives]
        constructor
        · intro hk
          exact ⟨c, (kill_mem_served_iff hs halive).mpr (.inr ⟨⟨rfl, rfl⟩, hk⟩)⟩
        · rintro ⟨e, he⟩
          rcases (kill_mem_served_iff hs halive).mp he with he | he
          · exact absurd he (hold e)
          · exact he.2
      past := fun life e he => by
        rw [hs.lives]
        rcases (kill_mem_served_iff hs halive).mp he with he | he
        · exact h.past life e he
        · exact Nat.le_of_eq he.1.1
      left := by rw [hs.launches, hs.lives, h.left]
      origin := by
        intro child' hchild'
        obtain ⟨life, given, hlife, hgiven, hprocess⟩ := h.origin child hadmits.child
        rw [hs.child] at hchild'
        obtain rfl := Option.some.inj hchild'
        refine ⟨life, given, hs.lives.trans hlife, hgiven, ?_⟩
        exact (child.process_dialogue r).trans hprocess }

theorem answers {c : Caller} {q : Ask} {a : Answer} (h : s.Orderly launches)
    (ha : s.Answers c q a s') : s'.Orderly launches := by
  rcases ha.cases h.quiet with ⟨f, -, -, rfl⟩ | ⟨child, r, t, u, hadmits, hserved⟩
  · exact h
  · exact h.served hadmits hserved

/-- Every operation keeps a session orderly, whatever its outcome. -/
theorem performs {command : Command} {outcome : Outcome} (h : s.Orderly launches)
    (hp : s.Performs command outcome s') : s'.Orderly launches := by
  cases hp with
  | start | enter => exact h.begins s.begins_start
  | close | exit => exact h.letsGo s.letsGo_close
  | setEncoding tag => exact { h with quiet := ⟨h.quiet.free, h.quiet.attached⟩ }
  | parse ha => exact h.answers ha
  | parseTwo hmoves ha =>
    obtain ⟨c, mid, hfirst, hsecond⟩ := answers_of_moves h.quiet hmoves ha
    exact (h.answers hfirst).answers hsecond

end Orderly

end State

/-- Every session is orderly, after every operation. -/
theorem Session.orderly {client : Client} {launches : List Launch} {episodes : List Episode}
    {s : State} (h : Session client launches episodes s) : s.Orderly launches := by
  induction h with
  | nil => exact State.orderly_initial client launches
  | snoc _ hp ih => exact ih.performs hp

/-- After every operation the mutex is free, a session that is running has a child, and a child that
is attached is running unless the timer of this session has killed that very child: the child is the
one that the launch of the current life has given, and it is in this life that the kill has been
written down. -/
theorem session_lifecycle {client : Client} {launches : List Launch} {episodes : List Episode}
    {s : State} (h : Session client launches episodes s) :
    s.holder = none ∧ (s.running = true → s.child.isSome = true) ∧
      ∀ child, s.child = some child →
        (∃ life given, s.lives = life + 1 ∧ launches[life]? = some (.ok given) ∧
          child.process = given.process) ∧
        (s.running = false ↔ ∃ c, .kill s.lives c ∈ s.trace) := by
  have horderly := h.orderly
  refine ⟨horderly.quiet.free, horderly.quiet.attached, fun child hchild => ?_⟩
  have hsome : s.child.isSome = true := by rw [hchild, Option.isSome_some]
  exact ⟨horderly.origin child hchild, (horderly.stopped hsome).trans (horderly.noted hsome)⟩

/-! ### Sessions that can be run -/

theorem Session.perform {client : Client} {launches : List Launch} {episodes : List Episode}
    {s : State} (h : Session client launches episodes s) (command : Command)
    (hne : (s.perform command).1 ≠ .pending) :
    Session client launches
      (episodes ++ [.between s command (s.perform command).1 (s.perform command).2])
      (s.perform command).2 :=
  .snoc h (s.performs_perform command hne)

/-- The client for which nothing is configured. -/
def Client.standard : Client := .make [] (.text []) none

/-- A child whose pipe ends follow the scripts, and which ends well. -/
def Child.following (writes : List Attempt) (items : List Delivery) : Child where
  outlet := ⟨writes, [], none⟩
  inlet := ⟨items, none, .standard⟩
  code := 0
  waitMishap := none
  exited := none
  process := 1
  echoes := false
  polled := false
  killed := false

/-- A session of the standard client that has started a child. -/
def State.started (child : Child) : State := ((initial .standard [.ok child]).perform .start).2

theorem session_started (child : Child) :
    Session .standard [.ok child]
      [.between (.initial .standard [.ok child]) .start (.done (.ok ())) (.started child)]
      (.started child) :=
  Session.nil.perform .start nofun

/-- A child that delivers nothing before it is killed is killed by a request with a deadline. -/
theorem lifecycle_of_silent_child :
    ∃ episodes s, Session .standard [.ok (.following [] [.gate .kill])] episodes s ∧
      s.child.isSome = true ∧ s.running = false ∧ ∃ c, .kill s.lives c ∈ s.trace := by
  have hanswer : ((State.started (.following [] [.gate .kill])).perform
      (.parse [] (some (.int 1)))).1 = .answered (.error (.late (some (.int 1)))) := by rfl
  have h := (session_started (.following [] [.gate .kill])).perform (.parse [] (some (.int 1)))
    (by rw [hanswer]; exact nofun)
  obtain ⟨-, -, hchild⟩ := session_lifecycle h
  have hstopped : ((State.started (.following [] [.gate .kill])).perform
      (.parse [] (some (.int 1)))).2.running = false := by decide +kernel
  exact ⟨_, _, h, by decide +kernel, hstopped, (hchild _ rfl).2.mp hstopped⟩

end ParserClient
