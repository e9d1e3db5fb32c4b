import ParserClient.Proofs.Session.Wire

/-!
# The lives of the children

What is written down in a session, warnings left out, is a sequence of lives. A life is a launch
that fails, or a launch that gives a child, turns of requests with this child, and the closing of
its two pipe ends with the wait for it in between. Only the last life may lack its closing, and then
its child is the one that is attached. A turn is one request with one caller: it has one write of a
whole line, the flush if the write had no mishap, and the reading calls that these ask for, all on
the pipe ends that the launch of this life has given, as the turns before have left them. A child
that has been killed in a turn has no turn after it.

This is so for children whose closing and waiting is refused at most. A misuse is raised at once and
leaves a child half closed.

## Main definitions

* `Inlet.Reads` — reading calls up to a line that is not blank, one by one.
* `Block` — the calls of one request, and the child that they leave.
* `Turn`, `Turns` — a request with a child, and requests one after the other.
* `Life`, `Lives` — a life, and lives one after the other.
* `Child.Tame` — the closing of the child is not misused.

## Main results

* `Child.block_dialogue` — the dialogue of a request is a block.
* `Lives.turn`, `Lives.close`, `Lives.launch` — what a request, closing and launching add.
* `session_lives` — what is written down in a session is a sequence of lives.
-/

namespace ParserClient

/-! ### Reading calls, one by one -/

/-- Of `n` reading calls, with every gate open, all but the last give a blank line, and the last one
does not. What is left is `left`. -/
inductive Inlet.Reads : List Delivery → Nat → List Delivery → Prop
  | last {items left : List Delivery} {result : Except FrameFault Bytes}
      (h : Inlet.next items = (result, left))
      (hend : ∀ line, result = .ok line → Frame.isBlank line = false) : Reads items 1 left
  | blank {items mid left : List Delivery} {line : Bytes} {n : Nat}
      (h : Inlet.next items = (.ok line, mid)) (hblank : Frame.isBlank line = true)
      (hrest : Reads mid n left) : Reads items (n + 1) left

namespace Inlet

theorem Reads.gate {items left : List Delivery} {n : Nat} (h : Reads items n left) (g : Gate) :
    Reads (.gate g :: items) n left := by
  cases h with
  | last h hend => exact .last h hend
  | blank h hblank hrest => exact .blank h hblank hrest

/-- A message is sought by reading calls one by one. -/
theorem reads_seek (items : List Delivery) :
    Reads items ((seek items).1 + 1) (seek items).2.2 := by
  induction items with
  | nil => exact .last rfl (by simp)
  | cons item items ih =>
    cases item with
    | mishap m => exact .last rfl (by simp)
    | gate g => exact ih.gate g
    | bytes b =>
      cases hresult : lineOf b with
      | error f =>
        have hnext : next (.bytes b :: items) = (.error f, items) := by rw [next, hresult]
        rw [seek_of_next_error hnext]
        exact .last hnext (by simp)
      | ok line =>
        have hnext : next (.bytes b :: items) = (.ok line, items) := by rw [next, hresult]
        cases hblank : Frame.isBlank line with
        | true =>
          rw [seek_of_next_blank hnext hblank]
          exact .blank hnext hblank ih
        | false =>
          rw [seek_of_next_line hnext hblank]
          refine .last hnext ?_
          rintro _ ⟨⟩
          exact hblank

end Inlet

/-! ### The calls of one request -/

/-- The calls that a request with a frame makes on the pipe ends of a child, and the child that they
leave. -/
inductive Block (frame : Bytes) (ch : Child) : List PipeEvent → Child → Prop
  | unwritten {m : Mishap} (hwrite : ch.outlet.nextWrite.mishap = some m) :
      Block frame ch [.write frame, .readline]
        (ch.afterWrite.withItems (Inlet.next ch.inlet.items).2)
  | unflushed {m : Mishap} (hwrite : ch.outlet.nextWrite.mishap = none)
      (hflush : ch.outlet.nextFlush.mishap = some m) :
      Block frame ch [.write frame, .flush, .readline]
        ((ch.afterWrite.afterFlush frame false).withItems (Inlet.next ch.inlet.items).2)
  | exchanged {n : Nat} {left : List Delivery} (hwrite : ch.outlet.nextWrite.mishap = none)
      (hflush : ch.outlet.nextFlush.mishap = none)
      (hreads : Inlet.Reads (ch.afterWrite.afterFlush frame true).inlet.items n left) :
      Block frame ch (.write frame :: .flush :: List.replicate n .readline)
        ((ch.afterWrite.afterFlush frame true).withItems left)

/-- The dialogue of a request is a block. -/
theorem Child.block_dialogue (ch : Child) {r : Request} {frame : Bytes}
    (hframe : Frame.ofRequest r = .ok frame) :
    Block frame ch (ch.dialogue r).events (ch.dialogue r).child := by
  rw [dialogue_of_frame hframe, Dialogue.behind, whenWriting]
  cases hwrite : ch.outlet.nextWrite.mishap with
  | some m => exact .unwritten hwrite
  | none =>
    simp only [Dialogue.behind, whenFlushing]
    cases hflush : ch.afterWrite.outlet.nextFlush.mishap with
    | some m =>
      have hitems : (ch.afterWrite.afterFlush frame false).inlet.items = ch.inlet.items := by
        simp [afterFlush, afterWrite]
      have hblock : Block frame ch [.write frame, .flush, .readline]
          ((ch.afterWrite.afterFlush frame false).withItems (Inlet.next ch.inlet.items).2) :=
        .unflushed hwrite hflush
      rw [← hitems] at hblock
      exact hblock
    | none => exact .exchanged hwrite hflush (Inlet.reads_seek _)

/-! ### Turns -/

/-- What is logged. -/
def Happening.isWarning : Happening → Bool
  | .warn _ => true
  | _ => false

/-- What has happened, without what is logged. -/
def shown (t : List Happening) : List Happening := t.filter fun h => !h.isWarning

/-- A caller has the mutex and makes one request with the child of a life. The request has a frame
that is one line; the timer may poll the child once and then kill it, if it was found alive. -/
inductive Turn (life : Nat) (ch : Child) : List Happening → Child → Prop
  | served {c : Caller} {frame : Bytes} {u : List Happening} {after : Child} {t : Timer}
      (hline : Frame.IsLine frame) (hwithin : ∀ h ∈ u, h.Within life c ∧ h.isWarning = false)
      (hblock : Block frame ch (u.filterMap Happening.pipe?) after)
      (hmarks : u.filter Happening.isMark = t.marks life c after.isAlive) :
      Turn life ch (.acquire c :: (u ++ [.release c])) (after.marked t)

/-- Turns one after the other with the child that was given. None follows the one in which the child
has been killed. -/
inductive Turns (life : Nat) (given : Child) : List (List Happening) → Child → Prop
  | nil : Turns life given [] given
  | snoc {parts : List (List Happening)} {ch next : Child} {part : List Happening}
      (h : Turns life given parts ch) (halive : ∀ c, .kill life c ∉ parts.flatten)
      (turn : Turn life ch part next) : Turns life given (parts ++ [part]) next

/-! ### Lives -/

/-- The end of a life. -/
def closing (life : Nat) : List Happening := [.closeOutlet life, .wait life, .closeInlet life]

/-- The life that the launch of number `n` begins, and the child that is attached behind it. -/
inductive Life (binary : Text) (launches : List Launch) (n : Nat) :
    List Happening → Option Child → Prop
  | failed (h : ∀ given, launches[n]? ≠ some (.ok given)) :
      Life binary launches n [.spawn (n + 1) binary] none
  | unfinished {given ch : Child} {parts : List (List Happening)}
      (h : launches[n]? = some (.ok given)) (turns : Turns (n + 1) given parts ch) :
      Life binary launches n (.spawn (n + 1) binary :: parts.flatten) (some ch)
  | finished {given ch : Child} {parts : List (List Happening)}
      (h : launches[n]? = some (.ok given)) (turns : Turns (n + 1) given parts ch) :
      Life binary launches n (.spawn (n + 1) binary :: (parts.flatten ++ closing (n + 1))) none

/-- Lives one after the other. None begins before the one in front of it is finished. -/
inductive Lives (binary : Text) (launches : List Launch) :
    Nat → List Happening → Option Child → Prop
  | nil : Lives binary launches 0 [] none
  | snoc {n : Nat} {t part : List Happening} {attached : Option Child}
      (h : Lives binary launches n t none) (life : Life binary launches n part attached) :
      Lives binary launches (n + 1) (t ++ part) attached

namespace Lives

variable {binary : Text} {launches : List Launch} {n : Nat} {t : List Happening} {ch : Child}

/-- The life whose child is attached is the last one. -/
theorem unfinished (h : Lives binary launches n t (some ch)) :
    ∃ k front given parts, n = k + 1 ∧ Lives binary launches k front none ∧
      launches[k]? = some (.ok given) ∧ Turns (k + 1) given parts ch ∧
      t = front ++ (.spawn (k + 1) binary :: parts.flatten) := by
  cases h with
  | snoc h life =>
    cases life with
    | unfinished hgiven turns => exact ⟨_, _, _, _, rfl, h, hgiven, turns, rfl⟩

/-- A request adds a turn. -/
theorem turn {part : List Happening} {next : Child} (h : Lives binary launches n t (some ch))
    (halive : ∀ c, .kill n c ∉ t) (hturn : Turn n ch part next) :
    Lives binary launches n (t ++ part) (some next) := by
  obtain ⟨k, front, given, parts, rfl, hfront, hgiven, hturns, rfl⟩ := h.unfinished
  have hparts : ∀ c, .kill (k + 1) c ∉ parts.flatten := fun c hc => halive c (by simp [hc])
  have hlife : Life binary launches k _ (some next) :=
    .unfinished hgiven (hturns.snoc hparts hturn)
  simpa using hfront.snoc hlife

/-- Closing finishes the last life. -/
theorem close (h : Lives binary launches n t (some ch)) :
    Lives binary launches n (t ++ closing n) none := by
  obtain ⟨k, front, given, parts, rfl, hfront, hgiven, hturns, rfl⟩ := h.unfinished
  have hlife : Life binary launches k _ none := .finished hgiven hturns
  simpa using hfront.snoc hlife

/-- A launch begins a life. -/
theorem launch {attached : Option Child} (h : Lives binary launches n t none)
    (hattached : attached = match launches[n]? with
      | some (.ok given) => some given
      | _ => none) :
    Lives binary launches (n + 1) (t ++ [.spawn (n + 1) binary]) attached := by
  subst hattached
  split
  · next given hgiven => exact h.snoc (.unfinished hgiven .nil)
  · next hnone => exact h.snoc (.failed hnone)

end Lives

/-! ### Warnings left out -/

theorem shown_append (t u : List Happening) : shown (t ++ u) = shown t ++ shown u :=
  List.filter_append ..

theorem mem_shown {h : Happening} {t : List Happening} :
    h ∈ shown t ↔ h ∈ t ∧ h.isWarning = false := by
  simp [shown]

theorem shown_of_warnings {u : List Happening} (hu : ∀ h ∈ u, h.isWarning = true) :
    shown u = [] := by
  refine List.filter_eq_nil_iff.mpr fun h hh => ?_
  simp [hu h hh]

theorem filterMap_pipe?_shown (u : List Happening) :
    (shown u).filterMap Happening.pipe? = u.filterMap Happening.pipe? := by
  rw [shown, List.filterMap_filter]
  refine List.filterMap_congr fun h _ => ?_
  cases h <;> rfl

theorem filter_isMark_shown (u : List Happening) :
    (shown u).filter Happening.isMark = u.filter Happening.isMark := by
  rw [shown, List.filter_filter]
  refine List.filter_congr fun h _ => ?_
  cases h <;> rfl

/-- A request that has been served is a turn. -/
theorem Served.turn {s s' : State} {c : Caller} {deadline : Option Seconds} {child : Child}
    {r : Request} {t : Timer} {u : List Happening} {a : Answer}
    (h : Served s c deadline (child.dialogue r) t u a s') {frame : Bytes}
    (hframe : Frame.ofRequest r = .ok frame) (hline : Frame.IsLine frame) :
    Turn s.lives child (shown (.acquire c :: (u ++ [.release c])))
      ((child.dialogue r).child.marked t) := by
  have hshown : shown (.acquire c :: (u ++ [.release c])) =
      .acquire c :: (shown u ++ [.release c]) := by
    simp [shown, Happening.isWarning]
  rw [hshown]
  refine .served hline (fun x hx => ?_) ?_ ?_
  · obtain ⟨hx, hwarning⟩ := mem_shown.mp hx
    exact ⟨h.within x hx, hwarning⟩
  · rw [filterMap_pipe?_shown, h.events]
    exact child.block_dialogue hframe
  · rw [filter_isMark_shown, h.marks]

/-! ### Closing and launching -/

/-- Closing the pipe to the child and waiting for it are not misused. -/
structure Child.Tame (ch : Child) : Prop where
  close : ∀ text, ch.outlet.close ≠ some (.misused text)
  wait : ∀ text, ch.waitMishap ≠ some (.misused text)

theorem Block.tame {frame : Bytes} {ch after : Child} {events : List PipeEvent}
    (h : Block frame ch events after) (ht : ch.Tame) : after.Tame := by
  cases h <;> exact ⟨ht.close, ht.wait⟩

theorem Turn.tame {life : Nat} {ch next : Child} {part : List Happening}
    (h : Turn life ch part next) (ht : ch.Tame) : next.Tame := by
  cases h with
  | served _ _ hblock _ => exact ⟨(hblock.tame ht).close, (hblock.tame ht).wait⟩

namespace State

/-- The result is not that of a misuse. -/
def Mild (result : Except Fault Unit) : Prop :=
  ∀ text, result ≠ .error (.mishap (.misused text))

/-- The fault is not that of a misuse. -/
def MildFault (fault : Option Fault) : Prop :=
  ∀ text, fault ≠ some (.mishap (.misused text))

theorem MildFault.or {fault later : Option Fault} (h : MildFault fault) (h' : MildFault later) :
    MildFault (fault.or later) := by
  cases fault with
  | none => exact h'
  | some f => exact h

theorem mildFault_inletFault (m : Option Mishap) : MildFault (inletFault m) := by
  intro text h
  unfold inletFault at h
  split at h
  · cases h
  · cases h
  · split at h <;> cases h

theorem MildFault.resultOf {fault : Option Fault} (h : MildFault fault) :
    Mild (resultOf fault) := by
  cases fault with
  | none => exact fun _ => nofun
  | some f =>
    intro text hf
    obtain rfl := Except.error.inj hf
    exact h text rfl

variable (s : State) (child : Child)

theorem closeInlet_eq {fault : Option Fault} (hfault : MildFault fault) :
    ∃ result, s.closeInlet child fault =
      (result, { s with trace := s.trace ++ [.closeInlet s.lives] }) ∧ Mild result :=
  ⟨_, rfl, (hfault.or (mildFault_inletFault _)).resultOf⟩

theorem waitAndClose_eq {fault : Option Fault} (htame : child.Tame) (hfault : MildFault fault) :
    ∃ result, s.waitAndClose child fault =
      (result, { s with trace := s.trace ++ [.wait s.lives, .closeInlet s.lives] }) ∧
        Mild result := by
  have hinlet : ∀ later, MildFault later → ∃ result,
      (s.record (.wait s.lives)).closeInlet child (fault.or later) =
        (result, { s with trace := s.trace ++ [.wait s.lives, .closeInlet s.lives] }) ∧
          Mild result := by
    intro later hlater
    obtain ⟨result, heq, hmild⟩ :=
      (s.record (.wait s.lives)).closeInlet_eq child (hfault.or hlater)
    exact ⟨result, by simpa [record] using heq, hmild⟩
  unfold waitAndClose Child.waitResult
  cases hmishap : child.waitMishap with
  | some m =>
    cases m with
    | misused text => exact absurd hmishap (htame.wait text)
    | refused r => exact hinlet _ (fun _ => by simp)
  | none =>
    refine hinlet _ fun text => ?_
    split <;> simp

theorem close_eq (hchild : s.child = some child) (htame : child.Tame) :
    ∃ result, s.close =
      (result,
        { s with running := false, child := none, trace := s.trace ++ closing s.lives }) ∧
        Mild result := by
  have hwait : ∀ fault, MildFault fault → ∃ result,
      (({ s with running := false, child := none } : State).record
        (.closeOutlet s.lives)).waitAndClose child fault =
        (result,
          { s with running := false, child := none, trace := s.trace ++ closing s.lives }) ∧
          Mild result := by
    intro fault hfault
    obtain ⟨result, heq, hmild⟩ := waitAndClose_eq
      (({ s with running := false, child := none } : State).record (.closeOutlet s.lives)) child
      htame hfault
    exact ⟨result, by simpa [record, closing] using heq, hmild⟩
  cases hclose : child.outlet.close with
  | none =>
    simp only [close, hchild, hclose]
    exact hwait none fun _ => by simp
  | some m =>
    cases m with
    | misused text => exact absurd hclose (htame.close text)
    | refused r =>
      simp only [close, hchild, hclose]
      exact hwait (some (.mishap (.refused r))) fun _ => by simp

/-- What is logged when a killed child is closed and its closing comes to a result. -/
def logged : Except Fault Unit → List Happening
  | .ok () => []
  | .error f => [.warn (.notCleaned f)]

theorem isWarning_of_mem_logged (result : Except Fault Unit) :
    ∀ h ∈ logged result, h.isWarning = true := by
  cases result <;> simp [logged, Happening.isWarning]

theorem reap_eq (hchild : s.child = some child) (htame : child.Tame) :
    s.reap = (.ok (), { s with
      running := false, child := none,
      trace := s.trace ++ closing s.lives ++ logged s.close.1 }) := by
  obtain ⟨result, heq, hmild⟩ := s.close_eq child hchild htame
  unfold reap
  simp only [heq]
  cases result with
  | ok _ => simp only [logged, List.append_nil]
  | error f =>
    split
    · next h => cases h
    · next h => exact absurd (congrArg Prod.fst h) (hmild _)
    · next h =>
      obtain ⟨hf, rfl⟩ := Prod.mk.inj h
      obtain rfl := Except.error.inj hf
      rfl

/-- A launch is written down, and what it gives is attached. -/
theorem launch_eq (hchild : s.child = none) :
    s.launch.2.trace = s.trace ++ [.spawn (s.lives + 1) s.client.binary] ∧
      s.launch.2.lives = s.lives + 1 ∧ s.launch.2.client = s.client ∧
      s.launch.2.child = match s.launches.head? with
        | some (.ok given) => some given
        | _ => none := by
  unfold launch
  cases s.launches with
  | nil => exact ⟨rfl, rfl, rfl, hchild⟩
  | cons next rest =>
    cases next with
    | ok given => exact ⟨rfl, rfl, rfl, rfl⟩
    | error f =>
      cases f with
      | mishap m => cases m <;> exact ⟨rfl, rfl, rfl, hchild⟩
      | noBytes cause => exact ⟨rfl, rfl, rfl, hchild⟩

end State

/-! ### Sessions -/

/-- A session is a sequence of lives of tame children. -/
structure State.Lived (client : Client) (launches : List Launch) (s : State) : Prop where
  lives : Lives client.binary launches s.lives (shown s.trace) s.child
  tame : ∀ child, s.child = some child → child.Tame
  binary : s.client.binary = client.binary

namespace State.Lived

variable {client : Client} {launches : List Launch} {s s' : State}

theorem closed {child : Child} {u : List Happening} (h : s.Lived client launches)
    (hchild : s.child = some child) (hu : ∀ h ∈ u, h.isWarning = true) :
    ({ s with
      running := false
      child := none
      trace := s.trace ++ closing s.lives ++ u } : State).Lived client launches := by
  have hlives := h.lives
  rw [hchild] at hlives
  have hshown : shown (s.trace ++ closing s.lives ++ u) = shown s.trace ++ closing s.lives := by
    rw [shown_append, shown_append, shown_of_warnings hu, List.append_nil]
    rfl
  exact ⟨hshown ▸ hlives.close, by simp, h.binary⟩

theorem close (h : s.Lived client launches) : s.close.2.Lived client launches := by
  cases hchild : s.child with
  | none =>
    have hclose : s.close = (.ok (), s) := by simp only [State.close, hchild]
    rwa [hclose]
  | some child =>
    obtain ⟨result, heq, -⟩ := s.close_eq child hchild (h.tame child hchild)
    rw [heq]
    simpa using h.closed hchild (u := []) (by simp)

theorem launch (h : s.Lived client launches) (ho : s.Orderly launches)
    (htame : ∀ given, .ok given ∈ launches → Child.Tame given) (hchild : s.child = none) :
    s.launch.2.Lived client launches := by
  obtain ⟨htrace, hlives, hclient, hattached⟩ := s.launch_eq hchild
  have hhead : s.launches.head? = launches[s.lives]? := by rw [ho.left, List.head?_drop]
  rw [hhead] at hattached
  have hbegun := h.lives
  rw [hchild] at hbegun
  refine ⟨?_, fun child hc => ?_, by rw [hclient, h.binary]⟩
  · rw [htrace, hlives, shown_append, h.binary]
    exact hbegun.launch hattached
  · rw [hattached] at hc
    split at hc
    · next given hgiven =>
      obtain rfl := Option.some.inj hc
      exact htame _ (List.mem_of_getElem? hgiven)
    · cases hc

theorem start (h : s.Lived client launches) (ho : s.Orderly launches)
    (htame : ∀ given, .ok given ∈ launches → Child.Tame given) :
    s.start.2.Lived client launches := by
  unfold State.start
  by_cases hrun : s.running = true
  · rwa [if_pos hrun]
  · rw [if_neg hrun]
    cases hchild : s.child with
    | none =>
      rw [if_neg (by simp)]
      exact h.launch ho htame hchild
    | some child =>
      rw [if_pos Option.isSome_some]
      have heq := s.reap_eq child hchild (h.tame child hchild)
      have hgo := ho.letsGo (s.letsGo_reap (by rw [hchild]; rfl))
      rw [heq] at hgo ⊢
      exact (h.closed hchild (isWarning_of_mem_logged _)).launch hgo htame rfl

theorem answers {c : Caller} {q : Ask} {a : Answer} (h : s.Lived client launches)
    (ho : s.Orderly launches) (ha : s.Answers c q a s') : s'.Lived client launches := by
  rcases ha.cases ho.quiet with ⟨f, -, -, rfl⟩ | ⟨child, r, t, u, hadmits, hserved⟩
  · exact h
  · obtain ⟨frame, hframe, hconveys⟩ := World.conveys_of_requestFor hadmits.request
    have hturn := hserved.turn hframe hconveys.line
    have hlives := h.lives
    rw [hadmits.child] at hlives
    have halive : ∀ e, .kill s.lives e ∉ shown s.trace := by
      intro e he
      have hsome : s.child.isSome = true := by rw [hadmits.child, Option.isSome_some]
      have hkilled := (ho.noted hsome).mpr ⟨e, (mem_shown.mp he).1⟩
      rw [ho.alive_of_admits hadmits] at hkilled
      cases hkilled
    refine ⟨?_, fun child' hchild' => ?_, by rw [hserved.client, h.binary]⟩
    · rw [hserved.lives, hserved.trace, shown_append, hserved.child]
      exact hlives.turn halive hturn
    · rw [hserved.child] at hchild'
      obtain rfl := Option.some.inj hchild'
      exact hturn.tame (h.tame child hadmits.child)

/-- Every operation goes on with the lives. -/
theorem performs {command : Command} {outcome : Outcome} (h : s.Lived client launches)
    (ho : s.Orderly launches) (htame : ∀ given, .ok given ∈ launches → Child.Tame given)
    (hp : s.Performs command outcome s') : s'.Lived client launches := by
  cases hp with
  | start | enter => exact h.start ho htame
  | close | exit => exact h.close
  | setEncoding tag => exact ⟨h.lives, h.tame, h.binary⟩
  | parse ha => exact h.answers ho ha
  | parseTwo hmoves ha =>
    obtain ⟨c, mid, hfirst, hsecond⟩ := answers_of_moves ho.quiet hmoves ha
    exact (h.answers ho hfirst).answers (ho.answers hfirst) hsecond

end State.Lived

/-- What is written down in a session of tame children is a sequence of lives, as many as have been
begun. The child that is attached is the one that the last life has left; if none is attached, all
lives are finished. -/
theorem session_lives {client : Client} {launches : List Launch} {episodes : List Episode}
    {s : State} (h : Session client launches episodes s)
    (htame : ∀ given, .ok given ∈ launches → Child.Tame given) :
    Lives client.binary launches s.lives (shown s.trace) s.child := by
  have hlived : s.Lived client launches := by
    induction h with
    | nil => exact ⟨.nil, by simp [State.initial], rfl⟩
    | snoc hsession hp ih => exact ih.performs hsession.orderly htame hp
  exact hlived.lives

/-- Three launches: the first fails, and the child of the second delivers nothing before it is
killed. -/
def Launch.three : List Launch :=
  [.error (.mishap (.refused State.noLaunch)), .ok (.following [] [.gate .kill]),
    .ok (.following [] [])]

theorem tame_following (writes : List Attempt) (items : List Delivery) :
    (Child.following writes items).Tame where
  close := by simp [Child.following]
  wait := by simp [Child.following]

theorem tame_of_three : ∀ given, .ok given ∈ Launch.three → Child.Tame given := by
  intro given hgiven
  simp only [Launch.three, List.mem_cons, Except.ok.injEq, reduceCtorEq, List.not_mem_nil, or_false,
    false_or] at hgiven
  rcases hgiven with rfl | rfl <;> exact tame_following _ _

/-- The session with these launches, started in vain and started again. -/
def State.startedTwice : State := (initial .standard Launch.three).start.2.start.2

/-- The session is started in vain, started, stopped by a deadline, started again and closed. -/
theorem three_lives :
    ∃ episodes s, Session .standard Launch.three episodes s ∧
      (∀ given, .ok given ∈ Launch.three → Child.Tame given) ∧
      s.lives = 3 ∧ s.child = none ∧
      Lives Client.standard.binary Launch.three s.lives (shown s.trace) s.child := by
  have hbegun : Session .standard Launch.three _ .startedTwice := .snoc (.snoc .nil .start) .start
  have hlate : State.startedTwice.Answers .first ⟨[], some (.int 1)⟩
      (.error (.late (some (.int 1))))
      (World.alone .startedTwice [] (some (.int 1))).state :=
    ⟨_, World.moves_alone .startedTwice [] (some (.int 1)), by rfl, rfl⟩
  have h := ((hbegun.snoc (.parse hlate)).snoc .start).snoc .close
  exact ⟨_, _, h, tame_of_three, by decide +kernel, by decide +kernel,
    session_lives h tame_of_three⟩

end ParserClient
