import ParserClient.Proofs.Session.Lifecycle

/-!
# Which line answers which request

Replies carry no name, so a request is answered from the next message on the output of the child,
a message being a line that is not blank. While no write and no flush has a mishap and the child is
not killed, a request that is written is answered from the next message, or its reading fails. A
reading that fails uses no message up: the session runs on, and the reply that belongs to the
request is left to the next one. So the answers that are read at all are read from the messages in
order and without a gap, and a request is answered from the message of its own number exactly when
no reading has failed before it.

## Main definitions

* `Inlet.messages` — the messages on an output.
* `Answer.isRead` — an answer that was read from a line.
* `Outlet.Smooth` — the first writes and flushes have no mishap.
* `Happening.writtenTo`, `framesTo`, `answersTo` — the requests written to a child, and the answers
  to them.
* `Paired` — the answers that were read, against the messages of the child.

## Main results

* `Child.dialogue_of_smooth` — a request whose write and flush have no mishap.
* `Session.paired` — every session is paired.
* `replies_paired` — the message from which a request is answered.
-/

namespace ParserClient

/-! ### Messages -/

/-- The fault is one of a reading call, not of what it has read. -/
def FrameFault.isOfReading : FrameFault → Bool
  | .ended | .closed _ | .unreadable _ => true
  | _ => false

/-- The answer was read from a line. -/
def Answer.isRead : Answer → Bool
  | .error (.frame f) => !f.isOfReading
  | _ => true

namespace Inlet

/-- The messages on an output: the lines that are not blank. -/
def messages (items : List Delivery) : List Bytes :=
  items.filterMap fun
    | .bytes b => if Frame.isBlank b then none else some b
    | _ => none

theorem messages_append (items later : List Delivery) :
    messages (items ++ later) = messages items ++ messages later := List.filterMap_append ..

theorem isOfReading_faultOf (m : Mishap) : (faultOf m).isOfReading = true := by
  cases m <;> rfl

/-- Seeking passes the message that it gives and no other; if it fails, it passes none. -/
theorem seek_passes (items : List Delivery) :
    ∃ passed, items = passed ++ (seek items).2.2 ∧
      ((∃ line, (seek items).2.1 = .ok line ∧ messages passed = [line]) ∨
        ∃ f, (seek items).2.1 = .error f ∧ f.isOfReading = true ∧ messages passed = []) := by
  induction items with
  | nil => exact ⟨[], rfl, .inr ⟨.ended, rfl, rfl, rfl⟩⟩
  | cons item items ih =>
    obtain ⟨passed, hitems, hresult⟩ := ih
    cases item with
    | mishap m => exact ⟨[.mishap m], rfl, .inr ⟨_, rfl, isOfReading_faultOf m, rfl⟩⟩
    | gate g => exact ⟨.gate g :: passed, congrArg _ hitems, hresult⟩
    | bytes b =>
      by_cases hb : b.isEmpty = true
      · rw [List.isEmpty_iff] at hb
        subst hb
        exact ⟨[.bytes []], rfl, .inr ⟨.ended, rfl, rfl, rfl⟩⟩
      · by_cases hblank : Frame.isBlank b = true
        · have hseek : (seek (.bytes b :: items)).2 = (seek items).2 := by
            simp [seek, hb, hblank]
          have hmessages : messages (.bytes b :: passed) = messages passed := by
            simp [messages, hblank]
          rw [hseek]
          exact ⟨.bytes b :: passed, congrArg _ hitems, by rwa [hmessages]⟩
        · have hseek : seek (.bytes b :: items) = (0, .ok b, items) := by
            simp [seek, hb, hblank]
          rw [hseek]
          exact ⟨[.bytes b], rfl, .inl ⟨b, rfl, by simp [messages, hblank]⟩⟩

end Inlet

namespace Frame

theorem isRead_answer (r : Reply) : Answer.isRead r.answer = true := by
  unfold Reply.answer
  cases r.status <;> rfl

/-- What is made of a line is an answer that was read. -/
theorem isRead_readReply (room : Room) (line : Bytes) :
    Answer.isRead (Exchange.answer (readReply room line)) = true := by
  cases h : readReply room line with
  | ok r => exact isRead_answer r
  | error f =>
    rcases readReply_eq_error h with ⟨_, rfl⟩ | ⟨_, rfl⟩ | rfl | ⟨_, rfl⟩ | ⟨_, rfl⟩ <;> rfl

end Frame

/-! ### A request without a mishap -/

/-- The first `n` writes and the first `n` flushes have no mishap. -/
structure Outlet.Smooth (o : Outlet) (n : Nat) : Prop where
  writes : ∀ k < n, ∀ a, o.writes[k]? = some a → a.mishap = none
  flushes : ∀ k < n, ∀ a, o.flushes[k]? = some a → a.mishap = none

namespace Outlet.Smooth

variable {o : Outlet} {m n : Nat}

theorem mono (h : o.Smooth n) (hm : m ≤ n) : o.Smooth m :=
  ⟨fun k hk => h.writes k (Nat.lt_of_lt_of_le hk hm),
    fun k hk => h.flushes k (Nat.lt_of_lt_of_le hk hm)⟩

theorem nextWrite (h : o.Smooth (n + 1)) : o.nextWrite.mishap = none := by
  unfold Outlet.nextWrite
  cases hw : o.writes with
  | nil => rfl
  | cons a rest => exact h.writes 0 (Nat.succ_pos n) a (by rw [hw]; rfl)

theorem nextFlush (h : o.Smooth (n + 1)) : o.nextFlush.mishap = none := by
  unfold Outlet.nextFlush
  cases hf : o.flushes with
  | nil => rfl
  | cons a rest => exact h.flushes 0 (Nat.succ_pos n) a (by rw [hf]; rfl)

/-- What is left after a write and a flush is smooth one call less far. -/
theorem dropBoth (h : o.Smooth (n + 1)) : o.dropWrite.dropFlush.Smooth n where
  writes k hk a ha := h.writes (k + 1) (Nat.succ_lt_succ hk) a (by
    rwa [Outlet.dropFlush, Outlet.dropWrite, List.getElem?_tail] at ha)
  flushes k hk a ha := h.flushes (k + 1) (Nat.succ_lt_succ hk) a (by
    rwa [Outlet.dropFlush, Outlet.dropWrite, List.getElem?_tail] at ha)

end Outlet.Smooth

/-- The frame that a call writes. -/
def PipeEvent.frame? : PipeEvent → Option Bytes
  | .write frame => some frame
  | _ => none

namespace Child

/-- The items on the output of a child when frames have reached it and none has been read. -/
def outputAfter (ch : Child) (frames : List Bytes) : List Delivery :=
  ch.inlet.items ++ if ch.echoes then frames.map .bytes else []

theorem outputAfter_append (ch : Child) (frames later : List Bytes) :
    ch.outputAfter (frames ++ later) =
      ch.outputAfter frames ++ if ch.echoes then later.map .bytes else [] := by
  unfold outputAfter
  by_cases h : ch.echoes = true
  · simp [h]
  · simp [h]

/-- The child is what is left of another one to which `written` frames have been written: it has the
items `left` on its output. -/
structure Continues (ch given : Child) (written : Nat) (left : List Delivery) : Prop where
  items : ch.inlet.items = left
  echoes : ch.echoes = given.echoes
  room : ch.inlet.room = given.inlet.room
  smooth : ∀ m, given.outlet.Smooth (written + m) → ch.outlet.Smooth m

theorem dialogue_of_smooth {ch : Child} {request : Request} {frame : Bytes}
    (hs : ch.outlet.Smooth 1) (hframe : Frame.ofRequest request = .ok frame) :
    ch.dialogue request = (ch.afterWrite.afterFlush frame true).whenReading.behind
      [.write frame, .flush, .readline] := by
  have hflush : ch.afterWrite.outlet.nextFlush.mishap = none := hs.nextFlush
  rw [dialogue_of_frame hframe]
  simp only [whenWriting, hs.nextWrite, whenFlushing, hflush, Dialogue.behind_behind,
    List.cons_append, List.nil_append]

/-- A request is written once, whatever becomes of the write. -/
theorem frames_dialogue (ch : Child) {request : Request} {frame : Bytes}
    (hframe : Frame.ofRequest request = .ok frame) :
    (ch.dialogue request).events.filterMap PipeEvent.frame? = [frame] := by
  have hreading (ch : Child) : ch.whenReading.events.filterMap PipeEvent.frame? = [] := by
    simp [whenReading, PipeEvent.frame?]
  have hflushing (ch : Child) : (ch.whenFlushing frame).events.filterMap PipeEvent.frame? = [] := by
    unfold whenFlushing
    cases ch.outlet.nextFlush.mishap with
    | none => exact (List.filterMap_append ..).trans (hreading _)
    | some m => rfl
  rw [dialogue_of_frame hframe, whenWriting]
  cases ch.outlet.nextWrite.mishap with
  | none => exact (List.filterMap_append ..).trans (congrArg _ (hflushing _))
  | some m => rfl

theorem items_afterFlush (ch : Child) (frame : Bytes) :
    (ch.afterWrite.afterFlush frame true).inlet.items =
      ch.inlet.items ++ if ch.echoes then [.bytes frame] else [] := by
  unfold afterWrite afterFlush
  by_cases h : ch.echoes = true
  · simp [h]
  · simp [h]

end Child

/-! ### Requests that are written and their answers -/

/-- The answer of a caller that is part of an outcome. -/
def Outcome.answer? : Outcome → Caller → Option Answer
  | .answered a, .first => some a
  | .both a _, .first => some a
  | .both _ b, .second => some b
  | _, _ => none

/-- An answer in an outcome is one to a request that is made where no other is under way, with the
client as it has been before. -/
theorem State.Performs.exists_answers {s s' : State} {command : Command} {outcome : Outcome}
    (hs : s.Quiet) (h : s.Performs command outcome s') {c : Caller} {a : Answer}
    (ha : outcome.answer? c = some a) :
    ∃ (mid : State) (q : Ask) (s'' : State),
      mid.Quiet ∧ mid.client = s.client ∧ mid.Answers c q a s'' := by
  cases h with
  | start | close | enter | exit | setEncoding => cases ha
  | parse hanswers =>
    cases c with
    | first =>
      obtain rfl := Option.some.inj ha
      exact ⟨s, _, s', hs, rfl, hanswers⟩
    | second => cases ha
  | @parseTwo q b w hmoves hb =>
    obtain ⟨d, mid, hfirst, hsecond⟩ := answers_of_moves hs hmoves hb
    obtain rfl : b c = a := by
      cases c <;> exact Option.some.inj ha
    rcases d.eq_or_eq_other c with rfl | rfl
    · exact ⟨s, _, mid, hs, rfl, hfirst⟩
    · exact ⟨mid, _, w.state, hfirst.quiet hs, hfirst.client hs, hsecond⟩

/-- The happening is the beginning of a write to the child of the life: its caller and its frame. -/
def Happening.writtenTo (life : Nat) : Happening → Option (Caller × Bytes)
  | .call l c e => if l = life then e.frame?.map (c, ·) else none
  | _ => none

/-- The frames that are written to the child of the life. -/
def framesTo (life : Nat) (t : List Happening) : List Bytes :=
  (t.filterMap (Happening.writtenTo life)).map (·.2)

/-- The answers to the requests that are written to the child of the life, in the order of the
writes, where `answer` gives the answer of each caller. -/
def answersIn (life : Nat) (answer : Caller → Option Answer) (t : List Happening) : List Answer :=
  (t.filterMap (Happening.writtenTo life)).filterMap fun written => answer written.1

/-- The answers to the requests that are written to the child of the life in a session. -/
def answersTo (life : Nat) (episodes : List Episode) : List Answer :=
  episodes.flatMap fun e => answersIn life e.outcome.answer? e.events

theorem framesTo_append (life : Nat) (t u : List Happening) :
    framesTo life (t ++ u) = framesTo life t ++ framesTo life u := by
  simp [framesTo]

theorem length_framesTo_le (life : Nat) {t u : List Happening} (h : t <+: u) :
    (framesTo life t).length ≤ (framesTo life u).length := by
  obtain ⟨later, rfl⟩ := h
  rw [framesTo_append, List.length_append]
  exact Nat.le_add_right ..

theorem answersIn_append (life : Nat) (answer : Caller → Option Answer) (t u : List Happening) :
    answersIn life answer (t ++ u) = answersIn life answer t ++ answersIn life answer u := by
  simp [answersIn]

theorem writtenTo_of_upkeep {u : List Happening} (hu : ∀ h ∈ u, h.isUpkeep = true) (life : Nat) :
    u.filterMap (Happening.writtenTo life) = [] := by
  rw [List.filterMap_eq_nil_iff]
  intro h hh
  have hupkeep := hu h hh
  cases h with
  | call => cases hupkeep
  | _ => rfl

/-- A call writes its own frames only, and to its own child only. -/
theorem writtenTo_of_within {l : Nat} {c : Caller} {u : List Happening}
    (hu : ∀ h ∈ u, h.Within l c) (life : Nat) :
    u.filterMap (Happening.writtenTo life) =
      if l = life then
        ((u.filterMap Happening.pipe?).filterMap PipeEvent.frame?).map (c, ·)
      else [] := by
  induction u with
  | nil => simp
  | cons h u ih =>
    have ih := ih fun x hx => hu x (List.mem_cons_of_mem _ hx)
    have hh := hu h (List.mem_cons_self ..)
    rw [List.filterMap_cons, ih]
    cases h with
    | call l' c' e =>
      obtain ⟨rfl, rfl⟩ := hh
      by_cases hlife : l' = life
      · cases he : e.frame? <;> simp [Happening.writtenTo, Happening.pipe?, hlife, he]
      · simp [Happening.writtenTo, hlife]
    | poll | kill | warn => rfl
    | _ => exact absurd hh id

namespace Served

variable {s s' : State} {c : Caller} {deadline : Option Seconds} {d : Dialogue} {t : Timer}
  {u : List Happening} {answer : Answer}

theorem writtenTo (h : Served s c deadline d t u answer s') (life : Nat) :
    (.acquire c :: (u ++ [.release c])).filterMap (Happening.writtenTo life) =
      if s.lives = life then (d.events.filterMap PipeEvent.frame?).map (c, ·) else [] := by
  rw [List.filterMap_cons, List.filterMap_append, writtenTo_of_within h.within, h.events]
  simp [Happening.writtenTo]

theorem framesTo (h : Served s c deadline d t u answer s') (life : Nat) :
    framesTo life s'.trace = framesTo life s.trace ++
      if s.lives = life then d.events.filterMap PipeEvent.frame? else [] := by
  rw [h.trace, framesTo_append]
  congr 1
  unfold ParserClient.framesTo
  rw [h.writtenTo]
  by_cases hlife : s.lives = life
  · rw [if_pos hlife, if_pos hlife, List.map_map]
    exact List.map_id _
  · rw [if_neg hlife, if_neg hlife, List.map_nil]

theorem answersIn (h : Served s c deadline d t u answer s') {f : Caller → Option Answer}
    (hf : f c = some answer) (life : Nat) :
    answersIn life f (.acquire c :: (u ++ [.release c])) =
      if s.lives = life then (d.events.filterMap PipeEvent.frame?).map fun _ => answer else [] := by
  unfold ParserClient.answersIn
  rw [h.writtenTo]
  by_cases hlife : s.lives = life
  · rw [if_pos hlife, if_pos hlife, List.filterMap_map]
    simp only [Function.comp_def, hf, List.filterMap_eq_map']
  · rw [if_neg hlife, if_neg hlife, List.filterMap_nil]

/-- Without a kill the exchange is the answer as it stands. -/
theorem answer_of_alive (h : Served s c deadline d t u answer s') (halive : s'.killed = false) :
    answer = d.exchange.answer := by
  obtain ⟨early, hearly, rfl⟩ := h.answer
  have hfalse : early = false := by
    rw [← Bool.not_eq_true]
    intro he
    rw [hearly he] at halive
    cases halive
  rw [hfalse]
  unfold World.judged
  split
  · next hd => rw [hd]; rfl
  · rfl

end Served

/-! ### Pairing -/

/-- The requests written to the child of a life, which was given with its scripts, against the
messages of the child: what the child has delivered is `passed`, and the answers that were read are
what the messages of it make, in order. -/
structure Paired (life : Nat) (given : Child) (answers : List Answer) (s : State) : Prop where
  early : s.lives < life → answers = [] ∧ framesTo life s.trace = []
  counted : answers.length = (framesTo life s.trace).length
  passed : ∃ passed left, given.outputAfter (framesTo life s.trace) = passed ++ left ∧
    answers.filter Answer.isRead = (Inlet.messages passed).map
      (fun line => Exchange.answer (Frame.readReply given.inlet.room line)) ∧
    (s.lives = life → ∀ child, s.child = some child →
      child.Continues given (framesTo life s.trace).length left)

theorem Child.Continues.marked {ch given : Child} {written : Nat} {left : List Delivery}
    (h : ch.Continues given written left) (t : Timer) :
    (ch.marked t).Continues given written left :=
  ⟨h.items, h.echoes, h.room, h.smooth⟩

/-- A request that is written passes the message that it is answered from, or none. -/
theorem Child.Continues.dialogue {ch given : Child} {written : Nat} {left : List Delivery}
    {request : Request} {frame : Bytes} (h : ch.Continues given written left)
    (hsmooth : given.outlet.Smooth (written + 1)) (hframe : Frame.ofRequest request = .ok frame) :
    ∃ passed later,
      left ++ (if given.echoes then [.bytes frame] else []) = passed ++ later ∧
      [(ch.dialogue request).exchange.answer].filter Answer.isRead =
        (Inlet.messages passed).map
          (fun line => Exchange.answer (Frame.readReply given.inlet.room line)) ∧
      (ch.dialogue request).child.Continues given (written + 1) later := by
  rw [dialogue_of_smooth (h.smooth 1 hsmooth) hframe]
  obtain ⟨passed, hitems, hresult⟩ :=
    Inlet.seek_passes (ch.afterWrite.afterFlush frame true).inlet.items
  have hroom : (ch.afterWrite.afterFlush frame true).inlet.room = given.inlet.room :=
    (room_afterFlush ch.afterWrite frame true).trans h.room
  refine ⟨passed, _, ?_, ?_, rfl, ?_, hroom, ?_⟩
  · have hall : (ch.afterWrite.afterFlush frame true).inlet.items =
        left ++ if given.echoes then [.bytes frame] else [] := by
      rw [items_afterFlush, h.items, h.echoes]
    exact hall.symm.trans hitems
  · rcases hresult with ⟨line, hline, hpassed⟩ | ⟨f, hf, hreading, hpassed⟩
    · simp [whenReading, Dialogue.behind, hline, hpassed, replyOf, hroom, Frame.isRead_readReply]
    · simp [whenReading, Dialogue.behind, hf, hpassed, replyOf, Exchange.answer, Answer.isRead,
        hreading]
  · exact h.echoes
  · intro m hm
    rw [Nat.add_right_comm] at hm
    exact (h.smooth (m + 1) hm).dropBoth

namespace Paired

variable {n life : Nat} {given : Child} {launches : List Launch} {answers : List Answer}
  {s s' : State}

/-- Pairing hangs on the life, the frames written and the child. -/
theorem congr (hp : Paired life given answers s)
    (hframes : framesTo life s'.trace = framesTo life s.trace) (hlives : s'.lives = s.lives)
    (hchild : ∀ child, s'.child = some child → s.child = some child) :
    Paired life given answers s' where
  early h := by
    rw [hframes]
    exact hp.early (hlives ▸ h)
  counted := by rw [hframes, hp.counted]
  passed := by
    obtain ⟨passed, left, houtput, hread, hcontinues⟩ := hp.passed
    rw [hframes]
    refine ⟨passed, left, houtput, hread, fun h child hc => ?_⟩
    exact hcontinues (hlives ▸ h) child (hchild child hc)

theorem framesTo_append_upkeep (life : Nat) {t u : List Happening}
    (hu : ∀ h ∈ u, h.isUpkeep = true) :
    framesTo life (t ++ u) = framesTo life t := by
  rw [framesTo_append, framesTo, framesTo, writtenTo_of_upkeep hu, List.map_nil, List.append_nil]

theorem letsGo (hp : Paired life given answers s) (h : s.LetsGo s') :
    Paired life given answers s' := by
  cases h with
  | unattached => exact hp
  | detached hu => exact hp.congr (framesTo_append_upkeep life hu) rfl (by simp)

/-- A launch begins a life. If it is the one looked at, nothing has been written to its child. -/
theorem uses (hp : Paired (n + 1) given answers s) (hleft : s.launches = launches.drop s.lives)
    (hgiven : launches[n]? = some (.ok given)) (hchild : s.child = none) (h : s.Uses s') :
    Paired (n + 1) given answers s' := by
  obtain ⟨passed, left, houtput, hread, -⟩ := hp.passed
  cases h with
  | failed hu =>
    have hframes := framesTo_append_upkeep (n + 1) (t := s.trace) hu
    exact
      { early := fun h => by
          rw [hframes]
          exact hp.early (Nat.lt_of_succ_lt h)
        counted := by rw [hframes, hp.counted]
        passed := ⟨passed, left, by rw [hframes, houtput], hread, by simp [hchild]⟩ }
  | @attached u child hu hnext =>
    have hframes := framesTo_append_upkeep (n + 1) (t := s.trace) hu
    refine
      { early := fun h => by
          rw [hframes]
          exact hp.early (Nat.lt_of_succ_lt h)
        counted := by rw [hframes, hp.counted]
        passed := ?_ }
    rw [hframes]
    by_cases hlives : s.lives = n
    · obtain ⟨hanswers, hnone⟩ := hp.early (hlives ▸ Nat.lt_succ_self _)
      rw [hleft, List.head?_drop, hlives, hgiven] at hnext
      cases hnext
      refine ⟨[], given.outputAfter [], by rw [hnone, List.nil_append], by rw [hanswers]; rfl, ?_⟩
      rintro - _ ⟨⟩
      refine ⟨?_, rfl, rfl, fun m hm => ?_⟩
      · rw [Child.outputAfter, List.map_nil, ite_self, List.append_nil]
      · rwa [hnone, List.length_nil, Nat.zero_add] at hm
    · exact ⟨passed, left, houtput, hread, fun h => absurd (Nat.succ.inj h) hlives⟩

theorem begins (hp : Paired (n + 1) given answers s) (ho : s.Orderly launches)
    (hgiven : launches[n]? = some (.ok given)) (h : s.Begins s') :
    Paired (n + 1) given answers s' := by
  cases h with
  | running => exact hp
  | kept hgo => exact hp.letsGo hgo
  | used hrun hgo hu =>
    refine (hp.letsGo hgo).uses (ho.letsGo hgo).left hgiven ?_ hu
    cases hgo with
    | unattached hnone => exact hnone
    | detached => rfl

section Served

variable {c : Caller} {deadline : Option Seconds} {child : Child} {r : Request} {t : Timer}
  {u : List Happening} {a : Answer}

/-- A request that is served in another life. -/
theorem elsewhere {d : Dialogue} (hp : Paired life given answers s)
    (hs : Served s c deadline d t u a s') (hlife : s.lives ≠ life) :
    Paired life given answers s' := by
  have hframes : framesTo life s'.trace = framesTo life s.trace := by
    rw [hs.framesTo, if_neg hlife, List.append_nil]
  obtain ⟨passed, left, houtput, hread, -⟩ := hp.passed
  refine ⟨fun h => ?_, by rw [hframes, hp.counted], passed, left, ?_, hread, fun h => ?_⟩
  · rw [hframes]
    exact hp.early (hs.lives ▸ h)
  · rw [hframes, houtput]
  · exact absurd (hs.lives.symm.trans h) hlife

/-- A request without a frame leaves the child as it is. -/
theorem unframed {cause : FrameFault} (hp : Paired life given answers s)
    (hs : Served s c deadline (child.dialogue r) t u a s') (hlife : s.lives = life)
    (hchild : s.child = some child) (hframe : Frame.ofRequest r = .error cause) :
    Paired life given answers s' := by
  rw [Child.dialogue_of_unframed hframe] at hs
  have hframes : framesTo life s'.trace = framesTo life s.trace := by
    rw [hs.framesTo, List.filterMap_nil, ite_self, List.append_nil]
  obtain ⟨passed, left, houtput, hread, hcontinues⟩ := hp.passed
  refine ⟨fun h => absurd (hs.lives.trans hlife) (Nat.ne_of_lt h), by rw [hframes, hp.counted],
    passed, left, by rw [hframes, houtput], hread, fun _ child' hchild' => ?_⟩
  rw [hs.child] at hchild'
  rw [← Option.some.inj hchild', hframes]
  exact (hcontinues hlife child hchild).marked t

/-- A request that is written is answered from the next message, or its reading fails. -/
theorem framed {frame : Bytes} (hp : Paired life given answers s)
    (hs : Served s c deadline (child.dialogue r) t u a s') (hlife : s.lives = life)
    (hchild : s.child = some child) (hframe : Frame.ofRequest r = .ok frame)
    (hsmooth : given.outlet.Smooth (framesTo life s'.trace).length) (halive : s'.killed = false) :
    Paired life given (answers ++ [a]) s' := by
  have hframes : framesTo life s'.trace = framesTo life s.trace ++ [frame] := by
    rw [hs.framesTo, if_pos hlife, child.frames_dialogue hframe]
  have hlength : (framesTo life s'.trace).length = (framesTo life s.trace).length + 1 := by
    rw [hframes, List.length_append, List.length_singleton]
  rw [hlength] at hsmooth
  obtain ⟨passed, left, houtput, hread, hcontinues⟩ := hp.passed
  obtain ⟨next, later, hleft, hanswer, hcontinues'⟩ :=
    (hcontinues hlife child hchild).dialogue hsmooth hframe
  refine ⟨fun h => absurd (hs.lives.trans hlife) (Nat.ne_of_lt h), ?_, passed ++ next, later,
    ?_, ?_, fun _ child' hchild' => ?_⟩
  · rw [hlength, List.length_append, List.length_singleton, hp.counted]
  · rw [hframes, Child.outputAfter_append, houtput, List.map_singleton, List.append_assoc, hleft,
      List.append_assoc]
  · rw [hs.answer_of_alive halive, List.filter_append, hread, hanswer, Inlet.messages_append,
      List.map_append]
  · rw [hs.child] at hchild'
    rw [← Option.some.inj hchild', hlength]
    exact hcontinues'.marked t

end Served

/-- A request goes to the child or to another one, is written or not. -/
theorem asked {c : Caller} {q : Ask} {a : Answer} {t : List Happening}
    {f : Caller → Option Answer} (hp : Paired life given answers s) (ho : s.Orderly launches)
    (h : s.Answers c q a s') (ht : s'.trace = s.trace ++ t)
    (hsmooth : given.outlet.Smooth (framesTo life s'.trace).length)
    (halive : ∀ e, .kill life e ∉ s'.trace) (hf : f c = some a) :
    Paired life given (answers ++ answersIn life f t) s' := by
  rcases h.cases ho.quiet with ⟨-, -, -, rfl⟩ | ⟨child, r, timer, u, hadmits, hserved⟩
  · have hnil : t = [] := by rwa [List.self_eq_append_right] at ht
    rwa [hnil, answersIn, List.filterMap_nil, List.filterMap_nil, List.append_nil]
  · have htrace := hserved.trace
    rw [ht, List.append_cancel_left_eq] at htrace
    rw [htrace, hserved.answersIn hf]
    by_cases hlife : s.lives = life
    · rw [if_pos hlife]
      cases hframe : Frame.ofRequest r with
      | error cause =>
        rw [Child.dialogue_of_unframed hframe, List.filterMap_nil, List.map_nil, List.append_nil]
        exact hp.unframed hserved hlife hadmits.child hframe
      | ok frame =>
        have hkilled : s'.killed = false := by
          rw [← Bool.not_eq_true, (ho.served hadmits hserved).noted (by rw [hserved.child]; rfl)]
          rintro ⟨e, he⟩
          rw [hserved.lives, hlife] at he
          exact halive e he
        rw [child.frames_dialogue hframe, List.map_singleton]
        exact hp.framed hserved hlife hadmits.child hframe hsmooth hkilled
    · rw [if_neg hlife, List.append_nil]
      exact hp.elsewhere hserved hlife

theorem tended (hp : Paired life given answers s') (h : s.Tended s') (command : Command)
    (outcome : Outcome) :
    Paired life given
      (answers ++ answersIn life outcome.answer? (Episode.between s command outcome s').events)
      s' := by
  obtain ⟨u, hu, ht⟩ := h
  rw [Episode.between, ht, List.drop_left, answersIn, writtenTo_of_upkeep hu, List.filterMap_nil,
    List.append_nil]
  exact hp

theorem performs {command : Command} {outcome : Outcome} (hp : Paired (n + 1) given answers s)
    (ho : s.Orderly launches) (hgiven : launches[n]? = some (.ok given))
    (h : s.Performs command outcome s')
    (hsmooth : given.outlet.Smooth (framesTo (n + 1) s'.trace).length)
    (halive : ∀ e, .kill (n + 1) e ∉ s'.trace) :
    Paired (n + 1) given
      (answers ++ answersIn (n + 1) outcome.answer? (Episode.between s command outcome s').events)
      s' := by
  cases h with
  | start | enter =>
    exact (hp.begins ho hgiven s.begins_start).tended s.begins_start.tended _ _
  | close | exit => exact (hp.letsGo s.letsGo_close).tended s.letsGo_close.tended _ _
  | setEncoding tag =>
    have hsame : s.Tended { s with client := { s.client with encoding := tag } } :=
      ⟨[], by simp, (List.append_nil _).symm⟩
    have hp' : Paired (n + 1) given answers
        { s with client := { s.client with encoding := tag } } := hp.congr rfl rfl fun _ h => h
    exact hp'.tended hsame _ _
  | parse ha =>
    obtain ⟨t, ht, -⟩ := ha.extended ho.quiet
    have hdrop : s'.trace.drop s.trace.length = t := by rw [ht, List.drop_left]
    rw [Episode.between, hdrop]
    exact hp.asked ho ha ht hsmooth halive rfl
  | @parseTwo q a w hmoves ha =>
    obtain ⟨c, mid, hordered⟩ := (serial_of_moves ho.quiet hmoves).ordered ho.quiet
    obtain ⟨hfirst, hsecond⟩ := hordered.answers _ ha
    obtain ⟨t₁, ht₁, -⟩ := hordered.first
    obtain ⟨t₂, ht₂, -⟩ := hordered.second
    have hmid : ∀ e, .kill (n + 1) e ∉ mid.trace := fun e he =>
      halive e (by rw [ht₂]; exact List.mem_append_left _ he)
    have hsmooth' : given.outlet.Smooth (framesTo (n + 1) mid.trace).length :=
      hsmooth.mono (length_framesTo_le (n + 1) ⟨t₂, ht₂.symm⟩)
    have hanswer : ∀ d, (Outcome.both (a .first) (a .second)).answer? d = some (a d) := by
      rintro (_ | _) <;> rfl
    have hdrop : w.state.trace.drop s.trace.length = t₁ ++ t₂ := by
      rw [ht₂, ht₁, List.append_assoc, List.drop_left]
    rw [Episode.between, hdrop, answersIn_append, ← List.append_assoc]
    exact (hp.asked ho hfirst ht₁ hsmooth' hmid (hanswer c)).asked (ho.answers hfirst) hsecond ht₂
      hsmooth halive (hanswer c.other)

end Paired

/-- A session writes on where it has stopped writing. -/
theorem State.Performs.trace_prefix {s s' : State} {command : Command} {outcome : Outcome}
    (hs : s.Quiet) (h : s.Performs command outcome s') : s.trace <+: s'.trace := by
  have htended {s s' : State} (h : s.Tended s') : s.trace <+: s'.trace := by
    obtain ⟨u, -, ht⟩ := h
    exact ⟨u, ht.symm⟩
  have hextended {s s' : State} {c : Caller} (h : s.Extended c s') : s.trace <+: s'.trace := by
    obtain ⟨t, ht, -⟩ := h
    exact ⟨t, ht.symm⟩
  cases h with
  | start | enter => exact htended s.begins_start.tended
  | close | exit => exact htended s.letsGo_close.tended
  | setEncoding => exact List.prefix_rfl
  | parse ha => exact hextended (ha.extended hs)
  | parseTwo hmoves =>
    obtain ⟨c, mid, hordered⟩ := (serial_of_moves hs hmoves).ordered hs
    exact (hextended hordered.first).trans (hextended hordered.second)

/-- Every session is paired for a child that is not killed, as long as no write to it and no flush
has a mishap. -/
theorem Session.paired {client : Client} {launches : List Launch} {episodes : List Episode}
    {s : State} (h : Session client launches episodes s) {n : Nat} {given : Child}
    (hgiven : launches[n]? = some (.ok given))
    (hsmooth : given.outlet.Smooth (framesTo (n + 1) s.trace).length)
    (halive : ∀ e, .kill (n + 1) e ∉ s.trace) :
    Paired (n + 1) given (answersTo (n + 1) episodes) s := by
  induction h with
  | nil =>
    exact
      { early := fun _ => ⟨rfl, rfl⟩
        counted := rfl
        passed := ⟨[], _, rfl, rfl, fun h => absurd h (Nat.succ_ne_zero n).symm⟩ }
  | snoc h hp ih =>
    have ho := h.orderly
    have htrace := hp.trace_prefix ho.quiet
    have hbefore := ih (hsmooth.mono (length_framesTo_le (n + 1) htrace)) fun e he =>
      halive e (htrace.subset he)
    rw [answersTo, List.flatMap_append, List.flatMap_singleton]
    exact hbefore.performs ho hgiven hp hsmooth halive

/-- In a filtered list an element stands behind those before it that are kept. -/
theorem getElem?_filter_of_take {α : Type} {p : α → Bool} {l : List α} {k : Nat} {a : α}
    (h : l[k]? = some a) (hp : p a = true) :
    (l.filter p)[((l.take k).filter p).length]? = some a := by
  obtain ⟨hk, rfl⟩ := List.getElem?_eq_some_iff.mp h
  have hsplit : l = l.take k ++ l[k] :: l.drop (k + 1) := by
    rw [List.getElem_cons_drop, List.take_append_drop]
  have hfilter : l.filter p =
      (l.take k).filter p ++ l[k] :: (l.drop (k + 1)).filter p := by
    rw [← List.filter_cons_of_pos hp, ← List.filter_append, ← hsplit]
  rw [hfilter, List.getElem?_append_right (Nat.le_refl _), Nat.sub_self, List.getElem?_cons_zero]

/-- In a session in which the child given by a launch is not killed and no write to it and no flush
has a mishap, every request that is written to it has an answer; and if the answer to the request of
number `k` was read from a line at all, then it is what the message of number `j` makes, where `j`
counts the requests before it whose answers were read. So the numbers agree exactly if no reading
has failed before. -/
theorem replies_paired {client : Client} {launches : List Launch} {episodes : List Episode}
    {s : State} (h : Session client launches episodes s) {n : Nat} {given : Child}
    (hgiven : launches[n]? = some (.ok given))
    (hsmooth : given.outlet.Smooth (framesTo (n + 1) s.trace).length)
    (halive : ∀ e, .kill (n + 1) e ∉ s.trace) :
    (answersTo (n + 1) episodes).length = (framesTo (n + 1) s.trace).length ∧
      ∀ k a, (answersTo (n + 1) episodes)[k]? = some a → Answer.isRead a = true →
        ∃ j line, (Inlet.messages (given.outputAfter (framesTo (n + 1) s.trace)))[j]? = some line ∧
          a = Exchange.answer (Frame.readReply given.inlet.room line) ∧
          j = (((answersTo (n + 1) episodes).take k).filter Answer.isRead).length ∧
          (j = k ↔ ∀ b ∈ (answersTo (n + 1) episodes).take k, Answer.isRead b = true) := by
  have hpaired := h.paired hgiven hsmooth halive
  refine ⟨hpaired.counted, fun k a hk hread => ?_⟩
  obtain ⟨passed, left, houtput, hanswers, -⟩ := hpaired.passed
  generalize answersTo (n + 1) episodes = answers at hk hanswers
  have hat := getElem?_filter_of_take hk hread
  rw [hanswers, List.getElem?_map, Option.map_eq_some_iff] at hat
  obtain ⟨line, hline, rfl⟩ := hat
  refine ⟨_, line, ?_, rfl, rfl, ?_⟩
  · rw [houtput, Inlet.messages_append]
    rw [List.getElem?_append_left (List.getElem?_eq_some_iff.mp hline).1, hline]
  · have hlength : (answers.take k).length = k := by
      rw [List.length_take, Nat.min_eq_left]
      exact Nat.le_of_lt (List.getElem?_eq_some_iff.mp hk).1
    have hall := List.length_filter_eq_length_iff (p := Answer.isRead) (l := answers.take k)
    rwa [hlength] at hall

/-! ### A reading that fails -/

/-- A child whose first reading call is refused, and which delivers two messages after that. -/
def Child.stumbling : Child :=
  .following [] [.mishap (.refused ⟨5, "I/O error", none⟩), .bytes [123, 125, 10], .bytes [49, 10]]

theorem smooth_stumbling (n : Nat) : Child.stumbling.outlet.Smooth n where
  writes := by simp [Child.stumbling, Child.following]
  flushes := by simp [Child.stumbling, Child.following]

/-- Two requests of a session with this child: the reading of the first fails, and the second is
answered from the message that comes first. -/
theorem session_stumbling :
    ∃ episodes s, Session .standard [.ok .stumbling] episodes s ∧ (∀ e, .kill 1 e ∉ s.trace) ∧
      (answersTo 1 episodes)[1]? = some (.error (.unsupported [])) ∧
      Inlet.messages (Child.stumbling.outputAfter (framesTo 1 s.trace)) =
        [[123, 125, 10], [49, 10]] := by
  have hfirst : ((State.started .stumbling).perform (.parse [] none)).1 =
      .answered (.error (.frame (.unreadable ⟨5, "I/O error", none⟩))) := by rfl
  have hsecond : (((State.started .stumbling).perform (.parse [] none)).2.perform
      (.parse [] none)).1 = .answered (.error (.unsupported [])) := by rfl
  have h := ((session_started .stumbling).perform (.parse [] none)
    (by rw [hfirst]; exact nofun)).perform (.parse [] none) (by rw [hsecond]; exact nofun)
  have hmarks : ∀ x ∈ (((State.started .stumbling).perform (.parse [] none)).2.perform
      (.parse [] none)).2.trace, x.isMark = false := by decide +kernel
  exact ⟨_, _, h, fun e he => Bool.noConfusion (hmarks _ he), by rfl, by decide +kernel⟩

/-- A reading that has failed takes the numbers apart: the second request is answered from the first
message. -/
theorem paired_after_failed_reading :
    ∃ episodes s, Session .standard [.ok .stumbling] episodes s ∧
      ∃ j line,
        (Inlet.messages (Child.stumbling.outputAfter (framesTo 1 s.trace)))[j]? = some line ∧
        .error (.unsupported []) =
          Exchange.answer (Frame.readReply Child.stumbling.inlet.room line) ∧
        j = (((answersTo 1 episodes).take 1).filter Answer.isRead).length := by
  obtain ⟨episodes, s, h, halive, hanswer, -⟩ := session_stumbling
  obtain ⟨-, hall⟩ := replies_paired h (n := 0) rfl (smooth_stumbling _) halive
  obtain ⟨j, line, hline, hread, hj, -⟩ := hall 1 _ hanswer rfl
  exact ⟨episodes, s, h, j, line, hline, hread, hj⟩

/-- It is not so that every request that is answered from a line is answered from the message of its
own number. -/
theorem not_paired_by_number :
    ¬ ∀ (client : Client) (launches : List Launch) (episodes : List Episode) (s : State) (n : Nat)
      (given : Child), Session client launches episodes s → launches[n]? = some (.ok given) →
      given.outlet.Smooth (framesTo (n + 1) s.trace).length →
      (∀ e, .kill (n + 1) e ∉ s.trace) →
      ∀ (k : Nat) (a : Answer), (answersTo (n + 1) episodes)[k]? = some a →
        Answer.isRead a = true →
        ∃ line, (Inlet.messages (given.outputAfter (framesTo (n + 1) s.trace)))[k]? = some line ∧
          a = Exchange.answer (Frame.readReply given.inlet.room line) := by
  intro hall
  obtain ⟨episodes, s, h, halive, hanswer, hmessages⟩ := session_stumbling
  obtain ⟨line, hline, hread⟩ :=
    hall _ _ episodes s 0 _ h rfl (smooth_stumbling _) halive 1 _ hanswer rfl
  rw [hmessages] at hline
  obtain rfl := Option.some.inj hline
  have hrejected : Exchange.answer (Frame.readReply Child.stumbling.inlet.room [49, 10]) =
      .error (.frame (.rejected .reply [⟨[], .shape .reply⟩])) := by rfl
  rw [hrejected] at hread
  cases hread

end ParserClient
