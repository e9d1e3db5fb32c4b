import ParserClient.Session.World

/-!
# Dialogues

What the pipes of a child do to a request does not hang on when the calls are let through: a gate
delays a call and changes nothing else. The *dialogue* of a request is the list of calls that serve
it, what its exchange comes to and the child afterwards, read off the scripts of the two pipe ends
with every gate open. A call that is on its way has a *remainder*, the part of its dialogue that
is still ahead.

## Main definitions

* `Inlet.next`, `Inlet.seek` — one reading call, and reading calls past blank lines, with every
  gate open.
* `Dialogue`, `Child.dialogue`.
* `Phase.remainder` — the part of the dialogue that is ahead of a phase.

## Main results

* `Inlet.next_of_pull` — a call that is let through does what it does with every gate open.
* `Inlet.seek_of_next_blank`, `Inlet.seek_of_next_line`, `Inlet.seek_of_next_error` — seeking a
  message goes on after a blank line only.
* `Frame.readReply_eq_error` — the faults that a line brings about.
* `Child.dialogue_eq_error` — why an exchange fails.
* `Child.child_dialogue` — what a dialogue changes of the child.
-/

namespace ParserClient

namespace Inlet

/-- One reading call with every gate open: what it comes to and the items left. -/
def next : List Delivery → Except FrameFault Bytes × List Delivery
  | [] => (.error .ended, [])
  | .bytes b :: rest => (lineOf b, rest)
  | .mishap m :: rest => (.error (faultOf m), rest)
  | .gate _ :: rest => next rest

/-- Reading calls up to a line that is not blank, with every gate open: the number of blank lines
passed, what the last call comes to and the items left. -/
def seek : List Delivery → Nat × Except FrameFault Bytes × List Delivery
  | [] => (0, .error .ended, [])
  | .bytes b :: rest =>
    if b.isEmpty then (0, .error .ended, rest)
    else if Frame.isBlank b then ((seek rest).1 + 1, (seek rest).2)
    else (0, .ok b, rest)
  | .mishap m :: rest => (0, .error (faultOf m), rest)
  | .gate _ :: rest => seek rest

/-- A reading call that does not wait for ever does what it does with every gate open. -/
theorem next_of_pull {isOpen : Gate → Bool} {items : List Delivery}
    {result : Except FrameFault Bytes × List Delivery} (h : pull isOpen items = some result) :
    next items = result := by
  induction items with
  | nil => exact Option.some.inj h
  | cons item rest ih =>
    cases item with
    | bytes b => exact Option.some.inj h
    | mishap m => exact Option.some.inj h
    | gate g =>
      simp only [pull] at h
      split at h
      · exact ih h
      · cases h

theorem lineOf_eq_ok {b line : Bytes} (h : lineOf b = .ok line) : b = line ∧ b.isEmpty = false := by
  unfold lineOf at h
  split at h
  · cases h
  · next hb => exact ⟨Except.ok.inj h, by simpa using hb⟩

theorem lineOf_eq_error {b : Bytes} {f : FrameFault} (h : lineOf b = .error f) :
    f = .ended ∧ b.isEmpty = true := by
  unfold lineOf at h
  split at h
  · next hb => exact ⟨(Except.error.inj h).symm, hb⟩
  · cases h

/-- Seeking goes on behind a blank line. -/
theorem seek_of_next_blank {items rest : List Delivery} {line : Bytes}
    (h : next items = (.ok line, rest)) (hblank : Frame.isBlank line = true) :
    seek items = ((seek rest).1 + 1, (seek rest).2) := by
  induction items with
  | nil => cases h
  | cons item items ih =>
    cases item with
    | bytes b =>
      obtain ⟨hline, hrest⟩ := Prod.mk.inj h
      obtain ⟨rfl, hb⟩ := lineOf_eq_ok hline
      simp [seek, hb, hblank, hrest]
    | mishap m => cases h
    | gate g => exact ih h

/-- Seeking ends at a line that is not blank. -/
theorem seek_of_next_line {items rest : List Delivery} {line : Bytes}
    (h : next items = (.ok line, rest)) (hblank : Frame.isBlank line = false) :
    seek items = (0, .ok line, rest) := by
  induction items with
  | nil => cases h
  | cons item items ih =>
    cases item with
    | bytes b =>
      obtain ⟨hline, hrest⟩ := Prod.mk.inj h
      obtain ⟨rfl, hb⟩ := lineOf_eq_ok hline
      simp [seek, hb, hblank, hrest]
    | mishap m => cases h
    | gate g => exact ih h

/-- Seeking ends at a reading call that fails. -/
theorem seek_of_next_error {items rest : List Delivery} {f : FrameFault}
    (h : next items = (.error f, rest)) : seek items = (0, .error f, rest) := by
  induction items with
  | nil =>
    obtain ⟨hf, hrest⟩ := Prod.mk.inj h
    simp only [seek, hf, hrest]
  | cons item items ih =>
    cases item with
    | bytes b =>
      obtain ⟨hline, hrest⟩ := Prod.mk.inj h
      obtain ⟨rfl, hb⟩ := lineOf_eq_error hline
      simp [seek, hb, hrest]
    | mishap m =>
      obtain ⟨hf, hrest⟩ := Prod.mk.inj h
      simp only [seek, hf, hrest]
    | gate g => exact ih h

end Inlet

/-- The faults that a line brings about: it is no JSON text or no reply, or it is one that cannot be
read or reported. -/
theorem Frame.readReply_eq_error {room : Room} {line : Bytes} {f : Fault}
    (h : readReply room line = .error f) :
    (∃ cause, f = .frame (.malformed cause)) ∨ (∃ issues, f = .frame (.rejected .reply issues)) ∨
      f = .tooDeep ∨ (∃ o, f = .oversized o) ∨ ∃ cause, f = .noBytes cause := by
  unfold readReply readAs at h
  cases htree : readTree room line with
  | error g =>
    rw [htree] at h
    obtain rfl := Except.error.inj h
    unfold readTree at htree
    split at htree
    · exact .inl ⟨_, (Except.error.inj htree).symm⟩
    · split at htree
      · cases htree
      · exact .inl ⟨_, (Except.error.inj htree).symm⟩
      · exact .inr (.inr (.inl (Except.error.inj htree).symm))
      · exact .inr (.inr (.inr (.inl ⟨_, (Except.error.inj htree).symm⟩)))
  | ok tree =>
    simp only [htree] at h
    split at h
    · unfold ofTree at h
      cases hvalue : Reply.ofValue tree.toValue with
      | ok r =>
        rw [hvalue] at h
        cases h
      | error issues =>
        rw [hvalue] at h
        have herror := Except.error.inj h
        unfold Fault.ofIssuesAs at herror
        split at herror
        · exact .inr (.inr (.inr (.inr ⟨_, herror.symm⟩)))
        · exact .inr (.inl ⟨_, herror.symm⟩)
    · exact .inr (.inr (.inl (Except.error.inj h).symm))

/-! ### The dialogue of a request -/

/-- The calls that serve a request, what its exchange comes to and the child afterwards. -/
structure Dialogue where
  events : List PipeEvent
  exchange : Exchange
  child : Child

/-- A dialogue with calls in front of it. -/
def Dialogue.behind (d : Dialogue) (events : List PipeEvent) : Dialogue :=
  { d with events := events ++ d.events }

namespace Dialogue

@[simp] theorem behind_behind (d : Dialogue) (earlier later : List PipeEvent) :
    (d.behind later).behind earlier = d.behind (earlier ++ later) := by
  simp [behind]

end Dialogue

namespace Child

/-- What a reading call for the reply comes to. -/
def replyOf (room : Room) : Except FrameFault Bytes → Exchange
  | .error f => .error (.frame f)
  | .ok line => Frame.readReply room line

/-- What the reading call that follows a mishap comes to. -/
def crashOf (write : Mishap) : Except FrameFault Bytes → Exchange
  | .error f => .error (.frame f)
  | .ok line => .error (.crashed write (Frame.rawText line))

/-- The dialogue from inside the first reading call for the reply. -/
def whenReading (ch : Child) : Dialogue where
  events := List.replicate (Inlet.seek ch.inlet.items).1 .readline
  exchange := replyOf ch.inlet.room (Inlet.seek ch.inlet.items).2.1
  child := ch.withItems (Inlet.seek ch.inlet.items).2.2

/-- The dialogue from inside the reading call that follows a mishap. -/
def whenSalvaging (ch : Child) (write : Mishap) : Dialogue where
  events := []
  exchange := crashOf write (Inlet.next ch.inlet.items).1
  child := ch.withItems (Inlet.next ch.inlet.items).2

/-- The dialogue from inside the flush of a frame. -/
def whenFlushing (ch : Child) (frame : Bytes) : Dialogue :=
  match ch.outlet.nextFlush.mishap with
  | some m => ((ch.afterFlush frame false).whenSalvaging m).behind [.readline]
  | none => (ch.afterFlush frame true).whenReading.behind [.readline]

/-- The dialogue from inside the write of a frame. -/
def whenWriting (ch : Child) (frame : Bytes) : Dialogue :=
  match ch.outlet.nextWrite.mishap with
  | some m => (ch.afterWrite.whenSalvaging m).behind [.readline]
  | none => (ch.afterWrite.whenFlushing frame).behind [.flush]

/-- The dialogue of a request. A request without a frame makes no call. -/
def dialogue (ch : Child) (request : Request) : Dialogue :=
  match Frame.ofRequest request with
  | .error f => ⟨[], .error (.frame f), ch⟩
  | .ok frame => (ch.whenWriting frame).behind [.write frame]

theorem dialogue_of_unframed {request : Request} {f : FrameFault}
    (h : Frame.ofRequest request = .error f) (ch : Child) :
    ch.dialogue request = ⟨[], .error (.frame f), ch⟩ := by
  unfold dialogue
  rw [h]

theorem dialogue_of_frame {request : Request} {frame : Bytes}
    (h : Frame.ofRequest request = .ok frame) (ch : Child) :
    ch.dialogue request = (ch.whenWriting frame).behind [.write frame] := by
  unfold dialogue
  rw [h]

/-! A dialogue changes the pipe ends of the child and nothing else. -/

theorem child_whenFlushing (ch : Child) (frame : Bytes) :
    ∃ o i, (ch.whenFlushing frame).child = { ch with outlet := o, inlet := i } := by
  unfold whenFlushing
  cases ch.outlet.nextFlush.mishap <;> exact ⟨_, _, rfl⟩

theorem child_whenWriting (ch : Child) (frame : Bytes) :
    ∃ o i, (ch.whenWriting frame).child = { ch with outlet := o, inlet := i } := by
  unfold whenWriting
  cases ch.outlet.nextWrite.mishap with
  | none => exact ch.afterWrite.child_whenFlushing frame
  | some m => exact ⟨_, _, rfl⟩

theorem child_dialogue (ch : Child) (request : Request) :
    ∃ o i, (ch.dialogue request).child = { ch with outlet := o, inlet := i } := by
  cases h : Frame.ofRequest request with
  | error f =>
    rw [dialogue_of_unframed h]
    exact ⟨_, _, rfl⟩
  | ok frame =>
    rw [dialogue_of_frame h]
    exact ch.child_whenWriting frame

/-- What is echoed comes out in the same room. -/
theorem room_afterFlush (ch : Child) (frame : Bytes) (reached : Bool) :
    (ch.afterFlush frame reached).inlet.room = ch.inlet.room := by
  unfold afterFlush
  split <;> rfl

/-- A dialogue is led with one process. -/
theorem process_dialogue (ch : Child) (request : Request) :
    (ch.dialogue request).child.process = ch.process := by
  obtain ⟨o, i, h⟩ := ch.child_dialogue request
  rw [h]

/-! Where the fault of an exchange comes from. -/

theorem replyOf_eq_error {room : Room} {result : Except FrameFault Bytes} {f : Fault}
    (h : replyOf room result = .error f) :
    (∃ g, result = .error g ∧ f = .frame g) ∨ ∃ line, Frame.readReply room line = .error f := by
  cases result with
  | error g => exact .inl ⟨g, rfl, (Except.error.inj h).symm⟩
  | ok line => exact .inr ⟨line, h⟩

theorem crashOf_eq_error {m : Mishap} {result : Except FrameFault Bytes} {f : Fault}
    (h : crashOf m result = .error f) :
    (∃ g, result = .error g ∧ f = .frame g) ∨ ∃ raw, f = .crashed m raw := by
  cases result with
  | error g => exact .inl ⟨g, rfl, (Except.error.inj h).symm⟩
  | ok line => exact .inr ⟨_, (Except.error.inj h).symm⟩

/-- An exchange fails because the request has no frame, because a reading call fails, for the line
that is read, or because of a mishap of the write or the flush. -/
theorem dialogue_eq_error {ch : Child} {request : Request} {f : Fault}
    (h : (ch.dialogue request).exchange = .error f) :
    (∃ g, Frame.ofRequest request = .error g ∧ f = .frame g) ∨
      (∃ items g, ((Inlet.next items).1 = .error g ∨ (Inlet.seek items).2.1 = .error g) ∧
        f = .frame g) ∨
      (∃ line, Frame.readReply ch.inlet.room line = .error f) ∨
        ∃ m raw, f = .crashed m raw := by
  have hcrash {m : Mishap} {items : List Delivery}
      (h : crashOf m (Inlet.next items).1 = .error f) :
      (∃ items g, ((Inlet.next items).1 = .error g ∨ (Inlet.seek items).2.1 = .error g) ∧
        f = .frame g) ∨
      (∃ line, Frame.readReply ch.inlet.room line = .error f) ∨
        ∃ m raw, f = .crashed m raw := by
    rcases crashOf_eq_error h with ⟨g, hg, hf⟩ | ⟨raw, hf⟩
    · exact .inl ⟨items, g, .inl hg, hf⟩
    · exact .inr (.inr ⟨m, raw, hf⟩)
  cases hframe : Frame.ofRequest request with
  | error g =>
    rw [dialogue_of_unframed hframe] at h
    exact .inl ⟨g, rfl, (Except.error.inj h).symm⟩
  | ok frame =>
    right
    rw [dialogue_of_frame hframe, Dialogue.behind, whenWriting] at h
    cases hwrite : ch.outlet.nextWrite.mishap with
    | some m =>
      rw [hwrite] at h
      exact hcrash h
    | none =>
      simp only [hwrite, Dialogue.behind, whenFlushing] at h
      cases hflush : ch.afterWrite.outlet.nextFlush.mishap with
      | some m =>
        rw [hflush] at h
        exact hcrash h
      | none =>
        rw [hflush] at h
        rcases replyOf_eq_error h with ⟨g, hg, hf⟩ | ⟨line, hline⟩
        · exact .inl ⟨_, g, .inr hg, hf⟩
        · exact .inr (.inl ⟨line, (room_afterFlush ch.afterWrite frame true) ▸ hline⟩)

end Child

/-- The part of the dialogue that is ahead of a phase in which a call talks to the child. -/
def Phase.remainder (ch : Child) : Phase → Option Dialogue
  | .sending request => some (ch.dialogue request)
  | .writing frame => some (ch.whenWriting frame)
  | .flushing frame => some (ch.whenFlushing frame)
  | .reading => some ch.whenReading
  | .salvaging m => some (ch.whenSalvaging m)
  | .concluding exchange => some ⟨[], exchange, ch⟩
  | _ => none

theorem Phase.child_remainder {ch : Child} {p : Phase} {rest : Dialogue}
    (h : p.remainder ch = some rest) :
    ∃ o i, rest.child = { ch with outlet := o, inlet := i } := by
  cases p with
  | sending request => exact Option.some.inj h ▸ ch.child_dialogue request
  | writing frame => exact Option.some.inj h ▸ ch.child_whenWriting frame
  | flushing frame => exact Option.some.inj h ▸ ch.child_whenFlushing frame
  | reading | salvaging | concluding => exact Option.some.inj h ▸ ⟨_, _, rfl⟩
  | idle | entering | queued | cancelling | leaving | done => cases h

end ParserClient
