import Mathlib.Data.List.ReduceOption
import ParserClient.Frame.Calls
import ParserClient.Proofs.Frame.Line

/-!
# A stream of messages is read back

Messages are sent one after the other on an outlet that has no mishap. A message without a frame
leaves nothing on the wire, the frame of any other is a line of its own. A reader at the other end
that asks for one tree after the other gets the trees of the sent messages in their order, however
many blank lines have come between the frames, and then the end of the stream as often as it asks.

## Main definitions

* `Outlet.sendAll` — messages sent one after the other.
* `PipeEvent.written` — the bytes that calls leave on the wire.
* `Padded` — a stream of pieces among blank lines.

## Main results

* `linesOf_append_feed` — a byte string is cut into lines behind each line feed.
* `ReadCall.results_of_padded` — what is read from a stream of frames among blank lines.
* `stream_read_back` — what is sent is read.
-/

namespace ParserClient

/-! ### Cutting a byte string into lines -/

theorem linesOf_ne_nil {bytes : Bytes} (h : bytes ≠ []) : linesOf bytes ≠ [] := by
  intro hlines
  have hflat := flatten_linesOf bytes
  rw [hlines] at hflat
  exact h hflat.symm

theorem ne_nil_of_mem_linesOf {bytes line : Bytes} (h : line ∈ linesOf bytes) : line ≠ [] := by
  induction bytes generalizing line with
  | nil => cases h
  | cons b rest ih =>
    rw [linesOf] at h
    split at h
    · rcases List.mem_cons.mp h with rfl | h
      · simp
      · exact ih h
    · cases hrest : linesOf rest with
      | nil =>
        rw [hrest] at h
        obtain rfl := List.mem_singleton.mp h
        simp
      | cons first lines =>
        rw [hrest] at h ih
        rcases List.mem_cons.mp h with rfl | h
        · simp
        · exact ih (List.mem_cons_of_mem first h)

/-- A line ends at its line feed, whatever stands behind it. -/
theorem linesOf_append_feed (front rest : Bytes) :
    linesOf (front ++ 10 :: rest) = linesOf (front ++ [10]) ++ linesOf rest := by
  induction front with
  | nil => rfl
  | cons b front ih =>
    rw [List.cons_append, List.cons_append, linesOf, linesOf]
    split
    · rw [ih, List.cons_append]
    · rw [ih]
      obtain ⟨line, lines, hlines⟩ :=
        List.exists_cons_of_ne_nil (linesOf_ne_nil (List.append_ne_nil_of_right_ne_nil front
          (List.cons_ne_nil 10 [])))
      rw [hlines]
      rfl

theorem linesOf_line {body : Bytes} (h : 10 ∉ body) : linesOf (body ++ [10]) = [body ++ [10]] := by
  induction body with
  | nil => rfl
  | cons b body ih =>
    simp only [List.mem_cons, not_or] at h
    rw [List.cons_append, linesOf, if_neg fun heq => h.1 heq.symm, ih h.2]

/-- The lines of white space are blank. -/
theorem isBlank_of_mem_linesOf {gap line : Bytes} (hgap : Frame.isBlank gap = true)
    (h : line ∈ linesOf gap) : Frame.isBlank line = true := by
  rw [Frame.isBlank, List.all_eq_true] at hgap ⊢
  intro b hb
  refine hgap b ?_
  rw [← flatten_linesOf gap]
  exact List.mem_flatten.mpr ⟨line, h, hb⟩

theorem Frame.IsLine.linesOf_append {line : Bytes} (h : Frame.IsLine line) (rest : Bytes) :
    linesOf (line ++ rest) = line :: linesOf rest := by
  obtain ⟨body, rfl, hbody⟩ := h.ends
  rw [List.append_assoc, List.singleton_append, linesOf_append_feed, linesOf_line hbody]
  rfl

/-! ### Reading trees -/

namespace ReadCall

variable {room : Room} {isOpen : Gate → Bool}

/-- What calls for trees come to, one after the other. -/
def results (room : Room) (isOpen : Gate → Bool) (items : List Delivery) (n : Nat) :
    Option (List (Except Fault Message)) :=
  (performAll room isOpen items (List.replicate n .tree)).map fun outcomes =>
    outcomes.map (·.result)

theorem results_succ (items : List Delivery) (n : Nat) :
    results room isOpen items (n + 1) = (perform room isOpen items .tree).bind fun outcome =>
      (results room isOpen outcome.left n).map (outcome.result :: ·) := by
  rw [results, List.replicate_succ, performAll]
  cases hcall : perform room isOpen items .tree with
  | none => rfl
  | some outcome =>
    simp only [results, Option.bind_eq_bind, Option.bind_some]
    cases performAll room isOpen outcome.left (List.replicate n .tree) <;> rfl

/-- At the end of the stream every call comes to the end of the stream. -/
theorem results_nil (n : Nat) :
    results room isOpen [] n = some (List.replicate n (.error (.frame .ended))) := by
  induction n with
  | zero => rfl
  | succ n ih =>
    rw [results_succ]
    show (results room isOpen [] n).map _ = _
    rw [ih]
    rfl

theorem results_line {line : Bytes} (h : Frame.IsLine line) (rest : List Delivery) (n : Nat) :
    results room isOpen (.bytes line :: rest) (n + 1) =
      (results room isOpen rest n).map ((Frame.readTree room line).map .tree :: ·) := by
  have hsome : line.isEmpty = false := by
    obtain ⟨body, rfl, -⟩ := h.ends
    simp
  rw [results_succ, perform, pull, Inlet.pullMessage]
  · simp only [hsome, h.shown, Bool.false_eq_true, ↓reduceIte, Option.map_some, Option.bind_some,
      ofLine, Except.mapError, Except.bind]
  · simp

/-- A call for a tree passes over a blank line. -/
theorem results_blank {line : Bytes} (hblank : Frame.isBlank line = true) (hsome : line ≠ [])
    (rest : List Delivery) (n : Nat) :
    results room isOpen (.bytes line :: rest) n = results room isOpen rest n := by
  cases n with
  | zero => rfl
  | succ n =>
    have hsome : line.isEmpty = false := by simpa using hsome
    have hpull : Inlet.pullMessage isOpen (.bytes line :: rest) =
        (Inlet.pullMessage isOpen rest).map fun read => (read.1 + 1, read.2) := by
      simp only [Inlet.pullMessage, hsome, hblank, Bool.false_eq_true, ↓reduceIte]
    rw [results_succ, results_succ]
    simp only [perform, pull, hpull, Option.map_map, Option.bind_map]
    rfl

theorem results_gap {gap : Bytes} (hgap : Frame.isBlank gap = true) (rest : List Delivery)
    (n : Nat) :
    results room isOpen (Delivery.ofBytes gap ++ rest) n = results room isOpen rest n := by
  have hlines : ∀ line ∈ linesOf gap, Frame.isBlank line = true ∧ line ≠ [] :=
    fun line h => ⟨isBlank_of_mem_linesOf hgap h, ne_nil_of_mem_linesOf h⟩
  rw [Delivery.ofBytes]
  generalize linesOf gap = lines at hlines
  induction lines with
  | nil => rfl
  | cons line lines ih =>
    obtain ⟨⟨hblank, hsome⟩, hlines⟩ := List.forall_mem_cons.mp hlines
    rw [List.map_cons, List.cons_append, results_blank hblank hsome, ih hlines]

end ReadCall

/-! ### Streams -/

/-- The pieces stand in the stream in their order, with blank lines in front of them, between them
and behind them. -/
inductive Padded : List Bytes → Bytes → Prop
  | last {gap : Bytes} (hgap : Frame.isBlank gap = true) : Padded [] gap
  | blank {gap stream : Bytes} {pieces : List Bytes} (hgap : Frame.isBlank gap = true)
      (h : Padded pieces stream) : Padded pieces (gap ++ 10 :: stream)
  | piece {piece stream : Bytes} {pieces : List Bytes} (h : Padded pieces stream) :
      Padded (piece :: pieces) (piece ++ stream)

/-- What a piece of a stream is read as: nothing, or a line with a tree. -/
inductive Yields (room : Room) : Bytes → Option Tree → Prop
  | nothing : Yields room [] none
  | line {piece : Bytes} {t : Tree} (hline : Frame.IsLine piece)
      (hread : Frame.readTree room piece = .ok t) : Yields room piece (some t)

/-- What is read from a stream of lines among blank lines, past its end too. -/
theorem ReadCall.results_of_padded {room : Room} {isOpen : Gate → Bool} {pieces : List Bytes}
    {stream : Bytes} (hstream : Padded pieces stream) {marks : List (Option Tree)}
    (h : List.Forall₂ (Yields room) pieces marks) (k : Nat) :
    results room isOpen (Delivery.ofBytes stream) (marks.reduceOption.length + k) =
      some ((marks.reduceOption.map fun t => .ok (.tree t)) ++
        List.replicate k (.error (.frame .ended))) := by
  induction hstream generalizing marks with
  | last hgap =>
    cases h
    rw [← List.append_nil (Delivery.ofBytes _), results_gap hgap, results_nil]
    simp [List.reduceOption_nil]
  | @blank gap stream pieces hgap hstream ih =>
    have hline : Frame.isBlank (gap ++ [10]) = true := by
      rw [Frame.isBlank, List.all_append, ← Frame.isBlank, hgap]
      rfl
    rw [Delivery.ofBytes, linesOf_append_feed, List.map_append, ← Delivery.ofBytes,
      results_gap hline]
    exact ih h
  | @piece piece stream pieces hstream ih =>
    cases h with
    | cons hpiece h =>
      cases hpiece with
      | nothing =>
        rw [List.reduceOption_cons_of_none]
        exact ih h
      | line hline hread =>
        rw [Delivery.ofBytes, hline.linesOf_append, List.map_cons, ← Delivery.ofBytes,
          List.reduceOption_cons_of_some, List.length_cons, Nat.add_right_comm,
          results_line hline, ih h, hread]
        rfl

/-! ### Sending -/

/-- The bytes that a call leaves on the wire. -/
def PipeEvent.bytes : PipeEvent → Bytes
  | .write frame => frame
  | _ => []

/-- The bytes that calls leave on the wire. -/
def PipeEvent.written (events : List PipeEvent) : Bytes := events.flatMap PipeEvent.bytes

namespace Outlet

/-- Sends messages one after the other: for each of them the calls made and what has come of it. -/
def sendAll (o : Outlet) : List Value → List (List PipeEvent × Except FrameFault Unit)
  | [] => []
  | v :: rest =>
    let (events, result, o) := o.sendValue v
    (events, result) :: o.sendAll rest

/-- No write and no flush has a mishap. -/
structure Steady (o : Outlet) : Prop where
  writes : ∀ a ∈ o.writes, a.mishap = none
  flushes : ∀ a ∈ o.flushes, a.mishap = none

namespace Steady

variable {o : Outlet}

theorem nextWrite (h : o.Steady) : o.nextWrite.mishap = none := by
  obtain ⟨writes, flushes, close⟩ := o
  cases writes with
  | nil => rfl
  | cons a writes => exact h.writes a List.mem_cons_self

theorem nextFlush (h : o.Steady) : o.nextFlush.mishap = none := by
  obtain ⟨writes, flushes, close⟩ := o
  cases flushes with
  | nil => rfl
  | cons a flushes => exact h.flushes a List.mem_cons_self

theorem dropWrite (h : o.Steady) : o.dropWrite.Steady where
  writes a ha := h.writes a (List.mem_of_mem_tail ha)
  flushes := h.flushes

theorem dropFlush (h : o.Steady) : o.dropFlush.Steady where
  writes := h.writes
  flushes a ha := h.flushes a (List.mem_of_mem_tail ha)

/-- A frame is written and flushed. -/
theorem send (h : o.Steady) (frame : Bytes) :
    o.send frame = ([.write frame, .flush], .ok (), o.dropWrite.dropFlush) := by
  simp only [Outlet.send, outcome, h.nextWrite, h.dropWrite.nextFlush]

end Steady

/-- What comes of the messages: a message without a frame is refused with nothing written, of the
others each is written as one piece, which yields its tree. -/
theorem yields_sendAll {room : Room} {o : Outlet} (ho : o.Steady) {messages : List Value}
    (hmessages : ∀ v ∈ messages, v.Plain room.depth ∨ (Frame.ofValue v).isOk = false) :
    ∃ marks : List (Option Tree),
      List.Forall₂ (Yields room)
        ((o.sendAll messages).map fun sent => PipeEvent.written sent.1) marks ∧
      List.Forall₂ (fun v t => Tree.ofValue v = .ok t)
        (messages.filter fun v => (Frame.ofValue v).isOk) marks.reduceOption := by
  induction messages generalizing o with
  | nil => exact ⟨[], .nil, .nil⟩
  | cons v messages ih =>
    obtain ⟨hv, hmessages⟩ := List.forall_mem_cons.mp hmessages
    cases hframe : Frame.ofValue v with
    | error f =>
      obtain ⟨marks, hyields, htrees⟩ := ih ho hmessages
      have hsent : o.sendAll (v :: messages) = ([], .error f) :: o.sendAll messages := by
        simp only [sendAll, sendValue, hframe]
      refine ⟨none :: marks, ?_, ?_⟩
      · rw [hsent]
        exact .cons .nothing hyields
      · rw [List.filter_cons_of_neg (by rw [hframe]; nofun), List.reduceOption_cons_of_none]
        exact htrees
    | ok frame =>
      obtain ⟨marks, hyields, htrees⟩ := ih ho.dropWrite.dropFlush hmessages
      have hsent : o.sendAll (v :: messages) =
          ([.write frame, .flush], .ok ()) :: o.dropWrite.dropFlush.sendAll messages := by
        simp only [sendAll, sendValue, hframe, ho.send]
      have hplain : v.Plain room.depth := hv.resolve_right (by rw [hframe]; nofun)
      obtain ⟨frame', t, hframe', htree, hline, hread⟩ := Frame.of_plain hplain
      obtain rfl : frame = frame' := Except.ok.inj (hframe.symm.trans hframe')
      refine ⟨some t :: marks, ?_, ?_⟩
      · rw [hsent]
        refine .cons ?_ hyields
        simpa [PipeEvent.written, PipeEvent.bytes] using Yields.line hline hread
      · rw [List.filter_cons_of_pos (by rw [hframe]; rfl), List.reduceOption_cons_of_some]
        exact .cons htree htrees

/-- A message without a frame is refused, and nothing is called for it. -/
theorem sendAll_of_error {o : Outlet} {messages : List Value} {v : Value}
    {sent : List PipeEvent × Except FrameFault Unit} {f : FrameFault}
    (hsent : (v, sent) ∈ messages.zip (o.sendAll messages)) (hf : Frame.ofValue v = .error f) :
    sent = ([], .error f) := by
  induction messages generalizing o with
  | nil => cases hsent
  | cons w messages ih =>
    rw [sendAll, List.zip_cons_cons] at hsent
    rcases List.mem_cons.mp hsent with heq | hsent
    · obtain ⟨rfl, rfl⟩ := Prod.mk.inj heq
      simp only [sendValue, hf]
    · exact ih hsent

/-- A plain message is written as one line and flushed. -/
theorem sendAll_of_plain {room : Room} {o : Outlet} (ho : o.Steady) {messages : List Value}
    {v : Value} {sent : List PipeEvent × Except FrameFault Unit}
    (hsent : (v, sent) ∈ messages.zip (o.sendAll messages)) (hv : v.Plain room.depth) :
    ∃ frame, Frame.ofValue v = .ok frame ∧ Frame.IsLine frame ∧
      sent = ([.write frame, .flush], .ok ()) := by
  induction messages generalizing o with
  | nil => cases hsent
  | cons w messages ih =>
    rw [sendAll, List.zip_cons_cons] at hsent
    rcases List.mem_cons.mp hsent with heq | hsent
    · obtain ⟨rfl, rfl⟩ := Prod.mk.inj heq
      obtain ⟨frame, t, hframe, -, hline, -⟩ := Frame.of_plain hv
      exact ⟨frame, hframe, hline, by simp only [sendValue, hframe, ho.send]⟩
    · refine ih ?_ hsent
      unfold sendValue
      split
      · exact ho
      · rw [ho.send]
        exact ho.dropWrite.dropFlush

end Outlet

/-- Messages sent on an outlet without mishaps are read back. A message without a frame leaves
nothing on the wire and the caller gets its fault; a plain message is never refused and goes out as
one line. From the stream of these lines, with blank lines anywhere between them, the calls for a
tree give their trees in order, and all further calls the end of the stream. -/
theorem stream_read_back (room : Room) {o : Outlet} (ho : o.Steady) {messages : List Value}
    (hmessages : ∀ v ∈ messages, v.Plain room.depth ∨ ∃ f, Frame.ofValue v = .error f) :
    (∀ v sent, (v, sent) ∈ messages.zip (o.sendAll messages) →
      (∀ f, Frame.ofValue v = .error f → sent = ([], .error f)) ∧
      (v.Plain room.depth → ∃ frame, Frame.ofValue v = .ok frame ∧ Frame.IsLine frame ∧
        sent = ([.write frame, .flush], .ok ()))) ∧
    ∃ trees : List Tree,
      List.Forall₂ (fun v t => Tree.ofValue v = .ok t)
        (messages.filter fun v => (Frame.ofValue v).isOk) trees ∧
      ∀ stream, Padded ((o.sendAll messages).map fun sent => PipeEvent.written sent.1) stream →
        ∀ (isOpen : Gate → Bool) (k : Nat),
          ReadCall.results room isOpen (Delivery.ofBytes stream) (trees.length + k) =
            some ((trees.map fun t => .ok (.tree t)) ++
              List.replicate k (.error (.frame .ended))) := by
  have hmarks : ∀ v ∈ messages, v.Plain room.depth ∨ (Frame.ofValue v).isOk = false := by
    intro v hv
    refine (hmessages v hv).imp_right ?_
    rintro ⟨f, hf⟩
    rw [hf]
    rfl
  obtain ⟨marks, hyields, htrees⟩ := Outlet.yields_sendAll ho hmarks
  refine ⟨fun v sent hsent => ?_, marks.reduceOption, htrees, ?_⟩
  · exact ⟨fun f => Outlet.sendAll_of_error hsent, Outlet.sendAll_of_plain ho hsent⟩
  · intro stream hstream isOpen k
    exact ReadCall.results_of_padded hstream hyields k

/-- Messages of which the second holds a set and has no frame. -/
def Value.threeMessages : List Value :=
  [.mapping
      [(.text "a", .list [.int (-7), .text "\"é\n", .null]), (.text "b", .tuple [.bool true])],
    .mapping [(.text "c", .set [])],
    .mapping []]

/-- The text of the first message. -/
def Value.firstLine : Text := "\x7b\"a\":[-7,\"\\\"é\\n\",null],\"b\":[true]\x7d\n"

theorem three_messages_read_back :
    (∀ v ∈ Value.threeMessages, v.Plain Room.standard.depth ∨ ∃ f, Frame.ofValue v = .error f) ∧
    ∃ line, Utf8.encode Value.firstLine = .ok line ∧
      ReadCall.results .standard (fun _ => false)
        (Delivery.ofBytes ([10] ++ line ++ [32, 13, 10] ++ [123, 125, 10] ++ [9])) 4 =
      some [.ok (.tree (.object [("a", .array [.int (-7), .text "\"é\n", .null]),
          ("b", .array [.bool true])])), .ok (.tree (.object [])),
        .error (.frame .ended), .error (.frame .ended)] := by
  have hmessages : ∀ v ∈ Value.threeMessages,
      v.Plain Room.standard.depth ∨ ∃ f, Frame.ofValue v = .error f := by
    rw [Value.threeMessages, List.forall_mem_cons, List.forall_mem_cons, List.forall_mem_singleton]
    have hempty := @Value.Plain.mapping Room.standard.depth.pred [] (by decide) (by simp) (by simp)
    refine ⟨.inl ?_, .inr ⟨_, rfl⟩, .inl hempty⟩
    refine @Value.Plain.mapping _ [("a", .list [.int (-7), .text "\"é\n", .null]),
      ("b", .tuple [.bool true])] (by decide) (by decide) ?_
    rw [List.forall_mem_cons, List.forall_mem_singleton]
    refine ⟨.list ?_, .tuple ?_⟩
    · rw [List.forall_mem_cons, List.forall_mem_cons, List.forall_mem_singleton]
      exact ⟨.int (by decide), .text (by decide), .null⟩
    · rw [List.forall_mem_singleton]
      exact .bool true
  refine ⟨hmessages, ?_⟩
  have ho : Outlet.Steady ⟨[], [], none⟩ := ⟨by simp, by simp⟩
  obtain ⟨line, hline⟩ : ∃ line, Utf8.encode Value.firstLine = .ok line := ⟨_, rfl⟩
  have hsent : ((Outlet.sendAll ⟨[], [], none⟩ Value.threeMessages).map
      fun sent => PipeEvent.written sent.1) = [line, [], [123, 125, 10]] := by
    obtain rfl := Except.ok.inj hline
    decide +kernel
  have hstream : Padded [line, [], [123, 125, 10]]
      ([10] ++ line ++ [32, 13, 10] ++ [123, 125, 10] ++ [9]) := by
    simp only [List.append_assoc]
    refine @Padded.blank [] _ _ rfl (.piece (@Padded.blank [32, 13] _ _ rfl ?_))
    exact @Padded.piece [] _ _ (@Padded.piece [123, 125, 10] [9] _ (.last rfl))
  obtain ⟨-, trees, htrees, hread⟩ := stream_read_back .standard ho hmessages
  cases htrees with
  | cons h₁ htrees =>
  cases htrees with
  | cons h₂ htrees =>
  cases htrees
  obtain rfl := Except.ok.inj h₁
  obtain rfl := Except.ok.inj h₂
  exact ⟨line, hline, hread _ (hsent ▸ hstream) _ 2⟩

end ParserClient
