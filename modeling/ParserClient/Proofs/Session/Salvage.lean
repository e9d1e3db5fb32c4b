import ParserClient.Proofs.Frame.RawLine
import ParserClient.Proofs.Session.Classification
import ParserClient.Report

/-!
# Requests that are not written

When the write of a request or its flush has a mishap, the call makes one reading call and takes
what it gives as it stands: the text of a line, blank or not, JSON or not, goes with the mishap into
the fault of the call, and the fault of a reading call that gives no line is that of the call. A
flush is not made behind a write that has had a mishap. The session goes on as after any other
request, and what is read later begins behind the item that has been taken.

## Main definitions

* `Child.Stumbles` — the write or the flush of a request has a mishap.
* `Inlet.Delivers` — the item that the next reading call takes.
* `Fault.Salvages` — the fault of a request that is not written, with the item that is read then.

## Main results

* `Fault.Salvages.report` — what a caller sees of such a fault.
* `Child.dialogue_of_stumbles` — the dialogue of a request that is not written.
* `unwritten_salvaged` — what a session answers to such a request.
-/

namespace ParserClient

/-! ### The item that is read -/

namespace Inlet

/-- On the way past gates that open, the next reading call takes the item, and `left` is behind it.
Behind the last item the stream is at its end, which delivers no bytes. -/
inductive Delivers : List Delivery → Delivery → List Delivery → Prop
  | ended : Delivers [] (.bytes []) []
  | bytes (b : Bytes) (left : List Delivery) : Delivers (.bytes b :: left) (.bytes b) left
  | mishap (m : Mishap) (left : List Delivery) : Delivers (.mishap m :: left) (.mishap m) left
  | gate {items left : List Delivery} {item : Delivery} (g : Gate) (h : Delivers items item left) :
      Delivers (.gate g :: items) item left

theorem Delivers.next_bytes {items left : List Delivery} {b : Bytes}
    (h : Delivers items (.bytes b) left) : next items = (lineOf b, left) := by
  generalize hitem : Delivery.bytes b = item at h
  induction h with
  | ended =>
    obtain rfl := Delivery.bytes.inj hitem
    rfl
  | bytes b' left =>
    obtain rfl := Delivery.bytes.inj hitem
    rfl
  | mishap => cases hitem
  | gate g _ ih => exact ih hitem

theorem Delivers.next_mishap {items left : List Delivery} {m : Mishap}
    (h : Delivers items (.mishap m) left) : next items = (.error (faultOf m), left) := by
  generalize hitem : Delivery.mishap m = item at h
  induction h with
  | ended => cases hitem
  | bytes => cases hitem
  | mishap m' left =>
    obtain rfl := Delivery.mishap.inj hitem
    rfl
  | gate g _ ih => exact ih hitem

theorem Delivers.not_gate {items left : List Delivery} {item : Delivery} {g : Gate}
    (h : Delivers items item left) : item ≠ .gate g := by
  induction h with
  | ended | bytes | mishap => exact nofun
  | gate _ _ ih => exact ih

end Inlet

/-! ### What is made of it -/

/-- The fault of a request whose write or flush has had the mishap, when the item is read then. -/
inductive Fault.Salvages (write : Mishap) : Delivery → Fault → Prop
  | line {line : Bytes} {raw : Text} (hne : line ≠ []) (hraw : Frame.Keeps line raw) :
      Salvages write (.bytes line) (.crashed write raw)
  | ended : Salvages write (.bytes []) (.frame .ended)
  | closed (text : Text) : Salvages write (.mishap (.misused text)) (.frame (.closed text))
  | unreadable (r : Refusal) : Salvages write (.mishap (.refused r)) (.frame (.unreadable r))

/-- What a caller sees of it: the report of a write, which holds that of the mishap and the text of
the line, if there is a line; that of a stream that is closed, if it is at its end or the reading
call is misused; and that of a reading call that is refused. -/
theorem Fault.Salvages.report {write : Mishap} {item : Delivery} {f : Fault}
    (h : Salvages write item f) :
    (∃ line raw, item = .bytes line ∧ line ≠ [] ∧ Frame.Keeps line raw ∧
        f.report = .crashed (.ofFrame (.unwritable write)) raw) ∨
      (item = .bytes [] ∨ ∃ text, item = .mishap (.misused text)) ∧
        f.report.kind = .streamClosed ∨
      (∃ r, item = .mishap (.refused r)) ∧ f.report.kind = .framing := by
  cases h with
  | line hne hraw => exact .inl ⟨_, _, rfl, hne, hraw, rfl⟩
  | ended => exact .inr (.inl ⟨.inl rfl, rfl⟩)
  | closed text => exact .inr (.inl ⟨.inr ⟨text, rfl⟩, rfl⟩)
  | unreadable r => exact .inr (.inr ⟨⟨r, rfl⟩, rfl⟩)

/-- There is one way to salvage what is read, whatever the item. -/
theorem Inlet.Delivers.salvages {items left : List Delivery} {item : Delivery}
    (h : Delivers items item left) (write : Mishap) :
    ∃ f, Fault.Salvages write item f ∧ Child.crashOf write (next items).1 = .error f ∧
      (next items).2 = left := by
  cases item with
  | bytes line =>
    rw [h.next_bytes]
    cases line with
    | nil => exact ⟨_, .ended, rfl, rfl⟩
    | cons b rest => exact ⟨_, .line nofun (Frame.keeps_rawText _), rfl, rfl⟩
  | mishap m =>
    rw [h.next_mishap]
    cases m with
    | misused text => exact ⟨_, .closed text, rfl, rfl⟩
    | refused r => exact ⟨_, .unreadable r, rfl, rfl⟩
  | gate g => exact (h.not_gate rfl).elim

/-! ### Requests that are not written -/

/-- The write of the frame, or its flush, has the mishap; the calls on the pipes are these. -/
inductive Child.Stumbles (ch : Child) (frame : Bytes) : Mishap → List PipeEvent → Prop
  | write {m : Mishap} (h : ch.outlet.nextWrite.mishap = some m) :
      Stumbles ch frame m [.write frame, .readline]
  | flush {m : Mishap} (hwrite : ch.outlet.nextWrite.mishap = none)
      (h : ch.outlet.nextFlush.mishap = some m) :
      Stumbles ch frame m [.write frame, .flush, .readline]

/-- The dialogue of a request that is not written: one reading call is made, and what comes of the
next item is the exchange. -/
theorem Child.dialogue_of_stumbles {ch : Child} {r : Request} {frame : Bytes} {m : Mishap}
    {events : List PipeEvent} {item : Delivery} {left : List Delivery}
    (hframe : Frame.ofRequest r = .ok frame) (h : ch.Stumbles frame m events)
    (hitem : Inlet.Delivers ch.inlet.items item left) :
    ∃ f after, Fault.Salvages m item f ∧ ch.dialogue r = ⟨events, .error f, after⟩ ∧
      after.inlet.items = left := by
  obtain ⟨f, hf, hcrash, hleft⟩ := hitem.salvages m
  rw [dialogue_of_frame hframe, whenWriting]
  cases h with
  | write hm =>
    refine ⟨f, ch.afterWrite.withItems left, hf, ?_, rfl⟩
    simp only [hm, Dialogue.behind_behind]
    simp only [Dialogue.behind, whenSalvaging, afterWrite, hcrash, hleft, List.cons_append,
      List.nil_append]
  | flush hwrite hm =>
    have hnext : ch.afterWrite.outlet.nextFlush.mishap = some m := hm
    refine ⟨f, (ch.afterWrite.afterFlush frame false).withItems left, hf, ?_, rfl⟩
    have hitems : (ch.afterWrite.afterFlush frame false).inlet.items = ch.inlet.items := by
      simp [afterFlush, afterWrite]
    simp only [hwrite, whenFlushing, hnext, Dialogue.behind_behind]
    simp only [Dialogue.behind, whenSalvaging, hitems, hcrash, hleft, List.cons_append,
      List.nil_append]

/-- Without a kill of the call the answer is the exchange as it stands, and the session runs. -/
theorem Served.answer_of_not_mem {s s' : State} {c : Caller} {deadline : Option Seconds}
    {d : Dialogue} {t : Timer} {u : List Happening} {a : Answer}
    (h : Served s c deadline d t u a s') (hrun : s.running = true) (halive : s.killed = false)
    (hkill : .kill s.lives c ∉ u) : a = d.exchange.answer ∧ s'.running = true := by
  have hrunning : s'.running = true := by
    rw [← Bool.not_eq_false]
    exact fun hstopped => hkill ((h.running_eq_false_iff hrun halive).mp hstopped)
  refine ⟨h.answer_of_alive ?_, hrunning⟩
  rw [h.running, hrun] at hrunning
  simpa using hrunning

/-- A session that speaks an encoding is asked for a content without lone halves, and the write or
the flush of the request has a mishap. Whatever the next item of the child is, the call makes one
reading call, which takes it, and a flush only behind a write without a mishap; the mutex is free,
and what is read later begins behind the item. If the deadline does not kill the child in the call,
the session runs and the answer is the fault that the mishap and the item make. There is an answer
if the gates on the way open. -/
theorem unwritten_salvaged {client : Client} {launches : List Launch} {episodes : List Episode}
    {s : State} (h : Session client launches episodes s) {e : ContentEncoding}
    (hspeaks : s.Speaks e) {child : Child} (hchild : s.child = some child) {q : Ask}
    (hcontent : q.content.Scalar) :
    ∃ frame, Frame.Conveys e q.content frame ∧
      ∀ m events item left, child.Stumbles frame m events →
        Inlet.Delivers child.inlet.items item left →
        ∃ f, Fault.Salvages m item f ∧
          (∀ c a s', s.Answers c q a s' →
            s'.holder = none ∧ (∃ next, s'.child = some next ∧ next.inlet.items = left) ∧
            ∃ v, s'.trace = s.trace ++ v ∧ v.filterMap Happening.pipe? = events ∧
              (.kill s.lives c ∉ v → a = .error f ∧ s'.running = true)) ∧
          ((∀ g ∈ child.gatesWriting frame, g.Opens child (q.deadlineIn s)) →
            ∃ a s', s.perform (.parse q.content q.deadline) = (.answered a, s') ∧
              s.Answers .first q a s') := by
  have hs := h.orderly.quiet
  obtain ⟨r, frame, hadmits, hframe, hconveys, hanswers⟩ := hspeaks.served hs hchild hcontent
  refine ⟨frame, hconveys, fun m events item left hstumbles hitem => ?_⟩
  obtain ⟨f, after, hsalvages, hdialogue, hleft⟩ :=
    Child.dialogue_of_stumbles hframe hstumbles hitem
  refine ⟨f, hsalvages, fun c a s' ha => ?_, fun hgates => ?_⟩
  · obtain ⟨timer, u, hserved⟩ := hanswers c a s' ha
    rw [hdialogue] at hserved
    obtain ⟨v, htrace, hevents, hkill⟩ := hserved.exists_trace
    refine ⟨hserved.holder, ⟨_, hserved.child, hleft⟩, v, htrace, hevents, fun hno => ?_⟩
    rw [hkill] at hno
    exact hserved.answer_of_not_mem hspeaks.running (h.orderly.alive_of_admits hadmits) hno
  · exact hs.perform_parse hadmits (by rwa [Child.gates_of_frame hframe])

/-- A child whose pipe breaks when it is written to, and which has left a line that is no text. -/
def Child.broken : Child :=
  .following [⟨none, some (.refused ⟨32, "Broken pipe", none⟩)⟩]
    [.bytes [115, 101, 103, 118, 255, 13, 10], .bytes [123, 125, 10]]

theorem broken_salvaged :
    ∃ s', (State.started .broken).perform (.parse "x" none) =
        (.answered (.error (.crashed (.refused ⟨32, "Broken pipe", none⟩) "segv\ufffd")), s') ∧
      Frame.Keeps [115, 101, 103, 118, 255, 13, 10] "segv\ufffd" ∧ s'.running = true := by
  have hperformed : ((State.started .broken).perform (.parse "x" none)).1 =
      .answered (.error (.crashed (.refused ⟨32, "Broken pipe", none⟩) "segv\ufffd")) := by rfl
  have hspeaks : (State.started .broken).Speaks .utf8 := ⟨rfl, "utf8", rfl, by decide⟩
  obtain ⟨frame, -, hsalvaged⟩ := unwritten_salvaged (q := ⟨"x", none⟩) (session_started .broken)
    hspeaks rfl (by decide)
  obtain ⟨f, hf, hanswers, hperform⟩ := hsalvaged _ _ _ _ (.write rfl) (.bytes _ _)
  obtain ⟨a, s', hp, ha⟩ := hperform fun g hg => by cases hg
  obtain ⟨-, -, v, htrace, -, hanswer⟩ := hanswers .first a s' ha
  have hmarks : s'.trace.any Happening.isMark = false := by
    rw [← congrArg (fun result => result.2.trace) hp]
    rfl
  have hkill : .kill (State.started .broken).lives .first ∉ v := by
    intro hmem
    have hmark : s'.trace.any Happening.isMark = true :=
      List.any_eq_true.mpr ⟨_, htrace ▸ List.mem_append_right _ hmem, rfl⟩
    rw [hmarks] at hmark
    cases hmark
  obtain ⟨rfl, hrunning⟩ := hanswer hkill
  cases hf with
  | line _ hraw =>
    rw [hp] at hperformed
    cases hperformed
    exact ⟨s', hp, hraw, hrunning⟩

end ParserClient
