import ParserClient.Proofs.ContentEncoding
import ParserClient.Proofs.Frame.Line
import ParserClient.Proofs.Session.Concurrent
import ParserClient.Proofs.Session.Pairing

/-!
# What a request is on the wire

A request that a session makes has passed the reading of its tag and the encoding of its content,
so it always has a frame: one line, an object with the content and the name of the encoding. A
reader at the other end that asks for a request gets it back, and finds the content in it that the
caller has asked for. No request that a session makes is refused by its own framing or by its own
shape.

## Main definitions

* `Frame.Conveys` — a line conveys a content in an encoding.
* `Happening.written?` — the caller and the frame of a write.
* `Fault.isOfRequest` — the faults of a request that cannot be made or written.

## Main results

* `Frame.conveys_ofRequest` — the frame of a request conveys its content.
* `World.conveys_of_requestFor` — every request that a session makes has such a frame.
* `request_conveyed` — a session that is asked writes the content once, and never fails for the
  request itself.
-/

namespace ParserClient

/-! ### The line of a request -/

/-- The line conveys the content in the encoding: it is an object with the content as it stands on
the wire and the name of the encoding, it is read as a request wherever there is room for one
container, and the request has the content. The fields from which the request is made are accepted
too. -/
structure Frame.Conveys (e : ContentEncoding) (content : Text) (frame : Bytes) : Prop where
  line : Frame.IsLine frame
  request : ∃ wire,
    (∀ room : Room, 0 < room.depth →
      Frame.readTree room frame =
        .ok (.object [("content", .text wire), ("Encoding", .text e.name)]) ∧
      Frame.readRequest room frame = .ok ⟨wire, e⟩) ∧
    e.decode wire = .ok content ∧
    Request.ofValue (.mapping [(.text "content", .text wire), (.text "encoding", .text e.name)]) =
      .ok ⟨wire, e⟩

namespace Request

variable {wire : Text} {e : ContentEncoding}

theorem ofValue_toValue (r : Request) : ofValue r.toValue = .ok r := by
  obtain ⟨wire, e⟩ := r
  cases e <;> rfl

theorem ofValue_fields (wire : Text) (e : ContentEncoding) :
    ofValue (.mapping [(.text "content", .text wire), (.text "encoding", .text e.name)]) =
      .ok ⟨wire, e⟩ := by
  cases e <;> rfl

theorem plain_toValue (h : wire.Scalar) {depth : Nat} (hdepth : 0 < depth) :
    (Request.toValue ⟨wire, e⟩).Plain depth := by
  obtain ⟨depth, rfl⟩ := Nat.exists_eq_add_one.mpr hdepth
  have hname : e.name.Scalar := by cases e <;> decide
  have hkeys : [("content" : Text), "Encoding"].Nodup := by decide
  refine @Value.Plain.mapping _ [("content", .text wire), ("Encoding", .text e.name)] hkeys ?_ ?_
  · rw [List.forall_mem_cons, List.forall_mem_singleton]
    exact ⟨Text.scalar_ofString _, Text.scalar_ofString _⟩
  · rw [List.forall_mem_cons, List.forall_mem_singleton]
    exact ⟨.text h, .text hname⟩

end Request

/-- The frame of a request conveys its content. -/
theorem Frame.conveys_ofRequest {e : ContentEncoding} {content wire : Text}
    (h : e.encode content = .ok wire) :
    ∃ frame, Frame.ofRequest ⟨wire, e⟩ = .ok frame ∧ Frame.Conveys e content frame := by
  have hplain (room : Room) (hroom : 0 < room.depth) :
      ∃ frame, Frame.ofRequest ⟨wire, e⟩ = .ok frame ∧ Frame.IsLine frame ∧
        Frame.readTree room frame =
          .ok (.object [("content", .text wire), ("Encoding", .text e.name)]) := by
    obtain ⟨frame, t, hframe, htree, hline, hread⟩ :=
      Frame.of_plain (Request.plain_toValue (ContentEncoding.scalar_of_encode h) hroom)
    obtain rfl : .object [("content", .text wire), ("Encoding", .text e.name)] = t :=
      Except.ok.inj htree
    exact ⟨frame, hframe, hline, hread⟩
  obtain ⟨frame, hframe, hline, -⟩ := hplain .standard (by decide)
  refine ⟨frame, hframe, hline, wire, fun room hroom => ?_, ContentEncoding.decode_of_encode h,
    Request.ofValue_fields wire e⟩
  -- the frame does not depend on the reader
  obtain ⟨frame', hframe', -, hread⟩ := hplain room hroom
  obtain rfl : frame = frame' := Except.ok.inj (hframe.symm.trans hframe')
  refine ⟨hread, ?_⟩
  have hvalue := Request.ofValue_toValue ⟨wire, e⟩
  simp only [Frame.readRequest, Frame.readAs, Frame.ofTree, hread, ↓reduceIte]
  rw [show Tree.toValue (.object [("content", .text wire), ("Encoding", .text e.name)]) =
    Request.toValue ⟨wire, e⟩ from rfl, hvalue]
  rfl

namespace World

variable {s : State} {content : Text}

/-- A request that is made carries the content in the encoding of the tag. -/
theorem requestFor_eq_ok {r : Request} (h : requestFor s content = .ok r) :
    ContentEncoding.ofValue s.client.encoding = .ok r.encoding ∧
      r.encoding.encode content = .ok r.content := by
  unfold requestFor at h
  by_cases hrun : s.running = true
  · rw [if_pos hrun] at h
    cases he : ContentEncoding.ofValue s.client.encoding with
    | error f =>
      rw [he] at h
      cases h
    | ok e =>
      simp only [he] at h
      cases hwire : e.encode content with
      | error f =>
        rw [hwire] at h
        cases h
      | ok wire =>
        rw [hwire] at h
        cases h
        exact ⟨rfl, hwire⟩
  · rw [if_neg hrun] at h
    cases h

/-- Every request that is made has a frame, which conveys the content. -/
theorem conveys_of_requestFor {r : Request} (h : requestFor s content = .ok r) :
    ∃ frame, Frame.ofRequest r = .ok frame ∧ Frame.Conveys r.encoding content frame :=
  Frame.conveys_ofRequest (requestFor_eq_ok h).2

/-- A running session makes a request of any content without lone halves, if its tag is the name of
an encoding in some case of letters. -/
theorem requestFor_of_spells {tag : Text} {e : ContentEncoding} (hrun : s.running = true)
    (htag : s.client.encoding = .text tag) (hspells : tag.Spells e.name)
    (hcontent : content.Scalar) :
    ∃ wire, requestFor s content = .ok ⟨wire, e⟩ := by
  obtain ⟨wire, hwire⟩ := ContentEncoding.encode_of_scalar e hcontent
  refine ⟨wire, ?_⟩
  simp only [requestFor, hrun, ↓reduceIte, htag, ContentEncoding.ofValue_of_spells hspells, hwire]

end World

/-! ### What is written -/

/-- The caller and the frame of a write. -/
def Happening.written? : Happening → Option (Caller × Bytes)
  | .call _ c e => e.frame?.map (c, ·)
  | _ => none

/-- A call writes its own frames only. -/
theorem written?_of_within {l : Nat} {c : Caller} {u : List Happening}
    (hu : ∀ h ∈ u, h.Within l c) :
    u.filterMap Happening.written? =
      ((u.filterMap Happening.pipe?).filterMap PipeEvent.frame?).map (c, ·) := by
  induction u with
  | nil => rfl
  | cons h u ih =>
    obtain ⟨hh, hu⟩ := List.forall_mem_cons.mp hu
    rw [List.filterMap_cons, ih hu]
    cases h with
    | call l' c' e =>
      obtain ⟨rfl, rfl⟩ := hh
      cases he : e.frame? <;> simp [Happening.written?, Happening.pipe?, he]
    | poll | kill | warn => rfl
    | _ => exact absurd hh id

theorem Served.written {s s' : State} {c : Caller} {deadline : Option Seconds} {child : Child}
    {r : Request} {t : Timer} {u : List Happening} {answer : Answer} {frame : Bytes}
    (h : Served s c deadline (child.dialogue r) t u answer s')
    (hframe : Frame.ofRequest r = .ok frame) :
    (Happening.acquire c :: (u ++ [.release c])).filterMap Happening.written? = [(c, frame)] := by
  rw [List.filterMap_cons, List.filterMap_append, written?_of_within h.within, h.events,
    child.frames_dialogue hframe]
  rfl

namespace State.Answers

variable {s s' : State} {c : Caller} {q : Ask} {a : Answer}

/-- A request that is made is written once. -/
theorem written {r : Request} {frame : Bytes} (hs : s.Quiet) (h : s.Answers c q a s')
    (hr : World.requestFor s q.content = .ok r) (hframe : Frame.ofRequest r = .ok frame) :
    ∃ t, s'.trace = s.trace ++ t ∧ t.filterMap Happening.written? = [(c, frame)] := by
  rcases h.cases hs with ⟨f, -, hf, -⟩ | ⟨child, r', t, u, hadmits, hserved⟩
  · rw [hr] at hf
    cases hf
  · obtain rfl : r = r' := Except.ok.inj (hr.symm.trans hadmits.request)
    exact ⟨_, hserved.trace, hserved.written hframe⟩

end State.Answers

/-! ### Faults of a request -/

/-- The fault is one of a request that cannot be written, or that has not the shape of one. -/
def Fault.isOfRequest : Fault → Bool
  | .frame (.unencodable _) | .frame (.rejected .request _) | .invalid .request _ => true
  | _ => false

namespace Inlet

theorem isOfReading_of_seek {items : List Delivery} {f : FrameFault}
    (h : (seek items).2.1 = .error f) : f.isOfReading = true := by
  obtain ⟨passed, -, ⟨line, hline, -⟩ | ⟨f', hf', hreading, -⟩⟩ := seek_passes items
  · rw [h] at hline
    cases hline
  · rw [h] at hf'
    rwa [Except.error.inj hf']

theorem isOfReading_of_next {items : List Delivery} {f : FrameFault}
    (h : (next items).1 = .error f) : f.isOfReading = true := by
  induction items with
  | nil =>
    obtain rfl := Except.error.inj h
    rfl
  | cons item items ih =>
    cases item with
    | bytes b => rw [(lineOf_eq_error h).1]; rfl
    | mishap m =>
      obtain rfl := Except.error.inj h
      exact isOfReading_faultOf m
    | gate g => exact ih h

end Inlet

namespace FrameFault

theorem not_isOfRequest {f : FrameFault} (h : f.isOfReading = true) :
    (Fault.frame f).isOfRequest = false := by
  cases f <;> first | rfl | cases h

end FrameFault

namespace Child

/-- No exchange of a request that has a frame comes to a fault of the request. -/
theorem not_isOfRequest_of_dialogue {ch : Child} {r : Request} {frame : Bytes} {f : Fault}
    (hframe : Frame.ofRequest r = .ok frame) (h : (ch.dialogue r).exchange = .error f) :
    f.isOfRequest = false := by
  rcases dialogue_eq_error h with ⟨g, hg, -⟩ | ⟨items, g, hnext | hseek, rfl⟩ | ⟨_, hline⟩ |
    ⟨_, _, rfl⟩
  · rw [hframe] at hg
    cases hg
  · exact FrameFault.not_isOfRequest (Inlet.isOfReading_of_next hnext)
  · exact FrameFault.not_isOfRequest (Inlet.isOfReading_of_seek hseek)
  · rcases Frame.readReply_eq_error hline with
      ⟨_, rfl⟩ | ⟨_, rfl⟩ | rfl | ⟨_, rfl⟩ | ⟨_, rfl⟩ <;> rfl
  · rfl

end Child

theorem Reply.not_isOfRequest_of_answer {reply : Reply} {f : Fault}
    (h : reply.answer = .error f) : f.isOfRequest = false := by
  rcases reply.answer_eq_error h with ⟨_, rfl⟩ | ⟨_, rfl⟩ | ⟨_, rfl⟩ <;> rfl

theorem World.not_isOfRequest_of_requestFor {s : State} {content : Text} {f : Fault}
    (h : requestFor s content = .error f) : f.isOfRequest = false := by
  rcases requestFor_eq_error h with rfl | ⟨g, rfl⟩ | ⟨_, rfl⟩
  · rfl
  · cases g <;> rfl
  · rfl

/-- An exchange that is judged has the fault of the exchange, or that of the deadline. -/
theorem World.not_isOfRequest_of_judged {early : Bool} {deadline : Option Seconds}
    {exchange : Exchange} {f : Fault} (he : ∀ g, exchange = .error g → g.isOfRequest = false)
    (h : (judged early deadline exchange).answer = .error f) : f.isOfRequest = false := by
  rcases judged_eq_error h with ⟨-, rfl⟩ | hexchange | ⟨reply, hreply⟩
  · rcases Fault.ofDeadline_cases deadline with ⟨-, hlate⟩ | ⟨o, -, hlate⟩ <;> rw [hlate] <;> rfl
  · exact he f hexchange
  · exact Reply.not_isOfRequest_of_answer hreply

/-- No answer is a fault of the request. -/
theorem State.Answers.not_isOfRequest {s s' : State} {c : Caller} {q : Ask} {f : Fault}
    (hs : s.Quiet) (h : s.Answers c q (.error f) s') : f.isOfRequest = false := by
  rcases h.cases hs with ⟨g, hg, hr, -⟩ | ⟨child, r, t, u, hadmits, hserved⟩
  · obtain rfl := Except.error.inj hg
    exact World.not_isOfRequest_of_requestFor hr
  · obtain ⟨frame, hframe, -⟩ := World.conveys_of_requestFor hadmits.request
    obtain ⟨early, -, hanswer⟩ := hserved.answer
    exact World.not_isOfRequest_of_judged
      (fun g => Child.not_isOfRequest_of_dialogue hframe) hanswer.symm

theorem State.Performs.not_isOfRequest {s s' : State} {command : Command} {outcome : Outcome}
    (hs : s.Quiet) (h : s.Performs command outcome s') {c : Caller} {f : Fault}
    (hf : outcome.answer? c = some (.error f)) : f.isOfRequest = false := by
  obtain ⟨mid, q, s'', hmid, -, ha⟩ := h.exists_answers hs hf
  exact ha.not_isOfRequest hmid

/-! ### Content on its way -/

/-- The session runs, and its tag is the name of the encoding in some case of letters. -/
structure State.Speaks (s : State) (e : ContentEncoding) : Prop where
  running : s.running = true
  tag : ∃ tag, s.client.encoding = .text tag ∧ Text.Spells tag e.name

/-- The content of a single request is written once. -/
theorem State.Answers.conveyed {s s' : State} {c : Caller} {q : Ask} {a : Answer}
    {e : ContentEncoding} (hs : s.Quiet) (hspeaks : s.Speaks e) (hcontent : q.content.Scalar)
    (h : s.Answers c q a s') :
    ∃ t frame, s'.trace = s.trace ++ t ∧ t.filterMap Happening.written? = [(c, frame)] ∧
      Frame.Conveys e q.content frame := by
  obtain ⟨hrun, tag, htag, hspells⟩ := hspeaks
  obtain ⟨wire, hr⟩ := World.requestFor_of_spells hrun htag hspells hcontent
  obtain ⟨frame, hframe, hconveys⟩ := World.conveys_of_requestFor hr
  obtain ⟨t, ht, hwritten⟩ := h.written hs hr hframe
  exact ⟨t, frame, ht, hwritten, hconveys⟩

/-- Of two requests at the same time the first is written once, and so is the other unless it is
turned away. -/
theorem conveyed_of_moves {s : State} {e : ContentEncoding} {q : Caller → Ask} {w : World}
    {a : Caller → Answer} (hs : s.Quiet) (hspeaks : s.Speaks e)
    (hcontent : ∀ d, (q d).content.Scalar) (hmoves : World.Moves (World.asking s q) w)
    (ha : ∀ d, (w.call d).answer? = some (a d)) :
    ∃ c t frame, w.state.trace = s.trace ++ t ∧ Frame.Conveys e (q c).content frame ∧
      (a c.other = .error .notRunning ∧ t.filterMap Happening.written? = [(c, frame)] ∨
        ∃ frame', Frame.Conveys e (q c.other).content frame' ∧
          t.filterMap Happening.written? = [(c, frame), (c.other, frame')]) := by
  obtain ⟨c, mid, hfirst, hsecond⟩ := answers_of_moves hs hmoves ha
  have hmid := hfirst.quiet hs
  obtain ⟨t₁, frame, ht₁, hwritten₁, hconveys⟩ := hfirst.conveyed hs hspeaks (hcontent c)
  refine ⟨c, ?_⟩
  by_cases hrun : mid.running = true
  · have hspeaks' : mid.Speaks e := ⟨hrun, by rw [hfirst.client hs]; exact hspeaks.tag⟩
    obtain ⟨t₂, frame', ht₂, hwritten₂, hconveys'⟩ :=
      hsecond.conveyed hmid hspeaks' (hcontent c.other)
    refine ⟨t₁ ++ t₂, frame, by rw [ht₂, ht₁, List.append_assoc], hconveys,
      .inr ⟨frame', hconveys', ?_⟩⟩
    rw [List.filterMap_append, hwritten₁, hwritten₂]
    rfl
  · rw [Bool.not_eq_true] at hrun
    obtain ⟨hanswer, hsame⟩ := hsecond.of_stopped hmid hrun
    exact ⟨t₁, frame, by rw [hsame, ht₁], hconveys, .inl ⟨hanswer, hwritten₁⟩⟩

/-- A session that runs, whose tag is the name of an encoding in some case of letters, is asked for
a content without lone halves. If one caller asks, it writes once in the whole request, and the line
conveys the content. If two callers ask at the same time, each of them writes its own content once,
one behind the other, unless the session has been stopped when the second has its turn. And whatever
a session is asked, with any tag and any content, no request fails because it cannot be written or
has not the shape of a request. -/
theorem request_conveyed {client : Client} {launches : List Launch} {episodes : List Episode}
    {s : State} (h : Session client launches episodes s) :
    (∀ e, s.Speaks e →
      (∀ c q a s', q.content.Scalar → s.Answers c q a s' →
        ∃ t frame, s'.trace = s.trace ++ t ∧ t.filterMap Happening.written? = [(c, frame)] ∧
          Frame.Conveys e q.content frame) ∧
      ∀ (q : Caller → Ask) (w : World) (a : Caller → Answer), (∀ d, (q d).content.Scalar) →
        World.Moves (World.asking s q) w → (∀ d, (w.call d).answer? = some (a d)) →
        ∃ c t frame, w.state.trace = s.trace ++ t ∧ Frame.Conveys e (q c).content frame ∧
          (a c.other = .error .notRunning ∧ t.filterMap Happening.written? = [(c, frame)] ∨
            ∃ frame', Frame.Conveys e (q c.other).content frame' ∧
              t.filterMap Happening.written? = [(c, frame), (c.other, frame')])) ∧
    ∀ command outcome s' c f, s.Performs command outcome s' →
      outcome.answer? c = some (.error f) → f.isOfRequest = false := by
  have hs := h.orderly.quiet
  refine ⟨fun e hspeaks => ⟨fun c q a s' hcontent ha => ?_, fun q w a hcontent hmoves ha => ?_⟩,
    fun command outcome s' c f hp => hp.not_isOfRequest hs⟩
  · exact ha.conveyed hs hspeaks hcontent
  · exact conveyed_of_moves hs hspeaks hcontent hmoves ha

/-- A session whose tag is written in large and small letters. -/
theorem session_tagged :
    ∃ episodes, Session .standard [.ok (.following [] [.bytes [123, 125, 10]])] episodes
      ((State.started (.following [] [.bytes [123, 125, 10]])).perform
        (.setEncoding (.text "bAsE64"))).2 :=
  ⟨_, (session_started _).perform (.setEncoding (.text "bAsE64")) nofun⟩

theorem letter_conveyed :
    let s := ((State.started (.following [] [.bytes [123, 125, 10]])).perform
      (.setEncoding (.text "bAsE64"))).2
    let s' := (World.alone s "é\n" none).state
    (∃ launches episodes, Session .standard launches episodes s) ∧ s.Speaks .base64 ∧
      s.Answers .first ⟨"é\n", none⟩ (.error (.unsupported [])) s' ∧
      ∃ t frame, s'.trace = s.trace ++ t ∧ t.filterMap Happening.written? = [(.first, frame)] ∧
        Frame.Conveys .base64 "é\n" frame := by
  intro s s'
  obtain ⟨episodes, h⟩ := session_tagged
  have hspeaks : s.Speaks .base64 := ⟨rfl, "bAsE64", rfl, by decide⟩
  have hanswers : s.Answers .first ⟨"é\n", none⟩ (.error (.unsupported [])) s' :=
    ⟨_, World.moves_alone s "é\n" none, by rfl, rfl⟩
  exact ⟨⟨_, _, h⟩, hspeaks, hanswers,
    ((request_conveyed h).1 .base64 hspeaks).1 .first ⟨"é\n", none⟩ _ _ (by decide) hanswers⟩

end ParserClient
