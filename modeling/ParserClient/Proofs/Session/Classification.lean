import ParserClient.Proofs.Message.Replies
import ParserClient.Proofs.Session.Completion
import ParserClient.Proofs.Session.Wire

/-!
# Replies end to end

A session that speaks an encoding is asked for a content without lone halves, and the write and the
flush have no mishap. The call then reads up to the first line of the child that is not blank. If
that line is a reply, it is the answer, whether the deadline kills the child or not: the call ends
with the tree of the reply, or with the fault that its folded status, its errors and its tree make.

## Main definitions

* `Answer.Says` — what a reply answers.
* `Inlet.Comes` — a line comes behind a number of blank ones.

## Main results

* `State.Speaks.served` — a session that speaks serves what it is asked.
* `Served.running_eq_false_iff` — a session is stopped by a kill of the call.
* `reply_classified` — a reply is answered by what it says.
-/

namespace ParserClient

/-! ### What a reply answers -/

/-- The answer of a reply with the folded status, the errors and the tree. -/
inductive Answer.Says (status : Text) (errors : List Text) (tree : Tree) : Answer → Prop
  | ok (h : status = "ok") : Says status errors tree (.ok tree)
  | error (h : status = "error") : Says status errors tree (.error (.incomplete tree errors))
  | fatal (h : status = "fatal") : Says status errors tree (.error (.failed errors))
  | other (hok : status ≠ "ok") (herror : status ≠ "error") (hfatal : status ≠ "fatal") :
      Says status errors tree (.error (.unsupported status))

/-- A reply answers what its folded status says. -/
theorem Reply.says_answer (reply : Reply) {status : Text}
    (h : reply.status = Status.ofText status) :
    Answer.Says status reply.errors reply.tree reply.answer := by
  unfold Reply.answer
  rw [h, Status.ofText]
  by_cases hok : status = "ok"
  · rw [if_pos hok]
    exact .ok hok
  · rw [if_neg hok]
    by_cases herror : status = "error"
    · rw [if_pos herror]
      exact .error herror
    · rw [if_neg herror]
      by_cases hfatal : status = "fatal"
      · rw [if_pos hfatal]
        exact .fatal hfatal
      · rw [if_neg hfatal]
        exact .other hok herror hfatal

/-! ### The line of a reply -/

namespace Inlet

/-- On the way past gates that open, the line comes behind `b` blank lines, and `left` is behind
it. -/
inductive Comes : List Delivery → Nat → Bytes → List Delivery → Prop
  | line {line : Bytes} {left : List Delivery} (h : Frame.isBlank line = false) :
      Comes (.bytes line :: left) 0 line left
  | blank {blank line : Bytes} {items left : List Delivery} {b : Nat} (hne : blank ≠ [])
      (hblank : Frame.isBlank blank = true) (h : Comes items b line left) :
      Comes (.bytes blank :: items) (b + 1) line left
  | gate {line : Bytes} {items left : List Delivery} {b : Nat} (g : Gate)
      (h : Comes items b line left) : Comes (.gate g :: items) b line left

theorem Comes.seek {items left : List Delivery} {b : Nat} {line : Bytes}
    (h : Comes items b line left) : Inlet.seek items = (b, .ok line, left) := by
  induction h with
  | @line line left h =>
    have hne : line.isEmpty = false := by
      cases line with
      | nil => cases h
      | cons => rfl
    simp [Inlet.seek, h, hne]
  | @blank blank _ _ _ _ hne hblank _ ih =>
    simp [Inlet.seek, hblank, ih, List.isEmpty_eq_false_iff.mpr hne]
  | gate g _ ih => exact ih

end Inlet

/-! ### Requests that are served -/

/-- A session that speaks an encoding and has a child serves what it is asked: the frame conveys the
content, and every answer is that of the dialogue of the request. -/
theorem State.Speaks.served {s : State} {e : ContentEncoding} {child : Child} {q : Ask}
    (h : s.Speaks e) (hs : s.Quiet) (hchild : s.child = some child) (hcontent : q.content.Scalar) :
    ∃ r frame, s.Admits q child r ∧ Frame.ofRequest r = .ok frame ∧
      Frame.Conveys e q.content frame ∧
      ∀ c a s', s.Answers c q a s' →
        ∃ t u, Served s c (q.deadlineIn s) (child.dialogue r) t u a s' := by
  obtain ⟨hrun, tag, htag, hspells⟩ := h
  obtain ⟨wire, hr⟩ := World.requestFor_of_spells hrun htag hspells hcontent
  obtain ⟨frame, hframe, hconveys⟩ := World.conveys_of_requestFor hr
  refine ⟨_, frame, ⟨hchild, hr⟩, hframe, hconveys, fun c a s' ha => ?_⟩
  rcases ha.cases hs with ⟨f, -, hf, -⟩ | ⟨child', r', t, u, hadmits, hserved⟩
  · rw [hr] at hf
    cases hf
  · obtain rfl : child = child' := Option.some.inj (hchild.symm.trans hadmits.child)
    obtain rfl : _ = r' := Except.ok.inj (hr.symm.trans hadmits.request)
    exact ⟨t, u, hserved⟩

namespace Served

variable {s s' : State} {c : Caller} {deadline : Option Seconds} {d : Dialogue} {t : Timer}
  {u : List Happening} {a : Answer}

/-- What has happened in a call that has been served. -/
theorem exists_trace (h : Served s c deadline d t u a s') :
    ∃ v, s'.trace = s.trace ++ v ∧ v.filterMap Happening.pipe? = d.events ∧
      ∀ life e, .kill life e ∈ v ↔ .kill life e ∈ u := by
  refine ⟨_, h.trace, ?_, fun life e => by simp⟩
  rw [List.filterMap_cons, List.filterMap_append, h.events]
  simp [Happening.pipe?]

/-- A session whose child is not killed when a call begins is stopped exactly by a kill of the
call. -/
theorem running_eq_false_iff (h : Served s c deadline d t u a s') (hrun : s.running = true)
    (halive : s.killed = false) : s'.running = false ↔ .kill s.lives c ∈ u := by
  rw [h.kill_mem_iff, h.running, hrun, h.killed, halive]
  simp

end Served

/-! ### Replies -/

/-- The dialogue of a request whose write and flush have no mishap, and to which a line that is a
reply comes behind `b` blank ones. -/
theorem Child.dialogue_of_reply {ch : Child} {r : Request} {frame line : Bytes} {b : Nat}
    {left : List Delivery} {reply : Reply} (hsmooth : ch.outlet.Smooth 1)
    (hframe : Frame.ofRequest r = .ok frame)
    (hcomes : Inlet.Comes (ch.outputAfter [frame]) b line left)
    (hreply : Frame.readReply ch.inlet.room line = .ok reply) :
    ch.dialogue r =
      ⟨.write frame :: .flush :: List.replicate (b + 1) .readline, .ok reply,
        (ch.afterWrite.afterFlush frame true).withItems left⟩ := by
  have hseek : Inlet.seek (ch.afterWrite.afterFlush frame true).inlet.items =
      (b, .ok line, left) := by
    rw [ch.items_afterFlush]
    exact hcomes.seek
  rw [dialogue_of_smooth hsmooth hframe, whenReading, hseek]
  have hroom : (ch.afterWrite.afterFlush frame true).inlet.room = ch.inlet.room :=
    room_afterFlush ch.afterWrite frame true
  simp only [Dialogue.behind, replyOf, hroom, hreply, List.replicate_succ, List.cons_append,
    List.nil_append]

/-- A reply is not judged by the note of a kill. -/
theorem World.judged_ok (killed : Bool) (deadline : Option Seconds) (reply : Reply) :
    judged killed deadline (.ok reply) = .ok reply := rfl

/-- A session that speaks an encoding, with a child whose next write and next flush have no mishap,
is asked for a content without lone halves. Whenever the next line of the child that is not blank
comes behind `b` blank ones, and is a reply for whose tree there is room, every answer is what the
reply says, the frame has been written and flushed and `b + 1` lines have been read, and the rest of
the output is left. The mutex is free, and the session runs unless the timer of the call has killed
the child. There is such an answer if the gates on the way open. -/
theorem reply_classified {client : Client} {launches : List Launch} {episodes : List Episode}
    {s : State} (h : Session client launches episodes s) {e : ContentEncoding}
    (hspeaks : s.Speaks e) {child : Child} (hchild : s.child = some child)
    (hsmooth : child.outlet.Smooth 1) {q : Ask} (hcontent : q.content.Scalar) :
    ∃ frame, Frame.Conveys e q.content frame ∧
      ∀ b line left t status errors tree, Inlet.Comes (child.outputAfter [frame]) b line left →
        Frame.readTree child.inlet.room line = .ok t → child.inlet.room.holds t = true →
        t.Replies status errors tree →
        (∀ c a s', s.Answers c q a s' →
          Answer.Says status errors tree a ∧ s'.holder = none ∧
          (∃ next, s'.child = some next ∧ next.inlet.items = left) ∧
          ∃ v, s'.trace = s.trace ++ v ∧
            v.filterMap Happening.pipe? =
              .write frame :: .flush :: List.replicate (b + 1) .readline ∧
            (s'.running = false ↔ .kill s.lives c ∈ v)) ∧
        ((∀ g ∈ child.gatesWriting frame, g.Opens child (q.deadlineIn s)) →
          ∃ a s', s.perform (.parse q.content q.deadline) = (.answered a, s') ∧
            s.Answers .first q a s') := by
  have hs := h.orderly.quiet
  obtain ⟨r, frame, hadmits, hframe, hconveys, hanswers⟩ := hspeaks.served hs hchild hcontent
  refine ⟨frame, hconveys, fun b line left t status errors tree hcomes htree hroom hreplies =>
    ⟨fun c a s' ha => ?_, fun hgates => ?_⟩⟩
  · obtain ⟨timer, u, hserved⟩ := hanswers c a s' ha
    have hreply :
        Frame.readReply child.inlet.room line = .ok ⟨.ofText status, errors, tree⟩ :=
      Frame.readReply_eq_ok_iff.mpr ⟨t, status, htree, hroom, hreplies, rfl⟩
    rw [Child.dialogue_of_reply hsmooth hframe hcomes hreply] at hserved
    obtain ⟨early, -, hanswer⟩ := hserved.answer
    obtain ⟨v, htrace, hevents, hkill⟩ := hserved.exists_trace
    refine ⟨?_, hserved.holder, ⟨_, hserved.child, rfl⟩, v, htrace, hevents, ?_⟩
    · rw [hanswer, World.judged_ok]
      exact Reply.says_answer ⟨.ofText status, errors, tree⟩ rfl
    · rw [hkill, hserved.running_eq_false_iff hspeaks.running (h.orderly.alive_of_admits hadmits)]
  · exact hs.perform_parse hadmits (by rwa [Child.gates_of_frame hframe])

/-- The line of an object whose status is `OK`, whose tree is the array of `1` and nothing, and
whose errors are the text `e`. -/
def Frame.shouted : Bytes :=
  [123, 34, 115, 116, 97, 116, 117, 115, 34, 58, 34, 79, 75, 34, 44, 34, 97, 115, 116, 34, 58, 91,
    49, 44, 110, 117, 108, 108, 93, 44, 34, 101, 114, 114, 111, 114, 115, 34, 58, 91, 34, 101, 34,
    93, 125, 10]

theorem shouted_classified :
    ∃ s', (State.started (.following [] [.bytes [10], .bytes Frame.shouted])).perform
        (.parse "x" none) = (.answered (.ok (.array [.int 1, .null])), s') ∧ s'.holder = none := by
  have hsmooth : (Child.following [] [.bytes [10], .bytes Frame.shouted]).outlet.Smooth 1 :=
    ⟨fun _ _ _ => nofun, fun _ _ _ => nofun⟩
  have hspeaks : (State.started (.following [] [.bytes [10], .bytes Frame.shouted])).Speaks .utf8 :=
    ⟨rfl, "utf8", rfl, by decide⟩
  obtain ⟨frame, -, hclassified⟩ := reply_classified (q := ⟨"x", none⟩) (session_started _) hspeaks
    rfl hsmooth (by decide)
  have hreplies : Tree.Replies (.object [("status", .text "OK"),
      ("ast", .array [.int 1, .null]), ("errors", .array [.text "e"])]) "ok" ["e"]
      (.array [.int 1, .null]) :=
    ⟨⟨_, rfl⟩, .text "OK", .array ["e"], rfl⟩
  obtain ⟨hanswers, hperform⟩ := hclassified 1 Frame.shouted [] _ "ok" ["e"] _
    (.blank nofun (by decide) (.line (by decide))) (by rfl) (by decide) hreplies
  obtain ⟨a, s', hp, ha⟩ := hperform nofun
  obtain ⟨hsaid, hholder, -⟩ := hanswers .first a s' ha
  have hok : a = .ok (.array [.int 1, .null]) := by
    cases hsaid with
    | ok => rfl
    | error h | fatal h => exact absurd h (by decide)
    | other h => exact absurd rfl h
  exact ⟨s', by rw [← hok]; exact hp, hholder⟩

end ParserClient
