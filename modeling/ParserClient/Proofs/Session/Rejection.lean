import ParserClient.Proofs.Session.Completion
import ParserClient.Proofs.Session.Wire

/-!
# Requests that are turned away

A request is turned away before anything happens for one of three reasons, looked at in this order:
the session does not run, its tag is the name of no encoding in any case of letters, or the content
holds a lone half. Such a request leaves the session as it is: nothing is written down, the child
and what is left on its output stay, and no timer is armed. This is so in any world, also while
another call is inside. Every other request takes the mutex and is written once; of two callers
the second may find that the session has been stopped while it was waiting, and is turned away for
that.

## Main definitions

* `State.TurnsAway` — a request is turned away with a fault.
* `State.Disposes` — a request is turned away and nothing has happened, or it is written.

## Main results

* `State.turnsAway_notRunning_iff`, `State.turnsAway_tag_iff`,
  `State.exists_turnsAway_unencodable_iff` — which requests are turned away for which reason.
* `World.requestFor_eq_error_iff` — there is no request for a content exactly if it is turned away.
* `World.step_of_turnsAway` — in any world a call that is turned away ends at once.
* `State.Answers.disposes` — every answer is one of the two.
* `rejected_untouched` — which requests of a session are turned away, and what that leaves.
-/

namespace ParserClient

/-! ### Reasons -/

namespace State

/-- A request for the content is turned away with the fault. -/
inductive TurnsAway (s : State) (content : Text) : Fault → Prop
  /-- The session does not run. -/
  | stopped (hrun : s.running = false) : TurnsAway s content .notRunning
  /-- It runs, and its tag is the name of no encoding in any case of letters. -/
  | unnamed {tag : Text} (hrun : s.running = true) (htag : s.client.encoding = .text tag)
      (hname : ∀ e : ContentEncoding, ¬ tag.Spells e.name) :
      TurnsAway s content (.tag (.text tag) tag)
  /-- It runs and its tag is the name of an encoding, and the content has no bytes. -/
  | lone {e : ContentEncoding} {cause : Utf8.Unencodable} (hspeaks : s.Speaks e)
      (hcause : Utf8.encode content = .error cause) :
      TurnsAway s content (.unencodable cause)

variable {s : State} {content tag : Text}

theorem turnsAway_notRunning_iff : s.TurnsAway content .notRunning ↔ s.running = false :=
  ⟨fun h => by cases h; assumption, .stopped⟩

theorem turnsAway_tag_iff (htag : s.client.encoding = .text tag) :
    s.TurnsAway content (.tag (.text tag) tag) ↔
      s.running = true ∧ ∀ e : ContentEncoding, ¬ tag.Spells e.name := by
  constructor
  · intro h
    cases h with
    | unnamed hrun _ hname => exact ⟨hrun, hname⟩
  · rintro ⟨hrun, hname⟩
    exact .unnamed hrun htag hname

theorem exists_turnsAway_unencodable_iff (htag : s.client.encoding = .text tag) :
    (∃ cause, s.TurnsAway content (.unencodable cause)) ↔
      s.running = true ∧ (∃ e : ContentEncoding, tag.Spells e.name) ∧ ¬ content.Scalar := by
  rw [← Utf8.exists_encode_eq_error_iff]
  constructor
  · rintro ⟨cause, h⟩
    cases h with
    | lone hspeaks hcause =>
      obtain ⟨hrun, tag', htag', hspells⟩ := hspeaks
      rw [htag, Value.text.injEq] at htag'
      exact ⟨hrun, ⟨_, htag' ▸ hspells⟩, cause, hcause⟩
  · rintro ⟨hrun, ⟨e, hspells⟩, cause, hcause⟩
    exact ⟨cause, .lone ⟨hrun, tag, htag, hspells⟩ hcause⟩

end State

namespace World

variable {s : State} {content tag : Text} {f : Fault}

/-- There is no request for a content exactly if it is turned away. -/
theorem requestFor_eq_error_iff (htag : s.client.encoding = .text tag) :
    requestFor s content = .error f ↔ s.TurnsAway content f := by
  constructor
  · intro h
    by_cases hrun : s.running = true
    · by_cases hname : ∃ e : ContentEncoding, tag.Spells e.name
      · obtain ⟨e, hspells⟩ := hname
        simp only [requestFor, hrun, ↓reduceIte, htag, ContentEncoding.ofValue_of_spells hspells]
          at h
        cases hwire : e.encode content with
        | ok wire =>
          rw [hwire] at h
          cases h
        | error cause =>
          rw [hwire] at h
          rw [← Except.error.inj h]
          exact .lone ⟨hrun, tag, htag, hspells⟩ (ContentEncoding.encode_eq_error_iff.mp hwire)
      · have hnone := not_exists.mp hname
        simp only [requestFor, hrun, ↓reduceIte, htag, ContentEncoding.ofValue_of_not_spells hnone]
          at h
        rw [← Except.error.inj h]
        exact .unnamed hrun htag hnone
    · rw [Bool.not_eq_true] at hrun
      rw [requestFor_of_stopped hrun] at h
      rw [← Except.error.inj h]
      exact .stopped hrun
  · rintro (hrun | ⟨hrun, htag', hname⟩ | ⟨⟨hrun, tag', htag', hspells⟩, hcause⟩)
    · exact requestFor_of_stopped hrun content
    · rw [htag, Value.text.injEq] at htag'
      subst htag'
      simp only [requestFor, hrun, ↓reduceIte, htag, ContentEncoding.ofValue_of_not_spells hname]
      rfl
    · simp only [requestFor, hrun, ↓reduceIte, htag', ContentEncoding.ofValue_of_spells hspells,
        ContentEncoding.encode_eq_error_iff.mpr hcause]

/-- An order that is kept to for two steps ends where the first has led, if nothing moves there. -/
theorem settle_of_advance {w v : World} {order : List Actor} (bound : Nat)
    (h : w.advance order = some v) (hv : v.advance order = none) :
    w.settle order (bound + 2) = v := by
  simp only [settle, h, hv]

/-- In any world a call that is turned away ends at once: the state and the other call are left, and
no timer is armed. -/
theorem step_of_turnsAway {w : World} {c : Caller} {q : Ask}
    (htag : w.state.client.encoding = .text tag) (hk : w.call c = q.call)
    (h : w.state.TurnsAway q.content f) :
    ∃ w', w.step (.caller c) = some w' ∧ w'.state = w.state ∧
      w'.call c = ⟨.done (.error f), .off, none⟩ ∧ w'.call c.other = w.call c.other := by
  have hstep : w.step (.caller c) = some (w.enter c q.content q.deadline) := by
    simp only [step, stepCaller, hk, Ask.call, Call.entering]
  refine ⟨_, hstep, ?_, ?_, call_other_of_step hstep⟩
  · simp only [enter, (requestFor_eq_error_iff htag).mpr h, state_goto]
  · simp only [enter, (requestFor_eq_error_iff htag).mpr h, call_goto, hk, Ask.call, Call.entering]

end World

/-! ### Requests that are turned away and requests that are written -/

namespace State

/-- A request of a caller is turned away and the session is left as it is, or it is not to be turned
away and is written once. -/
inductive Disposes (s : State) (c : Caller) (q : Ask) (s' : State) : Answer → Prop
  | turnedAway {f : Fault} (h : s.TurnsAway q.content f) (left : s' = s) :
      Disposes s c q s' (.error f)
  | written {a : Answer} {e : ContentEncoding} {t : List Happening} {frame : Bytes}
      (h : ∀ f, ¬ s.TurnsAway q.content f) (trace : s'.trace = s.trace ++ t)
      (once : t.filterMap Happening.written? = [(c, frame)])
      (conveys : Frame.Conveys e q.content frame) : Disposes s c q s' a

variable {s s' : State} {c : Caller} {q : Ask} {a : Answer} {tag : Text} {f : Fault}

theorem Answers.disposes (hs : s.Quiet) (htag : s.client.encoding = .text tag)
    (h : s.Answers c q a s') : s.Disposes c q s' a := by
  rcases h.cases hs with ⟨f, rfl, hf, hsame⟩ | ⟨child, r, t, u, hadmits, hserved⟩
  · exact .turnedAway ((World.requestFor_eq_error_iff htag).mp hf) hsame
  · obtain ⟨frame, hframe, hconveys⟩ := World.conveys_of_requestFor hadmits.request
    refine .written (fun f hf => ?_) hserved.trace (hserved.written hframe) hconveys
    have hnone := (World.requestFor_eq_error_iff htag).mpr hf
    rw [hadmits.request] at hnone
    cases hnone

/-- A request that is turned away leaves the state in every interleaving, and arms no timer. -/
theorem TurnsAway.of_moves (hs : s.Quiet) (htag : s.client.encoding = .text tag)
    (h : s.TurnsAway q.content f) {w : World} (hw : World.Moves (World.single s c q.call) w) :
    w.state = s ∧ (w.call c).timer = .off ∧
      ∀ a, (w.call c).answer? = some a → a = .error f := by
  have hf := (World.requestFor_eq_error_iff htag).mpr h
  have hnone {child : Child} {r : Request} (hadmits : s.Admits q child r) : False := by
    have hr := hadmits.request
    rw [hf] at hr
    cases hr
  cases (World.progress_of_moves hs hw).1 with
  | inside admits _ => exact (hnone admits).elim
  | served admits _ _ _ => exact (hnone admits).elim
  | waiting same waits =>
    refine ⟨same, waits.timer, fun a ha => ?_⟩
    obtain ⟨-, g, rfl, hg⟩ := waits.atRest (Call.phase_of_answer? ha)
    rw [hf] at hg
    rw [Except.error.inj hg]

/-- The session answers that there is no request for a content, and is left as it is. -/
theorem perform_of_requestFor (hf : World.requestFor s q.content = .error f) :
    s.perform (.parse q.content q.deadline) = (.answered (.error f), s) := by
  have halone : World.alone s q.content q.deadline =
      ⟨s, ⟨.done (.error f), .off, none⟩, .idle⟩ := by
    have hbudget (w : World) : w.budget = w.itemsLeft + 38 + 2 := rfl
    simp only [World.alone, hbudget]
    refine World.settle_of_advance _ ?_ rfl
    have hstep : (⟨s, .entering q.content q.deadline, .idle⟩ : World).step (.caller .first) =
        some ⟨s, ⟨.done (.error f), .off, none⟩, .idle⟩ := by
      simp only [World.step, World.stepCaller, World.call, Call.entering, World.enter, hf,
        World.goto, World.setCall]
    simp only [World.advance, List.findSome?_cons, hstep]
  have hanswer : (World.alone s q.content q.deadline).first.answer? = some (.error f) := by
    rw [halone]
    rfl
  rw [perform_of_answer hanswer, halone]

/-- The session answers a request that is turned away and is left as it is. -/
theorem TurnsAway.perform (htag : s.client.encoding = .text tag) (h : s.TurnsAway q.content f) :
    s.perform (.parse q.content q.deadline) = (.answered (.error f), s) :=
  perform_of_requestFor ((World.requestFor_eq_error_iff htag).mpr h)

end State

/-- A session whose tag is a text is asked. It turns the request away exactly if it does not run, or
else if the tag spells the name of no encoding, or else if the content holds a lone half. If it does
so, the session is left as it is and no timer is armed, in any interleaving; in any other world a
call that is turned away ends at once and leaves the rest of the world. If it does not, the request
is written once. Of two requests at the same time each is one or the other, the second in the state
that the first has left. -/
theorem rejected_untouched {client : Client} {launches : List Launch} {episodes : List Episode}
    {s : State} (h : Session client launches episodes s) {tag : Text}
    (htag : s.client.encoding = .text tag) (q : Ask) :
    ((s.TurnsAway q.content .notRunning ↔ s.running = false) ∧
      (s.TurnsAway q.content (.tag (.text tag) tag) ↔
        s.running = true ∧ ∀ e : ContentEncoding, ¬ tag.Spells e.name) ∧
      ((∃ cause, s.TurnsAway q.content (.unencodable cause)) ↔
        s.running = true ∧ (∃ e : ContentEncoding, tag.Spells e.name) ∧ ¬ q.content.Scalar)) ∧
    (∀ f, s.TurnsAway q.content f →
      s.perform (.parse q.content q.deadline) = (.answered (.error f), s) ∧
      ∀ c w, World.Moves (World.single s c q.call) w →
        w.state = s ∧ (w.call c).timer = .off ∧
          ∀ a, (w.call c).answer? = some a → a = .error f) ∧
    (∀ (w : World) c f, w.state.client.encoding = .text tag → w.call c = q.call →
      w.state.TurnsAway q.content f →
        ∃ w', w.step (.caller c) = some w' ∧ w'.state = w.state ∧
          w'.call c = ⟨.done (.error f), .off, none⟩ ∧ w'.call c.other = w.call c.other) ∧
    (∀ c a s', s.Answers c q a s' → s.Disposes c q s' a) ∧
    ∀ (p : Caller → Ask) (w : World) (a : Caller → Answer), World.Moves (World.asking s p) w →
      (∀ d, (w.call d).answer? = some (a d)) →
        ∃ c mid, s.Disposes c (p c) mid (a c) ∧
          mid.Disposes c.other (p c.other) w.state (a c.other) := by
  have hs := h.orderly.quiet
  refine ⟨⟨State.turnsAway_notRunning_iff, State.turnsAway_tag_iff htag,
    State.exists_turnsAway_unencodable_iff htag⟩, fun f hf => ?_, fun w c f htag' hk hf => ?_,
    fun c a s' ha => ha.disposes hs htag, fun p w a hmoves ha => ?_⟩
  · exact ⟨hf.perform htag, fun c w hw => hf.of_moves hs htag hw⟩
  · exact World.step_of_turnsAway htag' hk hf
  · obtain ⟨c, mid, hfirst, hsecond⟩ := answers_of_moves hs hmoves ha
    exact ⟨c, mid, hfirst.disposes hs htag,
      hsecond.disposes (hfirst.quiet hs) (by rw [hfirst.client hs, htag])⟩

/-- A session that runs and whose tag is the name of no encoding. -/
theorem latin_untouched :
    let s := ((State.started (.following [] [.bytes [123, 125, 10]])).perform
      (.setEncoding (.text "latin1"))).2
    (∃ launches episodes, Session .standard launches episodes s) ∧
      s.client.encoding = .text "latin1" ∧
      s.perform (.parse "é" (some (.int 1))) =
        (.answered (.error (.tag (.text "latin1") "latin1")), s) := by
  intro s
  have h : Session .standard _ _ s :=
    (session_started (.following [] [.bytes [123, 125, 10]])).perform
      (.setEncoding (.text "latin1")) nofun
  have hname : ∀ e : ContentEncoding, ¬ Text.Spells "latin1" e.name := by
    intro e
    cases e <;> decide
  obtain ⟨⟨-, htag, -⟩, hleft, -⟩ := rejected_untouched h rfl ⟨"é", some (.int 1)⟩
  exact ⟨⟨_, _, h⟩, rfl, (hleft _ (htag.mpr ⟨rfl, hname⟩)).1⟩

end ParserClient
