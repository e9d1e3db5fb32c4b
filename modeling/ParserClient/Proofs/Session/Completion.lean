import ParserClient.Proofs.Session.Deadline

/-!
# Requests that come to an end

A call takes a bounded number of steps: each step of its caller or of its timer brings it further or
takes an item off the output of the child. When neither of the two can move, the call is over, or it
stands at a closed gate. The gates on the way of a request are known beforehand: that of the next
write, that of the next flush, and those in front of the lines that the call is going to read. A
timer that has done its work has opened the gates of polling and killing. A request is therefore
answered if the gates on its way are open or are opened by its timer, in whatever order the caller
and the timer move.

## Main definitions

* `Inlet.gatesToNext`, `Inlet.gatesToMessage`, `Child.gates` — the gates on the way of a request.
* `World.gatesAhead`, `World.stepsLeft` — the gates and the steps that are ahead of a call.
* `World.Onward` — what a step of a call brings about.
* `Gate.Opens` — a gate is open, or the timer of a request opens it.

## Main results

* `World.onward_of_step` — every step brings a call onward.
* `World.advance_settle` — a call that keeps to an order comes to where it cannot move.
* `State.Quiet.answered_of_atRest`, `State.Quiet.perform_parse` — a request whose gates open is
  answered.
-/

namespace ParserClient

/-! ### The gates on the way of a request -/

namespace Inlet

/-- The gates in front of the next item. -/
def gatesToNext : List Delivery → List Gate
  | .gate g :: rest => g :: gatesToNext rest
  | _ => []

/-- The gates in front of the next line that is not blank, or of what comes in its place. -/
def gatesToMessage : List Delivery → List Gate
  | .gate g :: rest => g :: gatesToMessage rest
  | .bytes b :: rest => if !b.isEmpty && Frame.isBlank b then gatesToMessage rest else []
  | _ => []

/-- A reading call that waits stands at a gate in front of the next item. -/
theorem exists_gate_of_pull {isOpen : Gate → Bool} {items : List Delivery}
    (h : pull isOpen items = none) : ∃ g ∈ gatesToNext items, isOpen g = false := by
  induction items with
  | nil => cases h
  | cons item rest ih =>
    cases item with
    | bytes b => cases h
    | mishap m => cases h
    | gate g =>
      simp only [pull] at h
      by_cases hg : isOpen g = true
      · rw [if_pos hg] at h
        obtain ⟨g', hmem, hclosed⟩ := ih h
        exact ⟨g', List.mem_cons_of_mem g hmem, hclosed⟩
      · exact ⟨g, List.mem_cons_self, by simpa using hg⟩

theorem gatesToNext_subset (items : List Delivery) : gatesToNext items ⊆ gatesToMessage items := by
  induction items with
  | nil => exact List.nil_subset _
  | cons item rest ih =>
    cases item with
    | bytes b => exact List.nil_subset _
    | mishap m => exact List.nil_subset _
    | gate g => exact List.cons_subset_cons g ih

/-- Behind a blank line there are no gates but those in front of the message. -/
theorem gatesToMessage_subset_of_next {items left : List Delivery} {line : Bytes}
    (h : next items = (.ok line, left)) (hblank : Frame.isBlank line = true) :
    gatesToMessage left ⊆ gatesToMessage items := by
  induction items with
  | nil => cases h
  | cons item rest ih =>
    cases item with
    | bytes b =>
      obtain ⟨hline, rfl⟩ := Prod.mk.inj h
      obtain ⟨rfl, hb⟩ := lineOf_eq_ok hline
      simp [gatesToMessage, hb, hblank]
    | mishap m => cases h
    | gate g => exact List.subset_cons_of_subset g (ih h)

/-- A reading call that gives a line takes an item. -/
theorem length_lt_of_next {items left : List Delivery} {line : Bytes}
    (h : next items = (.ok line, left)) : left.length < items.length := by
  induction items with
  | nil => cases h
  | cons item rest ih =>
    cases item with
    | bytes b =>
      obtain ⟨-, rfl⟩ := Prod.mk.inj h
      exact Nat.lt_succ_self _
    | mishap m => cases h
    | gate g => exact Nat.lt_succ_of_lt (ih h)

end Inlet

namespace Child

/-- The gates from inside the flush of a frame. -/
def gatesFlushing (ch : Child) (frame : Bytes) : List Gate :=
  ch.outlet.nextFlush.gate.toList ++
    match ch.outlet.nextFlush.mishap with
    | some _ => Inlet.gatesToNext (ch.afterFlush frame false).inlet.items
    | none => Inlet.gatesToMessage (ch.afterFlush frame true).inlet.items

/-- The gates from inside the write of a frame. -/
def gatesWriting (ch : Child) (frame : Bytes) : List Gate :=
  ch.outlet.nextWrite.gate.toList ++
    match ch.outlet.nextWrite.mishap with
    | some _ => Inlet.gatesToNext ch.inlet.items
    | none => ch.afterWrite.gatesFlushing frame

/-- The gates on the way of a request. -/
def gates (ch : Child) (request : Request) : List Gate :=
  match Frame.ofRequest request with
  | .error _ => []
  | .ok frame => ch.gatesWriting frame

theorem gates_of_frame {request : Request} {frame : Bytes}
    (h : Frame.ofRequest request = .ok frame) (ch : Child) :
    ch.gates request = ch.gatesWriting frame := by
  unfold gates
  rw [h]

theorem items_afterFlush_le (ch : Child) (frame : Bytes) (reached : Bool) :
    (ch.afterFlush frame reached).inlet.items.length ≤ ch.inlet.items.length + 1 := by
  unfold afterFlush
  by_cases h : (ch.echoes && reached) = true
  · simp [h]
  · simp [h]

end Child

/-! ### What is ahead of a call -/

/-- The gates ahead of a phase. -/
def Phase.gates (s : State) (ch : Child) : Phase → List Gate
  | .entering content _ =>
    match World.requestFor s content with
    | .ok r => ch.gates r
    | .error _ => []
  | .queued r | .sending r => ch.gates r
  | .writing frame => ch.gatesWriting frame
  | .flushing frame => ch.gatesFlushing frame
  | .reading => Inlet.gatesToMessage ch.inlet.items
  | .salvaging _ => Inlet.gatesToNext ch.inlet.items
  | _ => []

/-- The gates ahead of a phase hang on the pipe ends of the child only. -/
theorem Phase.gates_congr {s s' : State} {ch ch' : Child} (hclient : s'.client = s.client)
    (hrunning : s'.running = s.running) (houtlet : ch'.outlet = ch.outlet)
    (hinlet : ch'.inlet = ch.inlet) (hechoes : ch'.echoes = ch.echoes) (p : Phase) :
    p.gates s' ch' = p.gates s ch := by
  have hwriting : ch'.gatesWriting = ch.gatesWriting := by
    cases ch
    cases ch'
    subst houtlet hinlet hechoes
    rfl
  have hflushing : ch'.gatesFlushing = ch.gatesFlushing := by
    cases ch
    cases ch'
    subst houtlet hinlet hechoes
    rfl
  have hgates (r : Request) : ch'.gates r = ch.gates r := by
    unfold Child.gates
    cases Frame.ofRequest r with
    | error f => rfl
    | ok frame => exact congrFun hwriting frame
  cases p with
  | entering content deadline =>
    simp only [Phase.gates, World.requestFor_congr hclient hrunning, hgates]
  | queued | sending => rw [Phase.gates, hgates, Phase.gates]
  | writing frame => rw [Phase.gates, hwriting, Phase.gates]
  | flushing frame => rw [Phase.gates, hflushing, Phase.gates]
  | reading | salvaging => rw [Phase.gates, hinlet, Phase.gates]
  | _ => rfl

/-- A bound on the steps that a caller takes from a phase on, with a number of items on the output
of the child; three more are kept for the timer until the mutex is taken. -/
def Phase.stepsLeft (items : Nat) : Phase → Nat
  | .idle | .done _ => 0
  | .entering _ _ => items + 16
  | .queued _ => items + 15
  | .sending _ => items + 11
  | .writing _ => items + 10
  | .flushing _ => items + 9
  | .reading | .salvaging _ => items + 7
  | .concluding _ => 3
  | .cancelling _ => 2
  | .leaving _ => 1

/-- The number of steps that a timer may still take. -/
def Timer.stepsLeft : Timer → Nat
  | .pending => 3
  | .polled => 2
  | .noted => 1
  | _ => 0

/-- The timer is cancelled only when the exchange has been looked at. -/
def Call.Watched (k : Call) : Prop := k.timer = .cancelled → k.phase.isJudged = true

namespace World

/-- The gates ahead of the call of a caller. -/
def gatesAhead (w : World) (c : Caller) : List Gate :=
  match w.state.child with
  | none => []
  | some child => (w.call c).phase.gates w.state child

/-- A bound on the steps ahead of the call of a caller and of its timer. -/
def stepsLeft (w : World) (c : Caller) : Nat :=
  (w.call c).phase.stepsLeft w.itemsLeft + (w.call c).timer.stepsLeft

/-- From one world to another the call of a caller comes onward: no gate comes up that was not ahead
of it, fewer steps are left, and the timer is watched as long as it was before. -/
structure Onward (w w' : World) (c : Caller) : Prop where
  gates : w'.gatesAhead c ⊆ w.gatesAhead c
  fewer : w'.stepsLeft c < w.stepsLeft c
  watched : (w.call c).Watched → (w'.call c).Watched

section Onward

variable {w w' : World} {c : Caller}

theorem gatesAhead_eq_nil {p : Phase} (hcall : (w.call c).phase = p)
    (hp : ∀ s ch, p.gates s ch = []) : w.gatesAhead c = [] := by
  unfold gatesAhead
  split
  · rfl
  · rw [hcall, hp]

/-- A call that is past its talk with the child comes onward with every step. -/
theorem onward_of_past {p : Phase} (p' : Phase) (hp : (w.call c).phase = p)
    (hp' : (w'.call c).phase = p')
    (hgates : ∀ s ch, p'.gates s ch = [])
    (hsteps : ∀ m n, p'.stepsLeft m < p.stepsLeft n)
    (htimer : (w'.call c).timer.stepsLeft ≤ (w.call c).timer.stepsLeft)
    (hwatched : (w.call c).Watched → (w'.call c).Watched) : Onward w w' c where
  gates := by
    rw [gatesAhead_eq_nil hp' hgates]
    exact List.nil_subset _
  fewer := by
    simp only [stepsLeft, hp, hp']
    exact Nat.add_lt_add_of_lt_of_le (hsteps ..) htimer
  watched := hwatched

theorem onward_enter {content : Text} {deadline : Option Seconds}
    (hp : (w.call c).phase = .entering content deadline) :
    Onward w (w.enter c content deadline) c := by
  unfold enter
  cases hr : requestFor w.state content with
  | error f =>
    refine onward_of_past (.done (.error f)) hp (by simp) (fun _ _ => rfl) ?_ (by simp)
      (by simp [Call.Watched, Phase.isJudged])
    intro m n
    simp only [Phase.stepsLeft]
    omega
  | ok r =>
    refine ⟨?_, ?_, ?_⟩
    · cases hchild : w.state.child <;> simp [gatesAhead, hchild, hp, hr, Phase.gates]
    · simp [stepsLeft, hp, Phase.stepsLeft, itemsLeft]
    · simp [Call.Watched, hp, Phase.isJudged]

theorem onward_acquire {r : Request} (hp : (w.call c).phase = .queued r)
    (h : w.acquire c r = some w') : Onward w w' c := by
  unfold acquire at h
  cases hholder : w.state.holder with
  | some d => simp [hholder] at h
  | none =>
    by_cases hrun : w.state.running = true
    · simp only [hholder, hrun, ↓reduceIte, Option.some.injEq] at h
      subst h
      refine ⟨?_, ?_, ?_⟩
      · cases hchild : w.state.child <;> simp [gatesAhead, record, State.record, hp, hchild,
          Phase.gates]
      · simp only [stepsLeft, call_setCall, hp, Phase.stepsLeft, itemsLeft, state_setCall,
          state_record, State.record]
        split <;> simp only [Timer.stepsLeft] <;> omega
      · simp only [Call.Watched, call_setCall]
        split <;> simp
    · simp only [hholder, hrun, Bool.false_eq_true, ↓reduceIte, Option.some.injEq] at h
      subst h
      refine onward_of_past (.done (.error .notRunning)) hp (by simp) (fun _ _ => rfl) ?_
        (by simp) (by simp [Call.Watched, Phase.isJudged])
      intro m n
      simp only [Phase.stepsLeft]
      omega

/-- A call that talks to the child comes onward if its gates are among those ahead of it and the
items on the output of the child make up for its phase. -/
theorem onward_of_talk {child : Child} {p : Phase} (next : Child) (p' : Phase)
    (hchild : w.state.child = some child) (hp : (w.call c).phase = p)
    (hnext : w'.state.child = some next)
    (hcall : w'.call c = { w.call c with phase := p' })
    (hgates : p'.gates w'.state next ⊆ p.gates w.state child)
    (hsteps : p'.stepsLeft next.inlet.items.length < p.stepsLeft child.inlet.items.length)
    (hjudged : p.isJudged = false) : Onward w w' c where
  gates := by simpa only [gatesAhead, hchild, hnext, hp, hcall] using hgates
  fewer := by
    simp only [stepsLeft, itemsLeft, hchild, hnext, hp, hcall, Option.map_some, Option.getD_some]
    omega
  watched h ht := by
    rw [hcall] at ht
    have hj := h ht
    rw [hp, hjudged] at hj
    cases hj

theorem onward_beginWrite {r : Request} (hp : (w.call c).phase = .sending r) :
    Onward w (w.beginWrite c r) c := by
  unfold beginWrite
  cases hframe : Frame.ofRequest r with
  | error f =>
    refine onward_of_past (.concluding (.error (.frame f))) hp (by simp) (fun _ _ => rfl) ?_
      (by simp) (by simp [Call.Watched, hp, Phase.isJudged])
    intro m n
    simp only [Phase.stepsLeft]
    omega
  | ok frame =>
    refine ⟨?_, ?_, ?_⟩
    · cases hchild : w.state.child <;> simp [gatesAhead, hchild, hp, Phase.gates,
        State.recordCall, State.record, Child.gates_of_frame hframe]
    · simp [stepsLeft, hp, Phase.stepsLeft, itemsLeft, State.recordCall, State.record]
    · simp [Call.Watched, hp, Phase.isJudged]

theorem onward_endWrite {frame : Bytes} (hp : (w.call c).phase = .writing frame)
    (h : w.endWrite c frame = some w') : Onward w w' c := by
  obtain ⟨child, hchild, ⟨m, hm, rfl⟩ | ⟨hm, rfl⟩⟩ := endWrite_eq_some h
  · refine onward_of_talk child.afterWrite (.salvaging m) hchild hp ?_ ?_ ?_ ?_ rfl
    · simp [beginSalvage, State.recordCall, State.record]
    · simp [beginSalvage]
    · simp only [Phase.gates, Child.gatesWriting, hm]
      exact List.subset_append_right ..
    · simp [Phase.stepsLeft, Child.afterWrite]
  · refine onward_of_talk child.afterWrite (.flushing frame) hchild hp ?_ ?_ ?_ ?_ rfl
    · simp [State.recordCall, State.record]
    · simp
    · simp only [Phase.gates, Child.gatesWriting, hm]
      exact List.subset_append_right ..
    · simp [Phase.stepsLeft, Child.afterWrite]

theorem onward_endFlush {frame : Bytes} (hp : (w.call c).phase = .flushing frame)
    (h : w.endFlush c frame = some w') : Onward w w' c := by
  obtain ⟨child, hchild, ⟨m, hm, rfl⟩ | ⟨hm, rfl⟩⟩ := endFlush_eq_some h
  · refine onward_of_talk (child.afterFlush frame false) (.salvaging m) hchild hp
      ?_ ?_ ?_ ?_ rfl
    · simp [beginSalvage, State.recordCall, State.record]
    · simp [beginSalvage]
    · simp only [Phase.gates, Child.gatesFlushing, hm]
      exact List.subset_append_right ..
    · have hitems := child.items_afterFlush_le frame false
      simp only [Phase.stepsLeft]
      omega
  · refine onward_of_talk (child.afterFlush frame true) .reading hchild hp ?_ ?_ ?_ ?_ rfl
    · simp [State.recordCall, State.record]
    · simp
    · simp only [Phase.gates, Child.gatesFlushing, hm]
      exact List.subset_append_right ..
    · have hitems := child.items_afterFlush_le frame true
      simp only [Phase.stepsLeft]
      omega

/-- A call whose exchange is over comes onward: no gate is ahead of it. -/
theorem onward_conclude {child : Child} {items : List Delivery} {p : Phase} {exchange : Exchange}
    (hchild : w.state.child = some child) (hp : (w.call c).phase = p) (hjudged : p.isJudged = false)
    (hsteps : 3 < p.stepsLeft child.inlet.items.length) :
    Onward w ((w.setChild (child.withItems items)).goto c (.concluding exchange)) c :=
  onward_of_talk (child.withItems items) (.concluding exchange) hchild hp (by simp)
    (by simp) (List.nil_subset _) hsteps hjudged

theorem onward_endRead (hp : (w.call c).phase = .reading) (h : w.endRead c = some w') :
    Onward w w' c := by
  obtain ⟨child, result, items, hchild, hpull, hw⟩ := endRead_eq_some h
  have hnext := Inlet.next_of_pull hpull
  rcases hw with ⟨f, rfl, rfl⟩ | ⟨line, rfl, ⟨hblank, rfl⟩ | ⟨hblank, rfl⟩⟩
  · exact onward_conclude hchild hp rfl (by simp only [Phase.stepsLeft]; omega)
  · refine onward_of_talk (child.withItems items) .reading hchild hp ?_ ?_ ?_ ?_ rfl
    · simp [State.recordCall, State.record]
    · simp [← hp]
    · exact Inlet.gatesToMessage_subset_of_next hnext hblank
    · have hfewer := Inlet.length_lt_of_next hnext
      simp only [Phase.stepsLeft, Child.withItems]
      omega
  · exact onward_conclude hchild hp rfl (by simp only [Phase.stepsLeft]; omega)

theorem onward_endSalvage {m : Mishap} (hp : (w.call c).phase = .salvaging m)
    (h : w.endSalvage c m = some w') : Onward w w' c := by
  obtain ⟨child, result, items, hchild, -, ⟨f, -, rfl⟩ | ⟨line, -, rfl⟩⟩ := endSalvage_eq_some h
  · exact onward_conclude hchild hp rfl (by simp only [Phase.stepsLeft]; omega)
  · exact onward_conclude hchild hp rfl (by simp only [Phase.stepsLeft]; omega)

theorem onward_stepCaller (h : w.stepCaller c = some w') : Onward w w' c := by
  unfold stepCaller at h
  cases hp : (w.call c).phase with
  | idle | done => simp [hp] at h
  | entering content deadline =>
    simp only [hp, Option.some.injEq] at h
    exact h ▸ onward_enter hp
  | queued r => exact onward_acquire hp (by simpa only [hp] using h)
  | sending r =>
    simp only [hp, Option.some.injEq] at h
    exact h ▸ onward_beginWrite hp
  | writing frame => exact onward_endWrite hp (by simpa only [hp] using h)
  | flushing frame => exact onward_endFlush hp (by simpa only [hp] using h)
  | reading => exact onward_endRead hp (by simpa only [hp] using h)
  | salvaging m => exact onward_endSalvage hp (by simpa only [hp] using h)
  | concluding e =>
    simp only [hp, Option.some.injEq] at h
    subst h
    exact onward_of_past (.cancelling (judged w.state.killed (w.call c).deadline e)) hp
      (by simp) (fun _ _ => rfl) (fun _ _ => Nat.lt_succ_self _) (by simp)
      (by simp [Call.Watched, Phase.isJudged])
  | cancelling e =>
    simp only [hp, Option.some.injEq] at h
    subst h
    refine onward_of_past (.leaving e) hp (by simp [cancel]) (fun _ _ => rfl)
      (fun _ _ => Nat.lt_succ_self _) ?_ (by simp [cancel, Call.Watched, Phase.isJudged])
    unfold cancel
    split <;> simp [Timer.stepsLeft]
  | leaving e =>
    obtain ⟨-, rfl⟩ := leave_eq_some (by simpa only [hp] using h)
    exact onward_of_past (.done e.answer) hp (by simp) (fun _ _ => rfl)
      (fun _ _ => Nat.lt_succ_self _) (by simp) (by simp [Call.Watched, Phase.isJudged])

/-- A timer leaves what is ahead of its call. -/
theorem onward_of_timer {child : Child} {t : Timer} (next : Child)
    (hchild : w.state.child = some child) (hnext : w'.state.child = some next)
    (hcall : w'.call c = { w.call c with timer := t })
    (hclient : w'.state.client = w.state.client) (hrunning : w'.state.running = w.state.running)
    (houtlet : next.outlet = child.outlet) (hinlet : next.inlet = child.inlet)
    (hechoes : next.echoes = child.echoes)
    (hsteps : t.stepsLeft < (w.call c).timer.stepsLeft) (ht : t ≠ .cancelled) :
    Onward w w' c where
  gates := by
    simp only [gatesAhead, hchild, hnext, hcall,
      Phase.gates_congr hclient hrunning houtlet hinlet hechoes]
    exact List.Subset.refl _
  fewer := by
    simp only [stepsLeft, itemsLeft, hchild, hnext, hcall, Option.map_some, Option.getD_some,
      hinlet]
    omega
  watched _ hcancelled := by
    rw [hcall] at hcancelled
    exact absurd hcancelled ht

theorem onward_stepTimer (h : w.stepTimer c = some w') : Onward w w' c := by
  unfold stepTimer at h
  cases ht : (w.call c).timer with
  | off | finished | cancelled => simp [ht] at h
  | pending =>
    simp only [ht, Option.some.injEq] at h
    subst h
    unfold goOff
    cases hchild : w.state.child with
    | none =>
      refine ⟨?_, ?_, by simp [Call.Watched]⟩
      · simp [gatesAhead, hchild]
      · simp [stepsLeft, itemsLeft, ht, Timer.stepsLeft]
    | some child =>
      refine onward_of_timer { child with polled := true } hchild (by simp [State.record])
        (call_setTimer ..) (by simp [State.record]) (by simp [State.record]) rfl rfl rfl ?_ ?_
      · rw [ht]
        split <;> simp [Timer.stepsLeft]
      · split <;> simp
  | polled =>
    obtain ⟨child, seconds, hchild, -, rfl⟩ := note_eq_some (by simpa only [ht] using h)
    exact onward_of_timer child hchild (by simp [State.record, hchild]) (call_setTimer ..)
      (by simp [State.record]) (by simp [State.record]) rfl rfl rfl
      (by simp [ht, Timer.stepsLeft]) (by simp)
  | noted =>
    obtain ⟨child, hchild, rfl⟩ := strike_eq_some (by simpa only [ht] using h)
    exact onward_of_timer { child with killed := true } hchild (by simp [State.record])
      (call_setTimer ..) (by simp [State.record]) (by simp [State.record]) rfl rfl rfl
      (by simp [ht, Timer.stepsLeft]) (by simp)

/-- Every step brings the call onward that it belongs to. -/
theorem onward_of_step {a : Actor} (h : w.step a = some w') : Onward w w' a.owner := by
  cases a with
  | caller c => exact onward_stepCaller h
  | timer c => exact onward_stepTimer h

/-! ### A call that cannot move -/

theorem stepsLeft_of_advance {order : List Actor} (horder : ∀ a ∈ order, a.owner = c)
    (h : w.advance order = some w') : w'.stepsLeft c < w.stepsLeft c := by
  obtain ⟨a, ha, hstep⟩ := List.exists_of_findSome?_eq_some h
  exact horder a ha ▸ (onward_of_step hstep).fewer

/-- A call that keeps to an order long enough comes to where it cannot move. -/
theorem advance_settle {order : List Actor} {bound : Nat} (horder : ∀ a ∈ order, a.owner = c)
    (h : w.stepsLeft c ≤ bound) : (w.settle order bound).advance order = none := by
  induction bound generalizing w with
  | zero =>
    rw [settle]
    cases hv : w.advance order with
    | none => rfl
    | some v =>
      have hfewer := stepsLeft_of_advance horder hv
      omega
  | succ bound ih =>
    rw [settle]
    cases hv : w.advance order with
    | none => exact hv
    | some v =>
      have hfewer := stepsLeft_of_advance horder hv
      exact ih (by omega)

end Onward

section Held

variable {s : State} {c : Caller} {q : Ask} {d : Dialogue} {here : Child} {u : List Happening}
  {deadline : Option Seconds} {w : World}

/-- A timer that cannot move inside a call has done its work or has none. -/
theorem timer_of_inside (hi : Inside s c deadline d here u w.state (w.call c))
    (h : w.step (.timer c) = none) :
    (w.call c).timer = .off ∨ (w.call c).timer = .cancelled ∨ (w.call c).timer = .finished := by
  simp only [step, stepTimer] at h
  have hdue : (w.call c).timer ≠ .off → ∃ seconds, (w.call c).deadline = some seconds := by
    intro ht
    rw [hi.due]
    exact Option.ne_none_iff_exists'.mp fun hnone => ht (hi.armed.mpr hnone)
  cases ht : (w.call c).timer with
  | off => exact .inl rfl
  | cancelled => exact .inr (.inl rfl)
  | finished => exact .inr (.inr rfl)
  | pending => simp [ht] at h
  | polled =>
    obtain ⟨seconds, hseconds⟩ := hdue (by simp [ht])
    simp [ht, note, hi.child, hseconds] at h
  | noted => simp [ht, strike, hi.child] at h

/-- An attempt that waits stands at its gate. -/
theorem gate_of_mayEnd {child : Child} {a : Attempt} (h : ¬ child.mayEnd a = true) :
    ∃ g ∈ a.gate.toList, child.isOpen g = false := by
  unfold Child.mayEnd at h
  cases hgate : a.gate with
  | none => simp [hgate] at h
  | some g => exact ⟨g, by simp, by simpa [hgate] using h⟩

/-- A caller that cannot move inside a call, while its timer cannot either, stands at a gate. -/
theorem held_of_inside (hi : Inside s c deadline d here u w.state (w.call c))
    (hcaller : w.step (.caller c) = none) (htimer : w.step (.timer c) = none) :
    ∃ g ∈ w.gatesAhead c, (here.marked (w.call c).timer).isOpen g = false := by
  have hchild := hi.child
  have hahead : w.gatesAhead c =
      (w.call c).phase.gates w.state (here.marked (w.call c).timer) := by
    unfold gatesAhead
    rw [hchild]
  rw [hahead]
  generalize here.marked (w.call c).timer = child at hchild
  simp only [step, stepCaller] at hcaller
  cases hp : (w.call c).phase with
  | idle | entering | queued | done =>
    have hfollows := hi.follows
    rw [hp] at hfollows
    cases hfollows
  | sending | concluding | cancelling => simp [hp] at hcaller
  | writing frame =>
    simp only [hp, endWrite, hchild] at hcaller
    by_cases hend : child.mayEnd child.outlet.nextWrite = true
    · rw [if_pos hend] at hcaller
      cases hm : child.outlet.nextWrite.mishap <;> simp [hm] at hcaller
    · obtain ⟨g, hg, hclosed⟩ := gate_of_mayEnd hend
      exact ⟨g, List.mem_append_left _ hg, hclosed⟩
  | flushing frame =>
    simp only [hp, endFlush, hchild] at hcaller
    by_cases hend : child.mayEnd child.outlet.nextFlush = true
    · rw [if_pos hend] at hcaller
      cases hm : child.outlet.nextFlush.mishap <;> simp [hm] at hcaller
    · obtain ⟨g, hg, hclosed⟩ := gate_of_mayEnd hend
      exact ⟨g, List.mem_append_left _ hg, hclosed⟩
  | reading =>
    simp only [hp, endRead, hchild] at hcaller
    cases hpull : Inlet.pull child.isOpen child.inlet.items with
    | none =>
      obtain ⟨g, hg, hclosed⟩ := Inlet.exists_gate_of_pull hpull
      exact ⟨g, Inlet.gatesToNext_subset _ hg, hclosed⟩
    | some pulled =>
      obtain ⟨f | line, items⟩ := pulled
      · simp [hpull] at hcaller
      · by_cases hblank : Frame.isBlank line = true <;> simp [hpull, hblank] at hcaller
  | salvaging m =>
    simp only [hp, endSalvage, hchild] at hcaller
    cases hpull : Inlet.pull child.isOpen child.inlet.items with
    | none => exact Inlet.exists_gate_of_pull hpull
    | some pulled => obtain ⟨f | line, items⟩ := pulled <;> simp [hpull] at hcaller
  | leaving exchange =>
    have hbusy : (w.call c).timer.isBusy = false := by
      rcases timer_of_inside hi htimer with ht | ht | ht <;> rw [ht] <;> rfl
    simp [hp, leave, hbusy] at hcaller

/-- A call in front of the mutex can move, or it is over. -/
theorem answered_of_waits (hs : s.Quiet) (hsame : w.state = s)
    (hwaits : (w.call c).Waits s q) (hcaller : w.step (.caller c) = none) :
    ∃ a, (w.call c).answer? = some a := by
  subst hsame
  simp only [step, stepCaller] at hcaller
  generalize hk : w.call c = k at hwaits
  cases hwaits with
  | entering => simp [hk, Ask.call, Call.entering] at hcaller
  | queued hr =>
    simp [hk, acquire_of_free hs.free (running_of_requestFor hr)] at hcaller
  | rejected hr => exact ⟨_, rfl⟩

end Held

end World

/-! ### Gates that open -/

/-- A phase on the way through a dialogue leaves the child as it is, but for its pipe ends. -/
theorem Phase.Follows.child_eq {d : Dialogue} {deadline : Option Seconds} {killed : Bool}
    {here : Child} {events : List PipeEvent} {p : Phase}
    (h : p.Follows d deadline killed here events) :
    ∃ o i, d.child = { here with outlet := o, inlet := i } := by
  cases hrest : p.remainder here with
  | some rest =>
    rw [← h.ahead hrest]
    exact @Phase.child_remainder here p rest hrest
  | none =>
    cases p with
    | cancelling | leaving => exact ⟨here.outlet, here.inlet, h.1.symm⟩
    | idle | entering | queued | done => cases h
    | _ => cases hrest

/-- The gate is open when a request begins, or the timer of the request opens it. -/
def Gate.Opens (child : Child) (deadline : Option Seconds) : Gate → Prop
  | .kill => child.killed = true ∨ deadline ≠ none ∧ child.isAlive = true
  | .poll => child.polled = true ∨ deadline ≠ none

namespace World

variable {s : State} {c : Caller} {q : Ask} {child : Child} {r : Request} {w : World}

/-- Along its moves a call meets no gates but those that were on its way when it began, and its
timer is watched. -/
theorem ahead_of_moves (hs : s.Quiet) (h : Moves (single s c q.call) w) :
    w.gatesAhead c ⊆ (single s c q.call).gatesAhead c ∧ (w.call c).Watched := by
  induction h with
  | refl =>
    rw [call_single]
    exact ⟨List.Subset.refl _, nofun⟩
  | @tail w w' hmoves hmove ih =>
    obtain ⟨hgates, hwatched⟩ := ih
    obtain ⟨a, hstep⟩ := hmove
    rcases c.eq_or_eq_other a.owner with ha | ha
    · subst ha
      have honward := onward_of_step hstep
      exact ⟨List.Subset.trans honward.gates hgates, honward.watched hwatched⟩
    · have hidle := (progress_of_moves hs hmoves).2
      rw [step_eq_none_of_atRest (by rw [ha, hidle]; exact Call.atRest_idle)] at hstep
      cases hstep

/-- Inside a call the child is the one that the call has begun with, but for its pipe ends. -/
theorem child_of_inside {deadline : Option Seconds} {here : Child} {u : List Happening} {s' : State}
    {k : Call} (hi : Inside s c deadline (child.dialogue r) here u s' k) :
    here.polled = child.polled ∧ here.killed = child.killed ∧ here.isAlive = child.isAlive := by
  obtain ⟨o, i, hgiven⟩ := child.child_dialogue r
  obtain ⟨o', i', hhere⟩ := hi.follows.child_eq
  rw [hgiven, Child.mk.injEq] at hhere
  obtain ⟨-, -, -, -, hexited, -, -, hpolled, hkilled⟩ := hhere
  exact ⟨hpolled.symm, hkilled.symm, congrArg Option.isNone hexited.symm⟩

/-- A gate that opens is open when a call stands at it whose timer cannot move. -/
theorem isOpen_of_opens {deadline : Option Seconds} {here : Child} {u : List Happening} {g : Gate}
    (hi : Inside s c deadline (child.dialogue r) here u w.state (w.call c))
    (htimer : w.step (.timer c) = none) (hwatched : (w.call c).timer ≠ .cancelled)
    (h : g.Opens child deadline) : (here.marked (w.call c).timer).isOpen g = true := by
  obtain ⟨hpolled, hkilled, halive⟩ := child_of_inside hi
  have hfinished (hd : deadline ≠ none) : (w.call c).timer = .finished := by
    rcases timer_of_inside hi htimer with ht | ht | ht
    · exact absurd (hi.armed.mp ht) hd
    · exact absurd ht hwatched
    · exact ht
  cases g with
  | kill =>
    rcases h with h | ⟨hd, ha⟩
    · simp [Child.isOpen, Child.marked, hkilled, h]
    · simp [Child.isOpen, Child.marked, hfinished hd, Timer.hasStruck, halive, ha]
  | poll =>
    rcases h with h | hd
    · simp [Child.isOpen, Child.marked, hpolled, h]
    · simp [Child.isOpen, Child.marked, hfinished hd, Timer.hasPolled]

/-- The gates on the way of a request that is made. -/
theorem gatesAhead_single (hadmits : s.Admits q child r) :
    (single s c q.call).gatesAhead c = child.gates r := by
  simp only [gatesAhead, state_single, call_single, hadmits.child, Ask.call, Call.entering,
    Phase.gates, hadmits.request]

end World

namespace State

variable {s : State} {c : Caller} {q : Ask} {child : Child} {r : Request} {w : World}

/-- A request whose gates open is answered when neither its caller nor its timer can move any more,
in any interleaving of the two. -/
theorem Quiet.answered_of_atRest (hs : s.Quiet) (hadmits : s.Admits q child r)
    (hgates : ∀ g ∈ child.gates r, g.Opens child (q.deadlineIn s))
    (hmoves : World.Moves (World.single s c q.call) w) (hcaller : w.step (.caller c) = none)
    (htimer : w.step (.timer c) = none) : ∃ a, (w.call c).answer? = some a := by
  obtain ⟨hahead, hwatched⟩ := World.ahead_of_moves hs hmoves
  rw [World.gatesAhead_single hadmits] at hahead
  cases (World.progress_of_moves hs hmoves).1 with
  | waiting same waits => exact World.answered_of_waits hs same waits hcaller
  | served _ _ phase _ => exact ⟨_, Call.answer?_of_phase phase⟩
  | @inside child' here r' u admits inside =>
    exfalso
    obtain rfl : child = child' := Option.some.inj (hadmits.child.symm.trans admits.child)
    obtain rfl : r = r' := Except.ok.inj (hadmits.request.symm.trans admits.request)
    obtain ⟨g, hg, hclosed⟩ := World.held_of_inside inside hcaller htimer
    -- no gate is ahead of a call whose exchange has been looked at
    have hcancelled : (w.call c).timer ≠ .cancelled := by
      intro ht
      have hjudged := hwatched ht
      cases hp : (w.call c).phase with
      | cancelling | leaving | done =>
        rw [World.gatesAhead_eq_nil hp fun _ _ => rfl] at hg
        cases hg
      | _ =>
        rw [hp] at hjudged
        cases hjudged
    rw [World.isOpen_of_opens inside htimer hcancelled (hgates g (hahead hg))] at hclosed
    cases hclosed

/-- What a session performs when a request alone is over. -/
theorem perform_of_answer {content : Text} {deadline : Option Seconds} {a : Answer}
    (h : (World.alone s content deadline).first.answer? = some a) :
    s.perform (.parse content deadline) =
      (.answered a, (World.alone s content deadline).state) := by
  simp only [perform, h]

/-- A session answers a request whose gates open. -/
theorem Quiet.perform_parse (hs : s.Quiet) (hadmits : s.Admits q child r)
    (hgates : ∀ g ∈ child.gates r, g.Opens child (q.deadlineIn s)) :
    ∃ a s', s.perform (.parse q.content q.deadline) = (.answered a, s') ∧
      s.Answers .first q a s' := by
  have hmoves := World.moves_alone s q.content q.deadline
  have hrest : (World.alone s q.content q.deadline).advance [.caller .first, .timer .first] =
      none := by
    refine World.advance_settle (c := .first) (by simp [Actor.owner]) ?_
    show (World.single s .first q.call).itemsLeft + 16 + 0 ≤
      (World.single s .first q.call).itemsLeft + 40
    omega
  have hstuck := List.findSome?_eq_none_iff.mp hrest
  obtain ⟨a, ha⟩ := hs.answered_of_atRest hadmits hgates hmoves
    (hstuck (.caller .first) (by simp)) (hstuck (.timer .first) (by simp))
  exact ⟨a, _, perform_of_answer ha, _, hmoves, ha, rfl⟩

end State

end ParserClient
