import ParserClient.Proofs.Session.Dialogue
import ParserClient.Proofs.Session.Moves
import ParserClient.Proofs.Session.Steps

/-!
# The service of a request

A call that has taken the mutex is *inside* until it gives the mutex back; its request has then
been *served*. Two things go on inside: the caller follows the dialogue of the request with the
child, and the timer polls, notes and kills. Neither changes what the other does, so the state
inside is the state before with the dialogue as far as it has come and with the marks of the timer.

## Main definitions

* `Timer.hasPolled`, `Timer.hasNoted`, `Timer.hasStruck`, `Timer.marks` — what a timer has done.
* `Inside`, `Served` — the state inside a call, and behind it.
* `Call.AtRest` — a call that does nothing more.

## Main results

* `Inside.step` — a step of a call that is inside leaves it inside or ends it with the request
  served.
-/

namespace ParserClient

/-! ### What a timer has done -/

namespace Timer

/-- The timer has polled the child. -/
def hasPolled : Timer → Bool
  | .polled | .noted | .finished => true
  | _ => false

/-- The timer has noted the kill. A timer that is finished has done so if the child was alive. -/
def hasNoted (alive : Bool) : Timer → Bool
  | .noted => true
  | .finished => alive
  | _ => false

/-- The timer has killed the child. -/
def hasStruck (alive : Bool) : Timer → Bool
  | .finished => alive
  | _ => false

/-- What the timer of a caller has done to the child of a life, as it is written down. -/
def marks (life : Nat) (c : Caller) (alive : Bool) : Timer → List Happening
  | .polled | .noted => [.poll life c]
  | .finished => if alive then [.poll life c, .kill life c] else [.poll life c]
  | _ => []

end Timer

namespace Happening

/-- The call on the pipes that a happening is. -/
def pipe? : Happening → Option PipeEvent
  | .call _ _ e => some e
  | _ => none

/-- The happening is a timer's dealing with the child. -/
def isMark : Happening → Bool
  | .poll _ _ | .kill _ _ => true
  | _ => false

/-- The happening belongs to a call of the caller to the child of the life. -/
def Within (life : Nat) (c : Caller) : Happening → Prop
  | .call l d _ | .poll l d | .kill l d => l = life ∧ d = c
  | .warn _ => True
  | _ => False

end Happening

namespace Child

/-- A child with the marks of a timer. -/
def marked (ch : Child) (t : Timer) : Child :=
  { ch with
    polled := ch.polled || t.hasPolled
    killed := ch.killed || t.hasStruck ch.isAlive }

@[simp] theorem outlet_marked (ch : Child) (t : Timer) : (ch.marked t).outlet = ch.outlet := rfl

@[simp] theorem inlet_marked (ch : Child) (t : Timer) : (ch.marked t).inlet = ch.inlet := rfl

@[simp] theorem isAlive_marked (ch : Child) (t : Timer) : (ch.marked t).isAlive = ch.isAlive := rfl

@[simp] theorem afterWrite_marked (ch : Child) (t : Timer) :
    (ch.marked t).afterWrite = ch.afterWrite.marked t := rfl

@[simp] theorem afterFlush_marked (ch : Child) (t : Timer) (frame : Bytes) (reached : Bool) :
    (ch.marked t).afterFlush frame reached = (ch.afterFlush frame reached).marked t := rfl

@[simp] theorem withItems_marked (ch : Child) (t : Timer) (items : List Delivery) :
    (ch.marked t).withItems items = (ch.withItems items).marked t := rfl

theorem marked_polled (ch : Child) :
    ch.marked .polled = { ch.marked .pending with polled := true } := by
  simp [marked, Timer.hasPolled, Timer.hasStruck]

theorem marked_finished_of_dead {ch : Child} (h : ch.isAlive = false) :
    ch.marked .finished = { ch.marked .pending with polled := true } := by
  simp [marked, h, Timer.hasPolled, Timer.hasStruck]

theorem marked_finished_of_alive {ch : Child} (h : ch.isAlive = true) :
    ch.marked .finished = { ch.marked .noted with killed := true } := by
  simp [marked, h, Timer.hasPolled, Timer.hasStruck]

@[simp] theorem isAlive_afterWrite (ch : Child) : ch.afterWrite.isAlive = ch.isAlive := rfl

@[simp] theorem isAlive_afterFlush (ch : Child) (frame : Bytes) (reached : Bool) :
    (ch.afterFlush frame reached).isAlive = ch.isAlive := rfl

end Child

/-! ### Inside a call -/

/-- A phase inside a call is on the way through a dialogue: with the calls made so far in front,
what is ahead of it is the dialogue, or the dialogue is over and its exchange has been judged. -/
def Phase.Follows (d : Dialogue) (deadline : Option Seconds) (killed : Bool) (here : Child)
    (events : List PipeEvent) : Phase → Prop
  | .cancelling exchange | .leaving exchange =>
    here = d.child ∧ events = d.events ∧
      ∃ early, (early = true → killed = true) ∧
        exchange = World.judged early deadline d.exchange
  | p => (p.remainder here).map (·.behind events) = some d

theorem Phase.Follows.mono {d : Dialogue} {deadline : Option Seconds} {killed killed' : Bool}
    {here : Child} {events : List PipeEvent} {p : Phase} (hk : killed = true → killed' = true)
    (h : p.Follows d deadline killed here events) : p.Follows d deadline killed' here events := by
  cases p with
  | cancelling | leaving =>
    obtain ⟨hhere, hevents, early, hearly, he⟩ := h
    exact ⟨hhere, hevents, early, fun h => hk (hearly h), he⟩
  | _ => exact h

/-- What is ahead of a phase, with the calls made so far in front, is the dialogue. -/
theorem Phase.Follows.ahead {d rest : Dialogue} {deadline : Option Seconds} {killed : Bool}
    {here : Child} {events : List PipeEvent} {p : Phase}
    (h : p.Follows d deadline killed here events) (hp : p.remainder here = some rest) :
    rest.behind events = d := by
  cases p with
  | cancelling | leaving => cases hp
  | _ =>
    have hmap := congrArg (Option.map (·.behind events)) hp
    exact Option.some.inj (hmap.symm.trans h)

theorem Phase.Follows.of_ahead {d rest : Dialogue} {deadline : Option Seconds} {killed : Bool}
    {here : Child} {events : List PipeEvent} {p : Phase} (hp : p.remainder here = some rest)
    (hd : rest.behind events = d) : p.Follows d deadline killed here events := by
  cases p with
  | cancelling | leaving => cases hp
  | _ =>
    have hmap := congrArg (Option.map (·.behind events)) hp
    exact hmap.trans (congrArg some hd)

/-- The state `s'` and the call `k` while the call of `c`, which took the mutex in the state `s`,
is inside. The child is `here` with the marks of the timer, and `u` has happened. -/
structure Inside (s : State) (c : Caller) (deadline : Option Seconds) (d : Dialogue) (here : Child)
    (u : List Happening) (s' : State) (k : Call) : Prop where
  client : s'.client = s.client
  running : s'.running = s.running
  child : s'.child = some (here.marked k.timer)
  killed : s'.killed = (s.killed || k.timer.hasNoted here.isAlive)
  holder : s'.holder = some c
  launches : s'.launches = s.launches
  lives : s'.lives = s.lives
  trace : s'.trace = s.trace ++ .acquire c :: u
  within : ∀ h ∈ u, h.Within s.lives c
  marks : u.filter Happening.isMark = k.timer.marks s.lives c here.isAlive
  due : k.deadline = deadline
  armed : k.timer = .off ↔ deadline = none
  alive : k.timer.isBusy = true → here.isAlive = true
  follows : k.phase.Follows d deadline s'.killed here (u.filterMap Happening.pipe?)
  settled : ∀ exchange, k.phase = .leaving exchange → k.timer ≠ .pending

/-- The state `s'` when the call of `c`, which took the mutex in the state `s`, has served its
request and given the mutex back with an answer. -/
structure Served (s : State) (c : Caller) (deadline : Option Seconds) (d : Dialogue) (t : Timer)
    (u : List Happening) (answer : Answer) (s' : State) : Prop where
  client : s'.client = s.client
  running : s'.running = (s.running && !s'.killed)
  child : s'.child = some (d.child.marked t)
  killed : s'.killed = (s.killed || t.hasNoted d.child.isAlive)
  holder : s'.holder = none
  launches : s'.launches = s.launches
  lives : s'.lives = s.lives
  trace : s'.trace = s.trace ++ .acquire c :: (u ++ [.release c])
  within : ∀ h ∈ u, h.Within s.lives c
  marks : u.filter Happening.isMark = t.marks s.lives c d.child.isAlive
  armed : t = .off ↔ deadline = none
  settled : t = .off ∨ t = .cancelled ∨ t = .finished
  events : u.filterMap Happening.pipe? = d.events
  answer : ∃ early, (early = true → s'.killed = true) ∧
    answer = (World.judged early deadline d.exchange).answer

/-- Neither the caller nor the timer has anything to do. -/
def Call.AtRest (k : Call) : Prop :=
  (k.phase = .idle ∨ ∃ a, k.phase = .done a) ∧
    (k.timer = .off ∨ k.timer = .cancelled ∨ k.timer = .finished)

/-- A call whose request has been served is at rest. -/
theorem Served.atRest {s s' : State} {c : Caller} {deadline : Option Seconds} {d : Dialogue}
    {t : Timer} {u : List Happening} {answer : Answer} {k : Call}
    (h : Served s c deadline d t u answer s') (hphase : k.phase = .done answer)
    (htimer : k.timer = t) : k.AtRest :=
  ⟨.inr ⟨answer, hphase⟩, htimer ▸ h.settled⟩

namespace Inside

variable {s s' : State} {c : Caller} {deadline : Option Seconds} {d : Dialogue} {here : Child}
  {u : List Happening} {k : Call}

/-- The caller goes on with the dialogue: `ev` happens, the child is `next` and the phase `p`. -/
theorem talk (hi : Inside s c deadline d here u s' k) (next : Child) (ev : List Happening)
    (p : Phase) (halive : next.isAlive = here.isAlive) (hwithin : ∀ h ∈ ev, h.Within s.lives c)
    (hmarks : ev.filter Happening.isMark = [])
    (hfollows : p.Follows d deadline s'.killed next
      (u.filterMap Happening.pipe? ++ ev.filterMap Happening.pipe?))
    (hp : ∀ exchange, p ≠ .leaving exchange) :
    Inside s c deadline d next (u ++ ev)
      { s' with child := some (next.marked k.timer), trace := s'.trace ++ ev }
      { k with phase := p } where
  client := hi.client
  running := hi.running
  child := rfl
  killed := by simpa only [halive] using hi.killed
  holder := hi.holder
  launches := hi.launches
  lives := hi.lives
  trace := by simp [hi.trace]
  within h hh := by
    rcases List.mem_append.mp hh with hh | hh
    · exact hi.within h hh
    · exact hwithin h hh
  marks := by simp only [List.filter_append, hmarks, List.append_nil, hi.marks, halive]
  due := hi.due
  armed := hi.armed
  alive ht := halive.trans (hi.alive ht)
  follows := by simpa only [List.filterMap_append] using hfollows
  settled exchange he := absurd he (hp exchange)

/-- A call on the pipes is written down while the child is `next`. -/
theorem talk_call (hi : Inside s c deadline d here u s' k) (next : Child) (e : PipeEvent)
    (p : Phase) (halive : next.isAlive = here.isAlive)
    (hfollows : p.Follows d deadline s'.killed next (u.filterMap Happening.pipe? ++ [e]))
    (hp : ∀ exchange, p ≠ .leaving exchange) :
    ∃ v, Inside s c deadline d next v
      (({ s' with child := some (next.marked k.timer) } : State).recordCall c e)
      { k with phase := p } := by
  refine ⟨_, hi.talk next [.call s'.lives c e] p halive ?_ rfl hfollows hp⟩
  simp [Happening.Within, hi.lives]

/-- The timer goes on: `ev` happens and the timer comes to `t`. -/
theorem tick (hi : Inside s c deadline d here u s' k) (t : Timer) (ev : List Happening)
    (killed : Bool) (hkilled : killed = (s.killed || t.hasNoted here.isAlive))
    (hnote : s'.killed = true → killed = true) (hwithin : ∀ h ∈ ev, h.Within s.lives c)
    (hmarks : k.timer.marks s.lives c here.isAlive ++ ev.filter Happening.isMark =
      t.marks s.lives c here.isAlive)
    (hpipe : ev.filterMap Happening.pipe? = []) (hk : k.timer ≠ .off) (ht : t ≠ .off)
    (hpending : t ≠ .pending) (halive : t.isBusy = true → here.isAlive = true) :
    Inside s c deadline d here (u ++ ev)
      { s' with child := some (here.marked t), killed := killed, trace := s'.trace ++ ev }
      { k with timer := t } where
  client := hi.client
  running := hi.running
  child := rfl
  killed := hkilled
  holder := hi.holder
  launches := hi.launches
  lives := hi.lives
  trace := by simp [hi.trace]
  within h hh := by
    rcases List.mem_append.mp hh with hh | hh
    · exact hi.within h hh
    · exact hwithin h hh
  marks := by rw [List.filter_append, hi.marks, hmarks]
  due := hi.due
  armed := by simpa [ht, hk] using hi.armed
  alive := halive
  follows := by
    rw [List.filterMap_append, hpipe, List.append_nil]
    exact hi.follows.mono hnote
  settled _ _ := hpending

end Inside

namespace World

variable {s : State} {c : Caller} {deadline : Option Seconds} {d : Dialogue} {here : Child}
  {u : List Happening} {w w' : World}

/-- The call stays inside, somewhere further on in its dialogue. -/
theorem inside_beginWrite {request : Request}
    (hi : Inside s c deadline d here u w.state (w.call c))
    (hp : (w.call c).phase = .sending request) :
    ∃ next v, Inside s c deadline d next v (w.beginWrite c request).state
      ((w.beginWrite c request).call c) := by
  have hf : (here.dialogue request).behind (u.filterMap Happening.pipe?) = d :=
    hi.follows.ahead (by rw [hp]; rfl)
  unfold beginWrite
  cases hframe : Frame.ofRequest request with
  | error f =>
    rw [Child.dialogue_of_unframed hframe] at hf
    have h := hi.talk here [] (.concluding (.error (.frame f))) rfl
      (by simp) rfl (.of_ahead rfl (by simpa using hf)) (by simp)
    refine ⟨here, u ++ [], ?_⟩
    simpa [← hi.child] using h
  | ok frame =>
    rw [Child.dialogue_of_frame hframe, Dialogue.behind_behind] at hf
    obtain ⟨v, hv⟩ := hi.talk_call here (.write frame) (.writing frame) rfl
      (.of_ahead rfl hf) (by simp)
    refine ⟨here, v, ?_⟩
    simpa [← hi.child] using hv

theorem inside_beginSalvage {m : Mishap} {next : Child}
    (hi : Inside s c deadline d here u w.state (w.call c)) (halive : next.isAlive = here.isAlive)
    (hf : (next.whenSalvaging m).behind (u.filterMap Happening.pipe? ++ [.readline]) = d) :
    ∃ v, Inside s c deadline d next v
      ((w.setChild (next.marked (w.call c).timer)).beginSalvage c m).state
      (((w.setChild (next.marked (w.call c).timer)).beginSalvage c m).call c) := by
  have h := hi.talk next [.warn (.notWritten m), .call w.state.lives c .readline]
    (.salvaging m) halive (by simp [Happening.Within, hi.lives]) rfl
    (.of_ahead rfl hf) (by simp)
  exact ⟨_, by simpa [beginSalvage, State.recordCall, State.record] using h⟩

theorem inside_endWrite {frame : Bytes} (hi : Inside s c deadline d here u w.state (w.call c))
    (hp : (w.call c).phase = .writing frame) (h : w.endWrite c frame = some w') :
    ∃ next v, Inside s c deadline d next v w'.state (w'.call c) := by
  have hf : (here.whenWriting frame).behind (u.filterMap Happening.pipe?) = d :=
    hi.follows.ahead (by rw [hp]; rfl)
  obtain ⟨child, hchild, hw⟩ := endWrite_eq_some h
  rw [hi.child, Option.some.injEq] at hchild
  subst hchild
  rw [Child.outlet_marked, Child.afterWrite_marked] at hw
  rcases hw with ⟨m, hm, rfl⟩ | ⟨hm, rfl⟩
  · simp only [Child.whenWriting, hm, Dialogue.behind_behind] at hf
    exact ⟨_, inside_beginSalvage hi here.isAlive_afterWrite hf⟩
  · simp only [Child.whenWriting, hm, Dialogue.behind_behind] at hf
    obtain ⟨v, hv⟩ := hi.talk_call _ .flush (.flushing frame) here.isAlive_afterWrite
      (.of_ahead rfl hf) (by simp)
    exact ⟨_, v, by simpa using hv⟩

theorem inside_endFlush {frame : Bytes} (hi : Inside s c deadline d here u w.state (w.call c))
    (hp : (w.call c).phase = .flushing frame) (h : w.endFlush c frame = some w') :
    ∃ next v, Inside s c deadline d next v w'.state (w'.call c) := by
  have hf : (here.whenFlushing frame).behind (u.filterMap Happening.pipe?) = d :=
    hi.follows.ahead (by rw [hp]; rfl)
  obtain ⟨child, hchild, hw⟩ := endFlush_eq_some h
  rw [hi.child, Option.some.injEq] at hchild
  subst hchild
  rw [Child.outlet_marked, Child.afterFlush_marked, Child.afterFlush_marked] at hw
  rcases hw with ⟨m, hm, rfl⟩ | ⟨hm, rfl⟩
  · simp only [Child.whenFlushing, hm, Dialogue.behind_behind] at hf
    exact ⟨_, inside_beginSalvage hi (here.isAlive_afterFlush frame false) hf⟩
  · simp only [Child.whenFlushing, hm, Dialogue.behind_behind] at hf
    obtain ⟨v, hv⟩ := hi.talk_call _ .readline .reading (here.isAlive_afterFlush frame true)
      (.of_ahead rfl hf) (by simp)
    exact ⟨_, v, by simpa using hv⟩

/-- The exchange is over; the reading call has left some items. -/
theorem inside_conclude {items : List Delivery} {exchange : Exchange}
    (hi : Inside s c deadline d here u w.state (w.call c))
    (hf : (⟨u.filterMap Happening.pipe?, exchange, here.withItems items⟩ : Dialogue) = d) :
    ∃ next v, Inside s c deadline d next v
      ((w.setChild ((here.withItems items).marked (w.call c).timer)).goto c
        (.concluding exchange)).state
      (((w.setChild ((here.withItems items).marked (w.call c).timer)).goto c
        (.concluding exchange)).call c) := by
  have h := hi.talk (here.withItems items) [] (.concluding exchange) rfl
    (by simp) rfl (.of_ahead rfl (by simpa [Dialogue.behind] using hf)) (by simp)
  exact ⟨_, _, by simpa using h⟩

theorem inside_endRead (hi : Inside s c deadline d here u w.state (w.call c))
    (hp : (w.call c).phase = .reading) (h : w.endRead c = some w') :
    ∃ next v, Inside s c deadline d next v w'.state (w'.call c) := by
  have hf : here.whenReading.behind (u.filterMap Happening.pipe?) = d :=
    hi.follows.ahead (by rw [hp]; rfl)
  obtain ⟨child, result, items, hchild, hpull, hw⟩ := endRead_eq_some h
  rw [hi.child, Option.some.injEq] at hchild
  subst hchild
  have hnext := Inlet.next_of_pull hpull
  rw [Child.inlet_marked] at hnext
  rw [Child.withItems_marked] at hw
  rcases hw with ⟨f, rfl, rfl⟩ | ⟨line, rfl, ⟨hblank, rfl⟩ | ⟨hblank, rfl⟩⟩
  · refine inside_conclude hi ?_
    simpa [Child.whenReading, Inlet.seek_of_next_error hnext, Dialogue.behind, Child.replyOf]
      using hf
  · rw [Child.whenReading, Inlet.seek_of_next_blank hnext hblank] at hf
    obtain ⟨v, hv⟩ := hi.talk_call (here.withItems items) .readline .reading rfl
      (.of_ahead rfl (by simpa [Child.whenReading, Dialogue.behind, List.replicate_succ,
        Child.withItems] using hf))
      (by simp)
    exact ⟨_, v, by simpa [← hp] using hv⟩
  · refine inside_conclude hi ?_
    simpa [Child.whenReading, Inlet.seek_of_next_line hnext hblank, Dialogue.behind,
      Child.replyOf] using hf

theorem inside_endSalvage {m : Mishap} (hi : Inside s c deadline d here u w.state (w.call c))
    (hp : (w.call c).phase = .salvaging m) (h : w.endSalvage c m = some w') :
    ∃ next v, Inside s c deadline d next v w'.state (w'.call c) := by
  have hf : (here.whenSalvaging m).behind (u.filterMap Happening.pipe?) = d :=
    hi.follows.ahead (by rw [hp]; rfl)
  obtain ⟨child, result, items, hchild, hpull, hw⟩ := endSalvage_eq_some h
  rw [hi.child, Option.some.injEq] at hchild
  subst hchild
  have hnext := Inlet.next_of_pull hpull
  rw [Child.inlet_marked] at hnext
  rw [Child.withItems_marked] at hw
  rcases hw with ⟨f, rfl, rfl⟩ | ⟨line, rfl, rfl⟩
  · refine inside_conclude hi ?_
    simpa [Child.whenSalvaging, hnext, Dialogue.behind, Child.crashOf] using hf
  · refine inside_conclude hi ?_
    simpa [Child.whenSalvaging, hnext, Dialogue.behind, Child.crashOf] using hf

/-- The exchange is judged by the note of a kill as it stands. -/
theorem inside_judge {exchange : Exchange} (hi : Inside s c deadline d here u w.state (w.call c))
    (hp : (w.call c).phase = .concluding exchange) :
    Inside s c deadline d here u w.state
      { w.call c with
        phase := .cancelling (judged w.state.killed (w.call c).deadline exchange) } := by
  have hf : (⟨[], exchange, here⟩ : Dialogue).behind (u.filterMap Happening.pipe?) = d :=
    hi.follows.ahead (by rw [hp]; rfl)
  exact
    { hi with
      follows := by
        subst hf
        exact ⟨rfl, (List.append_nil _).symm, w.state.killed, id, by rw [hi.due]; rfl⟩
      settled := by simp }

theorem inside_cancel {exchange : Exchange} (hi : Inside s c deadline d here u w.state (w.call c))
    (hp : (w.call c).phase = .cancelling exchange) :
    Inside s c deadline d here u (w.cancel c exchange).state ((w.cancel c exchange).call c) := by
  have hf := hi.follows
  rw [hp] at hf
  unfold cancel
  by_cases ht : (w.call c).timer = .pending
  · simp only [ht, ↓reduceIte, state_goto, state_setTimer, call_goto, call_setTimer]
    exact
      { hi with
        child := by rw [hi.child, ht]; rfl
        killed := by rw [hi.killed, ht]; rfl
        marks := by rw [hi.marks, ht]; rfl
        armed := by simpa [ht] using hi.armed
        alive := by simp [Timer.isBusy]
        follows := hf
        settled := by simp }
  · simp only [ht, ↓reduceIte, state_goto, call_goto]
    exact { hi with follows := hf, settled := fun _ _ => ht }

theorem served_leave {exchange : Exchange} (hi : Inside s c deadline d here u w.state (w.call c))
    (hp : (w.call c).phase = .leaving exchange) (h : w.leave c exchange = some w') :
    Served s c deadline d (w.call c).timer u exchange.answer w'.state ∧
      w'.call c = { w.call c with phase := .done exchange.answer } := by
  have hf := hi.follows
  rw [hp] at hf
  obtain ⟨rfl, hevents, early, hearly, rfl⟩ := hf
  obtain ⟨hbusy, rfl⟩ := leave_eq_some h
  have hsettled : (w.call c).timer = .off ∨ (w.call c).timer = .cancelled ∨
      (w.call c).timer = .finished := by
    have hpending := hi.settled _ hp
    cases ht : (w.call c).timer <;> simp_all [Timer.isBusy]
  refine ⟨?_, by simp⟩
  simp only [state_goto, state_record, State.record]
  exact
    { client := hi.client
      running := by simp [hi.running]
      child := hi.child
      killed := hi.killed
      holder := rfl
      launches := hi.launches
      lives := hi.lives
      trace := by simp [hi.trace]
      within := hi.within
      marks := hi.marks
      armed := hi.armed
      settled := hsettled
      events := hevents
      answer := ⟨early, hearly, rfl⟩ }

/-! ### The timer inside a call -/

theorem inside_goOff (hi : Inside s c deadline d here u w.state (w.call c))
    (ht : (w.call c).timer = .pending) :
    ∃ v, Inside s c deadline d here v (w.goOff c).state ((w.goOff c).call c) := by
  have hchild := hi.child
  have hkilled : w.state.killed = s.killed := by rw [hi.killed, ht]; simp [Timer.hasNoted]
  rw [ht] at hchild
  simp only [goOff, hchild, Child.isAlive_marked]
  refine ⟨u ++ [.poll w.state.lives c], ?_⟩
  by_cases halive : here.isAlive = true
  · have h := hi.tick .polled [.poll w.state.lives c] w.state.killed
      (by simp [hkilled, Timer.hasNoted]) id (by simp [Happening.Within, hi.lives])
      (by simp [ht, hi.lives, Timer.marks, Happening.isMark]) rfl (by simp [ht]) (by simp)
      (by simp) (fun _ => halive)
    simpa [halive, Child.marked_polled, State.record] using h
  · rw [Bool.not_eq_true] at halive
    have h := hi.tick .finished [.poll w.state.lives c] w.state.killed
      (by simp [hkilled, halive, Timer.hasNoted]) id (by simp [Happening.Within, hi.lives])
      (by simp [ht, halive, hi.lives, Timer.marks, Happening.isMark]) rfl (by simp [ht]) (by simp)
      (by simp) (by simp [Timer.isBusy])
    simpa [halive, Child.marked_finished_of_dead halive, State.record] using h

theorem inside_note (hi : Inside s c deadline d here u w.state (w.call c))
    (ht : (w.call c).timer = .polled) (h : w.note c = some w') :
    ∃ v, Inside s c deadline d here v w'.state (w'.call c) := by
  have halive : here.isAlive = true := hi.alive (by simp [ht, Timer.isBusy])
  obtain ⟨child, seconds, -, -, rfl⟩ := note_eq_some h
  have hticked := hi.tick .noted [.warn (.killing seconds child.process)] true
    (by simp [Timer.hasNoted]) (fun _ => rfl) (by simp [Happening.Within])
    (by simp [ht, Timer.marks, Happening.isMark]) rfl (by simp [ht]) (by simp) (by simp)
    (fun _ => halive)
  have hmarked : here.marked .noted = here.marked (w.call c).timer := by rw [ht]; rfl
  exact ⟨_, by simpa [hmarked, ← hi.child, State.record] using hticked⟩

theorem inside_strike (hi : Inside s c deadline d here u w.state (w.call c))
    (ht : (w.call c).timer = .noted) (h : w.strike c = some w') :
    ∃ v, Inside s c deadline d here v w'.state (w'.call c) := by
  have halive : here.isAlive = true := hi.alive (by simp [ht, Timer.isBusy])
  obtain ⟨child, hchild, rfl⟩ := strike_eq_some h
  rw [hi.child, Option.some.injEq] at hchild
  subst hchild
  have hticked := hi.tick .finished [.kill w.state.lives c] w.state.killed
    (by simp [hi.killed, ht, halive, Timer.hasNoted]) id (by simp [Happening.Within, hi.lives])
    (by simp [ht, halive, hi.lives, Timer.marks, Happening.isMark]) rfl (by simp [ht]) (by simp)
    (by simp) (by simp [Timer.isBusy])
  exact ⟨_, by simpa [Child.marked_finished_of_alive halive, ht, State.record] using hticked⟩

end World

/-- A call that is inside has no answer. -/
theorem Inside.answer?_eq_none {s s' : State} {c : Caller} {deadline : Option Seconds}
    {d : Dialogue} {here : Child} {u : List Happening} {k : Call}
    (h : Inside s c deadline d here u s' k) : k.answer? = none := by
  have hfollows := h.follows
  cases hp : k.phase with
  | done => simp [hp, Phase.Follows, Phase.remainder] at hfollows
  | _ => simp only [Call.answer?, hp]

/-- A step of a call that is inside leaves it inside, or ends it with its request served. -/
theorem Inside.step {s : State} {c : Caller} {deadline : Option Seconds} {d : Dialogue}
    {here : Child} {u : List Happening} {w w' : World} {a : Actor} (ha : a.owner = c)
    (hi : Inside s c deadline d here u w.state (w.call c)) (h : w.step a = some w') :
    (∃ next v, Inside s c deadline d next v w'.state (w'.call c)) ∨
      ∃ t answer, Served s c deadline d t u answer w'.state ∧
        (w'.call c).phase = .done answer ∧ (w'.call c).timer = t := by
  subst ha
  cases a with
  | caller c =>
    simp only [World.step, World.stepCaller, Actor.owner] at h hi ⊢
    have hf := hi.follows
    cases hp : (w.call c).phase with
    | idle | entering | queued | done => simp [hp, Phase.Follows, Phase.remainder] at hf
    | sending request =>
      simp only [hp, Option.some.injEq] at h
      subst h
      exact .inl (World.inside_beginWrite hi hp)
    | writing frame => exact .inl (World.inside_endWrite hi hp (by simpa [hp] using h))
    | flushing frame => exact .inl (World.inside_endFlush hi hp (by simpa [hp] using h))
    | reading => exact .inl (World.inside_endRead hi hp (by simpa [hp] using h))
    | salvaging m => exact .inl (World.inside_endSalvage hi hp (by simpa [hp] using h))
    | concluding exchange =>
      simp only [hp, Option.some.injEq] at h
      subst h
      exact .inl ⟨here, u, by simpa using World.inside_judge hi hp⟩
    | cancelling exchange =>
      simp only [hp, Option.some.injEq] at h
      subst h
      exact .inl ⟨here, u, World.inside_cancel hi hp⟩
    | leaving exchange =>
      obtain ⟨hserved, hcall⟩ := World.served_leave hi hp (by simpa [hp] using h)
      exact .inr ⟨_, _, hserved, by rw [hcall], by rw [hcall]⟩
  | timer c =>
    simp only [World.step, World.stepTimer, Actor.owner] at h hi ⊢
    refine .inl ⟨here, ?_⟩
    cases ht : (w.call c).timer with
    | off | finished | cancelled => simp [ht] at h
    | pending =>
      simp only [ht, Option.some.injEq] at h
      subst h
      exact World.inside_goOff hi ht
    | polled => exact World.inside_note hi ht (by simpa [ht] using h)
    | noted => exact World.inside_strike hi ht (by simpa [ht] using h)

end ParserClient
