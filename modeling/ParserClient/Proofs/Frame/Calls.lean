import Mathlib.Data.List.Forall2
import ParserClient.Frame.Calls

/-!
# Reading calls stay in step with the stream

Calls that read one stream one after the other cut it into *stretches*. The stretch of a call for a
message is the blank lines that come first and the item behind them, the stretch of a raw call is
the next item, blank or not. An item is a line or a mishap; a call that finds none stops at the end
of the stream. What a call comes to is read off the item at which it stops, so neither the calls
before it nor their failures have a part in it.

A script has no gates and no empty deliveries here: a gate is a matter of time, and an empty
delivery would be an end of the stream with something behind it.

## Main definitions

* `Delivery.IsMet` — the items of a script.
* `Delivery.IsBlank` — a line of white space.
* `ReadCall.answer` — what a call makes of the item at which it stops.
* `Stretch`, `Stretch.IsTakenBy` — the items that a call takes.
* `InStep` — calls that take one stretch after the other.

## Main results

* `ReadCall.perform_takes` — one call takes one stretch.
* `InStep.performAll` — calls one after the other.
* `calls_in_step` — how calls share out a stream.
-/

namespace ParserClient

/-! ### Items -/

namespace Delivery

/-- A reading call meets the item at once: a line that is not empty, or a mishap. -/
def IsMet : Delivery → Prop
  | .bytes line => line ≠ []
  | .mishap _ => True
  | .gate _ => False

/-- A line that holds tabs, line feeds, vertical tabs, form feeds, carriage returns and spaces
only. -/
def IsBlank : Delivery → Prop
  | .bytes line => ∀ b ∈ line, b ∈ ([9, 10, 11, 12, 13, 32] : Bytes)
  | _ => False

end Delivery

namespace Frame

theorem isBlankByte_iff (b : UInt8) :
    isBlankByte b = true ↔ b ∈ ([9, 10, 11, 12, 13, 32] : Bytes) := by
  simp only [isBlankByte, Bool.or_eq_true, Bool.and_eq_true, decide_eq_true_eq,
    UInt8.le_iff_toNat_le, List.mem_cons, List.not_mem_nil, or_false, ← UInt8.toNat_inj,
    UInt8.reduceToNat]
  omega

theorem isBlank_iff (line : Bytes) : isBlank line = true ↔ (Delivery.bytes line).IsBlank := by
  rw [isBlank, List.all_eq_true]
  exact forall₂_congr fun b _ => isBlankByte_iff b

end Frame

/-! ### Stretches -/

/-- The items that a call takes: those it passes over, and the one at which it stops, if the stream
does not end before. -/
structure Stretch where
  passed : List Delivery
  stop : Option Delivery

namespace Stretch

/-- The items of a stretch in their order. -/
def items (s : Stretch) : List Delivery := s.passed ++ s.stop.toList

/-- The stretch is one that the call takes: a call for a message passes over blank lines and does
not stop at one, a raw call passes over nothing. -/
structure IsTakenBy (s : Stretch) (call : ReadCall) : Prop where
  passed : ∀ d ∈ s.passed, call ≠ .raw ∧ d.IsBlank
  stop : ∀ d ∈ s.stop, call ≠ .raw → ¬ d.IsBlank

end Stretch

namespace Inlet

/-- The line at which a call stops. -/
def lineAt : Option Delivery → Except FrameFault Bytes
  | some (.bytes line) => .ok line
  | some (.mishap m) => .error (faultOf m)
  | _ => .error .ended

variable {items : List Delivery}

/-- Reading calls up to a line that is not blank end on every script: they pass over the blank lines
that come first. -/
theorem pullMessage_passes (isOpen : Gate → Bool) (h : ∀ d ∈ items, d.IsMet) :
    ∃ passed stop left, items = passed ++ stop.toList ++ left ∧ (∀ d ∈ passed, d.IsBlank) ∧
      (∀ d ∈ stop, ¬ d.IsBlank) ∧ (stop = none → left = []) ∧
      pullMessage isOpen items = some (passed.length + 1, lineAt stop, left) := by
  induction items with
  | nil => exact ⟨[], none, [], rfl, by simp, by simp, fun _ => rfl, rfl⟩
  | cons item items ih =>
    obtain ⟨hitem, hitems⟩ := List.forall_mem_cons.mp h
    cases item with
    | gate g => exact hitem.elim
    | mishap m =>
      exact ⟨[], some (.mishap m), items, rfl, by simp, by simp [Delivery.IsBlank], nofun, rfl⟩
    | bytes line =>
      have hline : line.isEmpty = false := by simpa [Delivery.IsMet] using hitem
      by_cases hblank : Frame.isBlank line = true
      · obtain ⟨passed, stop, left, hsplit, hpassed, hstop, hend, hpull⟩ := ih hitems
        refine ⟨.bytes line :: passed, stop, left, by rw [hsplit]; rfl,
          List.forall_mem_cons.mpr ⟨(Frame.isBlank_iff line).mp hblank, hpassed⟩, hstop, hend, ?_⟩
        rw [pullMessage, if_neg (by simp [hline]), if_pos hblank, hpull]
        rfl
      · refine ⟨[], some (.bytes line), items, rfl, by simp, ?_, nofun, ?_⟩
        · simpa using fun h => hblank ((Frame.isBlank_iff line).mpr h)
        · rw [pullMessage, if_neg (by simp [hline]), if_neg hblank]
          rfl

/-- One reading call takes one item, whatever it is. -/
theorem pull_takes (isOpen : Gate → Bool) (h : ∀ d ∈ items, d.IsMet) :
    ∃ (stop : Option Delivery) (left : List Delivery), items = stop.toList ++ left ∧
      (stop = none → left = []) ∧ pull isOpen items = some (lineAt stop, left) := by
  cases items with
  | nil => exact ⟨none, [], rfl, fun _ => rfl, rfl⟩
  | cons item items =>
    refine ⟨some item, items, rfl, nofun, ?_⟩
    have hitem := h item List.mem_cons_self
    cases item with
    | gate g => exact hitem.elim
    | mishap m => rfl
    | bytes line =>
      have hline : line.isEmpty = false := by simpa [Delivery.IsMet] using hitem
      rw [pull, lineOf, if_neg (by simp [hline])]
      rfl

end Inlet

namespace ReadCall

/-- What a call makes of the item at which it stops, or of the end of the stream. -/
def answer (room : Room) (call : ReadCall) : Option Delivery → Except Fault Message
  | some (.bytes line) => call.ofLine room line
  | some (.mishap m) => .error (.frame (Inlet.faultOf m))
  | _ => .error (.frame .ended)

theorem bind_lineAt (room : Room) (call : ReadCall) (stop : Option Delivery) :
    ((Inlet.lineAt stop).mapError Fault.frame).bind (fun line => call.ofLine room line) =
      call.answer room stop := by
  cases stop with
  | none => rfl
  | some item => cases item <;> rfl

theorem pull_of_ne_raw {call : ReadCall} (hcall : call ≠ .raw) (isOpen : Gate → Bool)
    (items : List Delivery) : call.pull isOpen items = Inlet.pullMessage isOpen items := by
  cases call with
  | raw => exact absurd rfl hcall
  | tree | reply | request | settings => rfl

/-- A call ends on every script. It takes a stretch off the front, with a reading call for each item
that it passes over and one more, and what it comes to is what it makes of the item at which it
stops. -/
theorem perform_takes (room : Room) (call : ReadCall) (isOpen : Gate → Bool)
    {items : List Delivery} (h : ∀ d ∈ items, d.IsMet) :
    ∃ (stretch : Stretch) (left : List Delivery), items = stretch.items ++ left ∧
      stretch.IsTakenBy call ∧ (stretch.stop = none → left = []) ∧
      call.perform room isOpen items =
        some ⟨stretch.passed.length + 1, call.answer room stretch.stop, left⟩ := by
  by_cases hcall : call = .raw
  · subst hcall
    obtain ⟨stop, left, hsplit, hend, hpull⟩ := Inlet.pull_takes isOpen h
    refine ⟨⟨[], stop⟩, left, hsplit, ⟨by simp, fun _ _ hraw => absurd rfl hraw⟩, hend, ?_⟩
    simp only [perform, pull, hpull, Option.map_some, bind_lineAt, List.length_nil]
  · obtain ⟨passed, stop, left, hsplit, hpassed, hstop, hend, hpull⟩ :=
      Inlet.pullMessage_passes isOpen h
    refine ⟨⟨passed, stop⟩, left, hsplit, ⟨fun d hd => ⟨hcall, hpassed d hd⟩,
      fun d hd _ => hstop d hd⟩, hend, ?_⟩
    simp only [perform, pull_of_ne_raw hcall, hpull, Option.map_some, bind_lineAt]

end ReadCall

/-! ### Calls one after the other -/

/-- Calls take one stretch after the other off a stream, each from the front of what the call before
has left. -/
inductive InStep (room : Room) :
    List Delivery → List ReadCall → List Stretch → List ReadOutcome → Prop
  | done (items : List Delivery) : InStep room items [] [] []
  | next {stretch : Stretch} {left : List Delivery} {call : ReadCall} {calls : List ReadCall}
      {stretches : List Stretch} {outcomes : List ReadOutcome} (htaken : stretch.IsTakenBy call)
      (hend : stretch.stop = none → left = []) (hrest : InStep room left calls stretches outcomes) :
      InStep room (stretch.items ++ left) (call :: calls) (stretch :: stretches)
        (⟨stretch.passed.length + 1, call.answer room stretch.stop, left⟩ :: outcomes)

namespace InStep

variable {room : Room} {items : List Delivery} {calls : List ReadCall}
  {stretches : List Stretch} {outcomes : List ReadOutcome}

theorem performAll (h : ∀ d ∈ items, d.IsMet) (isOpen : Gate → Bool) (calls : List ReadCall) :
    ∃ stretches outcomes, ReadCall.performAll room isOpen items calls = some outcomes ∧
      InStep room items calls stretches outcomes := by
  induction calls generalizing items with
  | nil => exact ⟨[], [], rfl, .done items⟩
  | cons call calls ih =>
    obtain ⟨stretch, left, rfl, htaken, hend, hperform⟩ := call.perform_takes room isOpen h
    obtain ⟨stretches, outcomes, hall, hrest⟩ := ih fun d hd => h d (List.mem_append_right _ hd)
    refine ⟨stretch :: stretches, _, ?_, .next htaken hend hrest⟩
    rw [ReadCall.performAll, hperform]
    simp only [Option.bind_eq_bind, Option.bind_some, hall]
    rfl

theorem isTakenBy (h : InStep room items calls stretches outcomes) :
    List.Forall₂ Stretch.IsTakenBy stretches calls := by
  induction h with
  | done => exact .nil
  | next htaken _ _ ih => exact .cons htaken ih

theorem results (h : InStep room items calls stretches outcomes) :
    outcomes.map (·.result) = calls.zipWith (ReadCall.answer room) (stretches.map (·.stop)) := by
  induction h with
  | done => rfl
  | next _ _ _ ih => rw [List.map_cons, ih]; rfl

theorem reads (h : InStep room items calls stretches outcomes) :
    outcomes.map (·.reads) = stretches.map fun s => s.passed.length + 1 := by
  induction h with
  | done => rfl
  | next _ _ _ ih => rw [List.map_cons, ih]; rfl

/-- The stretches taken so far and what is left make up the stream, and nothing is left where a call
has found the end. -/
theorem left (h : InStep room items calls stretches outcomes) {k : Nat} {stretch : Stretch}
    {outcome : ReadOutcome} (hstretch : stretches[k]? = some stretch)
    (hk : outcomes[k]? = some outcome) :
    items = (stretches.take k).flatMap Stretch.items ++ stretch.items ++ outcome.left ∧
      (stretch.stop = none → outcome.left = []) := by
  induction h generalizing k with
  | done => cases hk
  | @next first left call calls stretches outcomes _ hend _ ih =>
    cases k with
    | zero =>
      obtain rfl := Option.some.inj hstretch
      obtain rfl := Option.some.inj hk
      exact ⟨rfl, hend⟩
    | succ k =>
      obtain ⟨hitems, hlast⟩ := ih hstretch hk
      refine ⟨?_, hlast⟩
      rw [List.take_succ_cons, List.flatMap_cons, List.append_assoc, List.append_assoc,
        ← List.append_assoc (List.flatMap _ _), ← hitems]

/-- Nothing is taken off an ended stream. -/
theorem of_nil (h : InStep room items calls stretches outcomes) (hitems : items = []) :
    ∀ outcome ∈ outcomes, outcome = ⟨1, .error (.frame .ended), []⟩ := by
  induction h with
  | done => simp
  | @next stretch left call calls stretches outcomes _ _ _ ih =>
    obtain ⟨hstretch, rfl⟩ := List.append_eq_nil_iff.mp hitems
    obtain ⟨hpassed, hstop⟩ := List.append_eq_nil_iff.mp hstretch
    have hnone : stretch.stop = none := by simpa using hstop
    refine List.forall_mem_cons.mpr ⟨?_, ih rfl⟩
    rw [hpassed, hnone]
    rfl

theorem ended (h : InStep room items calls stretches outcomes) {k : Nat} {outcome : ReadOutcome}
    (hk : outcomes[k]? = some outcome) (hleft : outcome.left = []) :
    ∀ later ∈ outcomes.drop (k + 1), later = ⟨1, .error (.frame .ended), []⟩ := by
  induction h generalizing k with
  | done => cases hk
  | next _ _ hrest ih =>
    cases k with
    | zero =>
      obtain rfl := Option.some.inj hk
      exact hrest.of_nil hleft
    | succ k => exact ih hk

end InStep

/-- Calls of any kinds on one script all end, and they share the script out in its order: each takes
one stretch, with a reading call for every item that it passes over and one more, and after every
call the stretches taken so far and what is left make up the script. What a call comes to is what a
call of its kind makes of the item at which it stops; it stops at none only where nothing is left.
From then on every call comes to the end of the stream. -/
theorem calls_in_step (room : Room) {items : List Delivery} (h : ∀ d ∈ items, d.IsMet)
    (isOpen : Gate → Bool) (calls : List ReadCall) :
    ∃ stretches outcomes, ReadCall.performAll room isOpen items calls = some outcomes ∧
      List.Forall₂ Stretch.IsTakenBy stretches calls ∧
      outcomes.map (·.result) = calls.zipWith (ReadCall.answer room) (stretches.map (·.stop)) ∧
      outcomes.map (·.reads) = stretches.map (fun s => s.passed.length + 1) ∧
      ∀ k stretch outcome, stretches[k]? = some stretch → outcomes[k]? = some outcome →
        items = (stretches.take k).flatMap Stretch.items ++ stretch.items ++ outcome.left ∧
        (stretch.stop = none → outcome.left = []) ∧
        (outcome.left = [] →
          ∀ later ∈ outcomes.drop (k + 1), later = ⟨1, .error (.frame .ended), []⟩) := by
  obtain ⟨stretches, outcomes, hperform, hsteps⟩ := InStep.performAll h isOpen calls
  refine ⟨stretches, outcomes, hperform, hsteps.isTakenBy, hsteps.results, hsteps.reads, ?_⟩
  intro k stretch outcome hstretch hk
  obtain ⟨hitems, hend⟩ := hsteps.left hstretch hk
  exact ⟨hitems, hend, hsteps.ended hk⟩

/-- A script with a blank line, a line that is no JSON text, a reading call that is refused, another
blank line, and a last line without a line feed. -/
def Delivery.mixedScript : List Delivery :=
  [.bytes [13, 10], .bytes [120, 10], .mishap (.refused ⟨5, "I/O error", none⟩), .bytes [32, 10],
    .bytes [91, 93]]

/-- Calls of four kinds on this script. -/
theorem mixed_script_in_step :
    (∀ d ∈ Delivery.mixedScript, d.IsMet) ∧
    ∃ stretches outcomes,
      ReadCall.performAll .standard (fun _ => false) Delivery.mixedScript
        [.tree, .reply, .raw, .tree, .settings] = some outcomes ∧
      List.Forall₂ Stretch.IsTakenBy stretches [.tree, .reply, .raw, .tree, .settings] ∧
      outcomes.map (·.reads) = [2, 1, 1, 1, 1] ∧
      outcomes.map (·.result) =
        [.error (.frame (.malformed (.json .value ⟨0, 1, 1⟩))),
          .error (.frame (.unreadable ⟨5, "I/O error", none⟩)), .ok (.raw " "),
          .ok (.tree (.array [])), .error (.frame .ended)] := by
  have hmet : ∀ d ∈ Delivery.mixedScript, d.IsMet := by
    simp [Delivery.mixedScript, Delivery.IsMet]
  obtain ⟨stretches, outcomes, hperform, htaken, -⟩ :=
    calls_in_step .standard hmet (fun _ => false) [.tree, .reply, .raw, .tree, .settings]
  refine ⟨hmet, stretches, outcomes, hperform, htaken, ?_⟩
  obtain rfl := Option.some.inj hperform
  exact ⟨rfl, rfl⟩

end ParserClient
