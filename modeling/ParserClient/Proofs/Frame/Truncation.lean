import ParserClient.Proofs.Frame.Escapes
import ParserClient.Proofs.Json.Extension

/-!
# An object that has been cut short is not read

The last line of a stream is handed out without a line feed as it would be with one, so a reader is
not told that the writer has stopped in the middle of it. The text tells it: an object is closed by
its brace, and no text in front of that brace is a JSON text. A cut inside a character is not even
a text. So of the cuts of a line that holds an object only those behind the brace are read, and they
are read as the same object.

Nothing of the kind holds of numbers: `12` is cut from `123`.

## Main results

* `Frame.readTree_of_append` — what is read of the front of an object.
* `Inlet.pullMessage_of_notMem` — the line at which a call stops on a stream without a line feed.
* `truncated_object_unread` — the cuts of a line that holds an object.
-/

namespace ParserClient

/-! ### The front of an object -/

namespace Frame

variable {room : Room} {front rest : Bytes} {tree : Tree} {fields : List (Text × Tree)}

/-- Space is one byte: a space, a tab, a line feed or a carriage return. -/
theorem exists_byte_of_isSpace {c : Char} (h : Json.isSpace (.scalar c) = true) :
    ∃ b ∈ ([9, 10, 13, 32] : Bytes), String.utf8EncodeChar c = [b] := by
  simp only [Json.isSpace, Bool.or_eq_true, decide_eq_true_eq, CodePoint.scalar.injEq] at h
  rcases h with ((rfl | rfl) | rfl) | rfl
  · exact ⟨32, by decide, rfl⟩
  · exact ⟨9, by decide, rfl⟩
  · exact ⟨10, by decide, rfl⟩
  · exact ⟨13, by decide, rfl⟩

theorem mem_space_of_decode {t : Text} {bytes : Bytes} (h : Utf8.decode bytes = .ok t)
    (ht : ∀ c ∈ t, Json.isSpace c = true) : ∀ b ∈ bytes, b ∈ ([9, 10, 13, 32] : Bytes) := by
  obtain ⟨s, rfl, rfl⟩ := Utf8.encode_eq_ok_iff.mp (Utf8.decode_eq_ok_iff.mp h)
  intro b hb
  obtain ⟨c, hc, hb⟩ := List.mem_flatMap.mp hb
  obtain ⟨d, hd, hbytes⟩ := exists_byte_of_isSpace (ht _ (List.mem_map_of_mem hc))
  rw [hbytes, List.mem_singleton] at hb
  exact hb ▸ hd

/-- What is read of bytes that go on to be an object is the object, and then they go on with space
only. -/
theorem readTree_of_append (h : readTree room (front ++ rest) = .ok (.object fields))
    (hfront : readTree room front = .ok tree) :
    tree = .object fields ∧ ∀ b ∈ rest, b ∈ ([9, 10, 13, 32] : Bytes) := by
  obtain ⟨t, hdecode, hread⟩ := readTree_eq_ok h
  obtain ⟨s, hdecode', hread'⟩ := readTree_eq_ok hfront
  obtain ⟨u, rfl, hrest⟩ := Utf8.exists_of_decode_append hdecode hdecode'
  obtain ⟨htree, hspace⟩ := Json.document_of_append (Json.read_eq_ok_iff.mp hread)
    (Json.read_eq_ok_iff.mp hread')
  exact ⟨htree, mem_space_of_decode hrest hspace⟩

end Frame

/-! ### The last line of a stream -/

theorem linesOf_of_notMem {bytes : Bytes} (h : 10 ∉ bytes) (hsome : bytes ≠ []) :
    linesOf bytes = [bytes] := by
  induction bytes with
  | nil => exact absurd rfl hsome
  | cons b rest ih =>
    simp only [List.mem_cons, not_or] at h
    rw [linesOf, if_neg fun heq => h.1 heq.symm]
    cases rest with
    | nil => rfl
    | cons c rest => rw [ih h.2 (List.cons_ne_nil c rest)]

/-- A line has no line feed but at its end. -/
theorem notMem_of_linesOf {front rest : Bytes} (h : linesOf (front ++ rest) = [front ++ rest])
    (hrest : rest ≠ []) : 10 ∉ front := by
  intro hfeed
  obtain ⟨s, t, rfl⟩ := List.append_of_mem hfeed
  rw [List.append_assoc, List.cons_append, linesOf_append_feed] at h
  have hfirst := linesOf_ne_nil (List.append_ne_nil_of_right_ne_nil s (List.cons_ne_nil 10 []))
  have hlast := linesOf_ne_nil (List.append_ne_nil_of_right_ne_nil t hrest)
  have hlength := congrArg List.length h
  have := List.length_pos_iff.mpr hfirst
  have := List.length_pos_iff.mpr hlast
  rw [List.length_append, List.length_singleton] at hlength
  omega

/-- A call for a message stops at the one line of a stream without a line feed, if that is not
blank, and else at the end of the stream. -/
theorem Inlet.pullMessage_of_notMem {bytes : Bytes} (h : 10 ∉ bytes) (isOpen : Gate → Bool) :
    ∃ reads stop, pullMessage isOpen (Delivery.ofBytes bytes) = some (reads, stop, []) ∧
      (stop = .error .ended ∨ stop = .ok bytes) := by
  by_cases hsome : bytes = []
  · subst hsome
    exact ⟨1, _, rfl, .inl rfl⟩
  · have hempty : bytes.isEmpty = false := by simpa using hsome
    rw [Delivery.ofBytes, linesOf_of_notMem h hsome, List.map_singleton, pullMessage]
    cases hblank : Frame.isBlank bytes with
    | true => exact ⟨2, _, by simp only [hempty]; rfl, .inl rfl⟩
    | false => exact ⟨1, _, by simp only [hempty]; rfl, .inr rfl⟩

/-- No cut of a line that holds an object is read as anything else. If more than space is cut off,
nothing is read of the stream that is left: a call for a message fails, whatever message is asked
for, and there is nothing behind the line at which it stops. -/
theorem truncated_object_unread {room : Room} {line cut lost : Bytes}
    {fields : List (Text × Tree)} (hline : linesOf line = [line])
    (hobject : Frame.readTree room line = .ok (.object fields)) (hcut : line = cut ++ lost) :
    (∀ tree, Frame.readTree room cut = .ok tree → tree = .object fields) ∧
    ((∃ b ∈ lost, b ∉ ([9, 10, 13, 32] : Bytes)) → ∀ isOpen : Gate → Bool,
      ∃ reads stop, Inlet.pullMessage isOpen (Delivery.ofBytes cut) = some (reads, stop, []) ∧
        (∀ call, call ≠ .raw → ∃ f,
          ReadCall.perform room isOpen (Delivery.ofBytes cut) call = some ⟨reads, .error f, []⟩) ∧
        ∀ (α : Type) (fits : Tree → Bool) (shape : Shape)
          (ofValue : Value → Except (List Issue) α), ∃ f,
          (stop.mapError .frame).bind (Frame.readAs room fits shape ofValue) = .error f) := by
  subst hcut
  refine ⟨fun tree htree => (Frame.readTree_of_append hobject htree).1, ?_⟩
  rintro ⟨b, hb, hspace⟩ isOpen
  obtain ⟨f, hunread⟩ : ∃ f, Frame.readTree room cut = .error f := by
    cases hread : Frame.readTree room cut with
    | error f => exact ⟨f, rfl⟩
    | ok tree => exact absurd ((Frame.readTree_of_append hobject hread).2 b hb) hspace
  have hfeed : 10 ∉ cut := notMem_of_linesOf hline (List.ne_nil_of_mem hb)
  obtain ⟨reads, stop, hpull, hstop⟩ := Inlet.pullMessage_of_notMem hfeed isOpen
  have hfails {α : Type} (make : Bytes → Except Fault α) (hmake : make cut = .error f) :
      ∃ g, (stop.mapError .frame).bind make = .error g := by
    rcases hstop with rfl | rfl
    · exact ⟨_, rfl⟩
    · exact ⟨f, hmake⟩
  refine ⟨reads, stop, hpull, fun call hcall => ?_, fun α fits shape ofValue => ?_⟩
  · obtain ⟨g, hg⟩ := hfails (fun line => call.ofLine room line)
      (ReadCall.ofLine_of_readTree_error hcall hunread)
    refine ⟨g, ?_⟩
    rw [ReadCall.perform, ReadCall.pull_of_ne_raw hcall, hpull, Option.map_some, ← hg]
  · exact hfails _ (Frame.readAs_of_readTree_error hunread)

/-- A line with an object, of which the last character in front of the brace has two bytes. -/
def Frame.accentedLine : Bytes := [123, 34, 97, 34, 58, 34, 195, 169, 34, 125, 13, 10]

/-- The line is cut between the two bytes. -/
theorem half_character_unread :
    linesOf Frame.accentedLine = [Frame.accentedLine] ∧
    (∃ fields, Frame.readTree .standard Frame.accentedLine = .ok (.object fields)) ∧
    Frame.accentedLine = [123, 34, 97, 34, 58, 34, 195] ++ [169, 34, 125, 13, 10] ∧
    (∃ b ∈ [169, 34, 125, 13, 10], b ∉ ([9, 10, 13, 32] : Bytes)) ∧
    ∀ call : ReadCall, call ≠ .raw → ∃ reads f,
      call.perform .standard (fun _ => false) (Delivery.ofBytes [123, 34, 97, 34, 58, 34, 195]) =
        some ⟨reads, .error f, []⟩ := by
  have hcut : Frame.accentedLine = [123, 34, 97, 34, 58, 34, 195] ++ [169, 34, 125, 13, 10] := rfl
  have hlost : ∃ b ∈ [169, 34, 125, 13, 10], b ∉ ([9, 10, 13, 32] : Bytes) :=
    ⟨169, by decide, by decide⟩
  obtain ⟨fields, hobject⟩ :
      ∃ fields, Frame.readTree .standard Frame.accentedLine = .ok (.object fields) := ⟨_, rfl⟩
  obtain ⟨reads, stop, -, hcalls, -⟩ :=
    (truncated_object_unread rfl hobject hcut).2 hlost fun _ => false
  refine ⟨rfl, ⟨fields, hobject⟩, hcut, hlost, fun call hcall => ?_⟩
  obtain ⟨f, hperform⟩ := hcalls call hcall
  exact ⟨reads, f, hperform⟩

end ParserClient
