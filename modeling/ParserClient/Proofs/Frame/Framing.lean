import ParserClient.Proofs.Frame.OneLine
import ParserClient.Proofs.Value.Walk

/-!
# Which messages have a frame

A message has a frame exactly if every part of it can be written: no set and no byte string is among
its values, no key is a container or a byte string, every integer keeps to the limit on digits, and
no text holds a lone half. The first two and the third keep a value from having a JSON text, the
last keeps the text from having bytes; all of them are faults of one kind, and come to light before
anything is written.

## Main definitions

* `Value.Part.Framable` — a part that can be written.

## Main results

* `Json.exists_write_iff` — the values that have a JSON text with bytes.
* `message_framed_iff` — the messages that have a frame, and what is called for the others.
-/

namespace ParserClient

/-- A part of a message can be written: it is nothing, a truth value, a float, an integer within the
limit or a text of characters, or a value that is a list, a tuple or a mapping. -/
def Value.Part.Framable : Value.Part → Prop
  | .value (.int n) => (Nat.toDigits 10 n.natAbs).length ≤ digitLimit
  | .value (.text t) => t.Scalar
  | .value (.bytes _) => False
  | .value (.set _) => False
  | .value _ => True
  | .key (.int n) => (Nat.toDigits 10 n.natAbs).length ≤ digitLimit
  | .key (.text t) => t.Scalar
  | .key .null => True
  | .key (.bool _) => True
  | .key (.float _) => True
  | .key _ => False

namespace Text

theorem scalar_append {s t : Text} : Scalar (s ++ t) ↔ s.Scalar ∧ t.Scalar :=
  List.forall_mem_append

/-- Joined texts hold characters only if each of them does. -/
theorem scalar_intercalate_iff {parts : List Text} :
    (intercalate "," parts).Scalar ↔ ∀ p ∈ parts, p.Scalar := by
  refine ⟨fun h => ?_, scalar_intercalate (by decide)⟩
  induction parts with
  | nil => simp
  | cons p parts ih =>
    cases parts with
    | nil =>
      rw [Json.intercalate_singleton] at h
      simpa using h
    | cons q parts =>
      rw [Json.intercalate_cons_cons, scalar_append, scalar_cons] at h
      exact List.forall_mem_cons.mpr ⟨h.1, ih h.2.2⟩

end Text

namespace Json

open Value (Part)

/-! ### Strings, numbers and keys -/

/-- A lone half is written as itself. -/
theorem writePoint_lone (half : Fin 0x800) : writePoint (.lone half) = [.lone half] := by
  have hnat : ¬ (CodePoint.lone half).toNat < 0x20 := by
    simp only [CodePoint.toNat]
    omega
  simp [writePoint, hnat]

theorem scalar_writeString_iff {t : Text} : (writeString t).Scalar ↔ t.Scalar := by
  refine ⟨fun h c hc => ?_, fun h => (flat_writeString h).scalar⟩
  cases c with
  | scalar c => rfl
  | lone half =>
    refine h _ (List.mem_append_left _ (List.mem_cons_of_mem _ ?_))
    exact List.mem_flatMap.mpr ⟨_, hc, by simp [writePoint_lone]⟩

theorem exists_writeInt_iff {n : Int} :
    (∃ t, writeInt n = .ok t ∧ t.Scalar) ↔ (Nat.toDigits 10 n.natAbs).length ≤ digitLimit := by
  constructor
  · rintro ⟨t, ht, -⟩
    exact (writeInt_eq_ok ht).1
  · intro h
    refine ⟨Integer.text n, ?_, Integer.scalar_text n⟩
    rw [writeInt, Integer.text?, if_pos h]
    rfl

theorem scalar_double (x : Double) : (x.text numberWords).Scalar :=
  Double.scalar_text (by decide) (by decide) x

theorem scalar_truth (b : Bool) : (truth b).Scalar := by cases b <;> decide

/-- A value that is written as it stands has a text of characters. -/
theorem exists_ok_iff {t : Text} :
    (∃ s, (Except.ok t : Except WriteFault Text) = .ok s ∧ s.Scalar) ↔ t.Scalar := by
  simp

theorem exists_keyText_iff {k : Value} :
    (∃ s, keyText k = .ok s ∧ s.Scalar) ↔ (Part.key k).Framable := by
  cases k with
  | null => exact iff_of_true ⟨_, rfl, by decide⟩ trivial
  | bool b => exact iff_of_true ⟨_, rfl, scalar_truth b⟩ trivial
  | float x => exact iff_of_true ⟨_, rfl, scalar_double x⟩ trivial
  | int n => exact exists_writeInt_iff
  | text t => exact exists_ok_iff
  | _ => exact iff_of_false (fun ⟨_, h, _⟩ => nomatch h) id

/-! ### Values -/

/-- The text of an entry. -/
def writeEntry (e : Value × Value) : Except WriteFault Text := do
  let key ← keyText e.1
  let value ← write e.2
  return writeString key ++ .scalar ':' :: value

theorem writeItems_eq_mapM (items : List Value) : writeItems items = items.mapM write := by
  induction items with
  | nil => rfl
  | cons v rest ih => rw [writeItems, List.mapM_cons, ih]

theorem writeEntries_eq_mapM (entries : Entries) :
    writeEntries entries = entries.mapM writeEntry := by
  induction entries with
  | nil => rfl
  | cons e rest ih =>
    obtain ⟨k, v⟩ := e
    rw [List.mapM_cons, writeEntry, ← ih, writeEntries]
    cases keyText k with
    | error f => rfl
    | ok key => cases write v <;> rfl

theorem exists_writeEntry_iff {e : Value × Value} :
    (∃ t, writeEntry e = .ok t ∧ t.Scalar) ↔
      (∃ s, keyText e.1 = .ok s ∧ s.Scalar) ∧ ∃ t, write e.2 = .ok t ∧ t.Scalar := by
  constructor
  · rintro ⟨t, h, ht⟩
    obtain ⟨key, hkey, h⟩ := exists_of_bind h
    obtain ⟨value, hvalue, ⟨⟩⟩ := exists_of_bind h
    rw [Text.scalar_append, Text.scalar_cons, scalar_writeString_iff] at ht
    exact ⟨⟨key, hkey, ht.1⟩, value, hvalue, ht.2.2⟩
  · rintro ⟨⟨key, hkey, hs⟩, value, hvalue, ht⟩
    refine ⟨writeString key ++ .scalar ':' :: value, ?_, ?_⟩
    · rw [writeEntry, hkey, hvalue]
      rfl
    · rw [Text.scalar_append, Text.scalar_cons, scalar_writeString_iff]
      exact ⟨hs, rfl, ht⟩

/-- The text of a container has bytes if those of its parts do. -/
theorem exists_enclosed_iff {l r : Char} {results : Except WriteFault (List Text)} :
    (∃ t : Text, (do
        let parts ← results
        return (CodePoint.scalar l :: Text.intercalate "," parts) ++ [CodePoint.scalar r]) = .ok t ∧
          t.Scalar) ↔
      ∃ parts, results = .ok parts ∧ ∀ p ∈ parts, p.Scalar := by
  have hscalar : ∀ parts,
      Text.Scalar ((.scalar l :: Text.intercalate "," parts) ++ [.scalar r]) ↔
        ∀ p ∈ parts, p.Scalar := fun parts => by
    simp [Text.scalar_append, Text.scalar_intercalate_iff, CodePoint.isScalar]
  constructor
  · rintro ⟨t, h, ht⟩
    obtain ⟨parts, hparts, ⟨⟩⟩ := exists_of_bind h
    exact ⟨parts, hparts, (hscalar parts).mp ht⟩
  · rintro ⟨parts, rfl, h⟩
    exact ⟨_, rfl, (hscalar parts).mpr h⟩

/-- A value has a JSON text of characters exactly if every part of it can be written. -/
theorem exists_write_iff (v : Value) :
    (∃ t, write v = .ok t ∧ t.Scalar) ↔ (Part.value v).All Part.Framable := by
  induction v using Value.nestedInduction with
  | null => exact iff_of_true ⟨_, rfl, by decide⟩ ((Part.all_leaf_iff rfl).mpr trivial)
  | bool b => exact iff_of_true ⟨_, rfl, scalar_truth b⟩ ((Part.all_leaf_iff rfl).mpr trivial)
  | float x => exact iff_of_true ⟨_, rfl, scalar_double x⟩ ((Part.all_leaf_iff rfl).mpr trivial)
  | int n =>
    refine Iff.trans ?_ (Part.all_leaf_iff rfl).symm
    exact exists_writeInt_iff
  | text t =>
    refine Iff.trans ?_ (Part.all_leaf_iff rfl).symm
    exact exists_ok_iff.trans scalar_writeString_iff
  | bytes | set => exact iff_of_false (fun ⟨_, h, _⟩ => nomatch h) fun h => Part.all_iff.mp h |>.1
  | list items ih | tuple items ih =>
    rw [write, exists_enclosed_iff, writeItems_eq_mapM, exists_mapM_eq_ok_iff, Part.all_iff]
    refine (forall₂_congr ih).trans (Part.all_items_iff.symm.trans ?_)
    exact (and_iff_right trivial).symm
  | mapping entries ih =>
    rw [write, exists_enclosed_iff, writeEntries_eq_mapM, exists_mapM_eq_ok_iff, Part.all_iff]
    have hentries := fun e he =>
      exists_writeEntry_iff.trans (and_congr exists_keyText_iff (ih e he))
    refine (forall₂_congr hentries).trans (Part.all_entries_iff.symm.trans ?_)
    exact (and_iff_right trivial).symm

end Json

/-! ### Frames -/

namespace Frame

theorem exists_ofValue_iff {message : Value} :
    (∃ frame, ofValue message = .ok frame) ↔ ∃ t, Json.write message = .ok t ∧ t.Scalar := by
  constructor
  · rintro ⟨frame, h⟩
    obtain ⟨t, hwrite, hframe⟩ := ofValue_eq_ok h
    exact ⟨t, hwrite, (Text.scalar_append.mp (Utf8.scalar_of_encodeFrom hframe)).1⟩
  · rintro ⟨t, hwrite, ht⟩
    obtain ⟨frame, hframe⟩ := Utf8.encode_of_scalar (ht.append (Text.scalar_ofString "\n"))
    exact ⟨frame, by simp only [ofValue, hwrite, hframe]⟩

/-- What keeps a message from having a frame is a fault of one kind. -/
theorem ofValue_eq_error {message : Value} {f : FrameFault} (h : ofValue message = .error f) :
    ∃ cause, f = .unencodable cause := by
  unfold ofValue at h
  split at h
  · exact ⟨_, (Except.error.inj h).symm⟩
  · split at h
    · exact ⟨_, (Except.error.inj h).symm⟩
    · cases h

end Frame

/-- A message has a frame exactly if every part of it can be written. Any other message is refused
as one that cannot be encoded, and an outlet that is to send it is not called and left as it is. -/
theorem message_framed_iff (entries : Entries) :
    ((∃ frame, Frame.ofValue (.mapping entries) = .ok frame) ↔
      (Value.Part.value (.mapping entries)).All Value.Part.Framable) ∧
    (¬ (Value.Part.value (.mapping entries)).All Value.Part.Framable →
      ∃ cause, Frame.ofValue (.mapping entries) = .error (.unencodable cause) ∧
        ∀ o : Outlet, o.sendValue (.mapping entries) = ([], .error (.unencodable cause), o)) := by
  have hframed := Frame.exists_ofValue_iff.trans (Json.exists_write_iff (.mapping entries))
  refine ⟨hframed, fun hparts => ?_⟩
  cases h : Frame.ofValue (.mapping entries) with
  | ok frame => exact absurd (hframed.mp ⟨frame, h⟩) hparts
  | error f =>
    obtain ⟨cause, rfl⟩ := Frame.ofValue_eq_error h
    exact ⟨cause, rfl, fun o => by simp only [Outlet.sendValue, h]⟩

/-- The entries of a message with a lone half in a key, three levels down. -/
def Entries.loneKey : Entries :=
  [(.null, .float .nan),
    (.text "a", .list [.tuple [.mapping [(.text [.ofNat 0xD800], .bool true)]]])]

theorem lone_key_unframed :
    ¬ (Value.Part.value (.mapping Entries.loneKey)).All Value.Part.Framable ∧
    ∃ cause, Frame.ofValue (.mapping Entries.loneKey) = .error (.unencodable cause) ∧
      Outlet.sendValue ⟨[], [], none⟩ (.mapping Entries.loneKey) =
        ([], .error (.unencodable cause), ⟨[], [], none⟩) := by
  have hparts : ¬ (Value.Part.value (.mapping Entries.loneKey)).All Value.Part.Framable := by
    intro h
    -- the second entry's value, the tuple, the mapping and the key in it
    have hkey : Text.Scalar [.ofNat 0xD800] := h [3, 0, 0, 0] _ rfl
    exact absurd hkey (by decide)
  obtain ⟨cause, hframe, hsend⟩ := (message_framed_iff Entries.loneKey).2 hparts
  exact ⟨hparts, cause, hframe, hsend _⟩

end ParserClient
