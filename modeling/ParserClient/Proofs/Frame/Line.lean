import ParserClient.Frame.Reading
import ParserClient.Frame.Writing
import ParserClient.Proofs.Json.Values
import ParserClient.Proofs.Text.Utf8

/-!
# A message is one line that is read back

A value is *plain* if JSON has words for all of it: no floats, byte strings or sets, keys that are
texts and differ, texts that hold characters, integers within the limit, and containers that are
not nested too deep. Such a value has a frame, which is one line and not a blank one, and the line
is read as the tree of the value. Nothing is said about floats, whose text need not be the one they
were read from.

## Main definitions

* `Value.Plain` — plain values whose containers nest no deeper than a depth.
* `Value.Written` — the text of a value stands for its tree.
* `Frame.IsLine` — a byte string that is one line, and not blank.

## Main results

* `Value.Plain.stands` — a plain value is written so, on one line.
* `Frame.of_plain` — the frame of a plain value is one line, read as its tree.
-/

namespace ParserClient

namespace Value

/-- A value that is read back as it was written. -/
inductive Plain : Nat → Value → Prop
  | null {depth : Nat} : Plain depth .null
  | bool {depth : Nat} (b : Bool) : Plain depth (.bool b)
  | int {depth : Nat} {n : Int} (hdigits : (Nat.toDigits 10 n.natAbs).length ≤ digitLimit) :
      Plain depth (.int n)
  | text {depth : Nat} {t : Text} (ht : t.Scalar) : Plain depth (.text t)
  | list {depth : Nat} {items : List Value} (hitems : ∀ v ∈ items, Plain depth v) :
      Plain (depth + 1) (.list items)
  | tuple {depth : Nat} {items : List Value} (hitems : ∀ v ∈ items, Plain depth v) :
      Plain (depth + 1) (.tuple items)
  | mapping {depth : Nat} {fields : List (Text × Value)} (hkeys : (fields.map (·.1)).Nodup)
      (hscalar : ∀ f ∈ fields, f.1.Scalar) (hfields : ∀ f ∈ fields, Plain depth f.2) :
      Plain (depth + 1) (.mapping (fields.map fun f => (.text f.1, f.2)))

/-- The JSON text of a value stands for its tree, and for nothing else, on one line. -/
def Written (depth : Nat) (v : Value) (part : Text) (t : Tree) : Prop :=
  Json.write v = .ok part ∧ Tree.ofValue v = .ok t ∧ Json.Stands depth part t ∧ part.Flat

theorem flat_digits {n : Nat} : Text.Flat (Natural.text n) := by
  intro c hc
  obtain ⟨d, hd, rfl⟩ := List.mem_map.mp hc
  have hdigit := Natural.isDigit_of_mem hd
  have hfeed : d ≠ '\n' := by
    rintro rfl
    exact absurd hdigit (by decide)
  simpa [CodePoint.isFlat, CodePoint.isScalar] using hfeed

theorem flat_text (n : Int) : Text.Flat (Integer.text n) := by
  cases n with
  | ofNat n => exact flat_digits
  | negSucc n => exact Text.flat_cons.mpr ⟨rfl, flat_digits⟩

theorem written_items {depth : Nat} {items : List Value}
    (h : ∀ v ∈ items, ∃ part t, Written depth v part t) :
    ∃ parts trees, Json.writeItems items = .ok parts ∧ Tree.ofItems items = .ok trees ∧
      List.Forall₂ (Json.Stands depth) parts trees ∧ ∀ p ∈ parts, p.Flat := by
  induction items with
  | nil => exact ⟨[], [], rfl, rfl, .nil, by simp⟩
  | cons v items ih =>
    obtain ⟨part, t, hwrite, htree, hstands, hflat⟩ := h v List.mem_cons_self
    obtain ⟨parts, trees, hwrites, htrees, hall, hflats⟩ :=
      ih fun w hw => h w (List.mem_cons_of_mem v hw)
    refine ⟨part :: parts, t :: trees, ?_, ?_, .cons hstands hall,
      List.forall_mem_cons.mpr ⟨hflat, hflats⟩⟩
    · rw [Json.writeItems, hwrite, hwrites]
      rfl
    · rw [Tree.ofItems, htree, htrees]
      rfl

theorem written_fields {depth : Nat} {fields : List (Text × Value)}
    (hscalar : ∀ f ∈ fields, f.1.Scalar) (h : ∀ f ∈ fields, ∃ part t, Written depth f.2 part t) :
    ∃ parts all, Json.writeEntries (fields.map fun f => (.text f.1, f.2)) = .ok parts ∧
      Tree.ofEntries (fields.map fun f => (.text f.1, f.2)) = .ok all ∧
      List.Forall₂ (Json.FieldStands depth) parts all ∧ (∀ p ∈ parts, p.Flat) ∧
      all.map (·.1) = fields.map (·.1) := by
  induction fields with
  | nil => exact ⟨[], [], rfl, rfl, .nil, by simp, rfl⟩
  | cons f fields ih =>
    obtain ⟨part, t, hwrite, htree, hstands, hflat⟩ := h f List.mem_cons_self
    obtain ⟨parts, all, hwrites, htrees, hall, hflats, hnames⟩ :=
      ih (fun g hg => hscalar g (List.mem_cons_of_mem f hg))
        fun g hg => h g (List.mem_cons_of_mem f hg)
    have hkey := Json.flat_writeString (hscalar f List.mem_cons_self)
    refine ⟨(Json.writeString f.1 ++ .scalar ':' :: part) :: parts, (f.1, t) :: all, ?_, ?_,
      .cons ⟨part, rfl, hstands⟩ hall, List.forall_mem_cons.mpr ⟨?_, hflats⟩, ?_⟩
    · rw [List.map_cons, Json.writeEntries, hwrite, hwrites]
      rfl
    · rw [List.map_cons, Tree.ofEntries, htree, htrees]
      rfl
    · exact Text.flat_append.mpr ⟨hkey, Text.flat_cons.mpr ⟨rfl, hflat⟩⟩
    · rw [List.map_cons, List.map_cons, hnames]

theorem flat_enclosed {l r : CodePoint} (hl : l.isFlat = true) (hr : r.isFlat = true)
    {parts : List Text} (h : ∀ p ∈ parts, p.Flat) :
    Text.Flat ((l :: Text.intercalate "," parts) ++ [r]) := by
  simp [hl, hr, Json.flat_intercalate h]

/-- The text of a plain value stands for its tree. -/
theorem Plain.stands {depth : Nat} {v : Value} (h : Plain depth v) :
    ∃ part t, Written depth v part t := by
  induction h with
  | null => exact ⟨_, _, rfl, rfl, .null, by decide⟩
  | bool b => exact ⟨_, _, rfl, rfl, .bool b, by cases b <;> decide⟩
  | @int depth n hdigits =>
    refine ⟨_, _, ?_, rfl, .int hdigits, flat_text n⟩
    rw [Json.write, Json.writeInt, Integer.text?, if_pos hdigits]
    rfl
  | text ht => exact ⟨_, _, rfl, rfl, .text _, Json.flat_writeString ht⟩
  | list _ ih =>
    obtain ⟨parts, trees, hwrites, htrees, hall, hflats⟩ := written_items ih
    refine ⟨_, _, ?_, ?_, .array hall, flat_enclosed rfl rfl hflats⟩
    · rw [Json.write, hwrites]
      rfl
    · rw [Tree.ofValue, htrees]
      rfl
  | tuple _ ih =>
    obtain ⟨parts, trees, hwrites, htrees, hall, hflats⟩ := written_items ih
    refine ⟨_, _, ?_, ?_, .array hall, flat_enclosed rfl rfl hflats⟩
    · rw [Json.write, hwrites]
      rfl
    · rw [Tree.ofValue, htrees]
      rfl
  | mapping hkeys hscalar _ ih =>
    obtain ⟨parts, all, hwrites, htrees, hall, hflats, hnames⟩ := written_fields hscalar ih
    refine ⟨_, _, ?_, ?_, .object hall (hnames ▸ hkeys), flat_enclosed rfl rfl hflats⟩
    · rw [Json.write, hwrites]
      rfl
    · rw [Tree.ofValue, htrees]
      rfl

end Value

/-! ### Lines -/

/-- A text that stands for a tree is read whole, with a line feed behind it. -/
theorem Json.read_line {depth : Nat} {part : Text} {t : Tree} (h : Json.Stands depth part t) :
    Json.read depth (part ++ ("\n" : Text)) = .ok t := by
  have hvalue := h.reads ("\n" : Text) (Json.behind_cons (by decide))
  have hskip := (h.begins.append ("\n" : Text)).skipSpace
  have hmark : (part ++ ("\n" : Text)).head? ≠ some (.ofNat 0xFEFF) := by
    obtain ⟨c, s, rfl, hsign, -⟩ := h.begins
    intro hhead
    obtain rfl : c = .ofNat 0xFEFF := Option.some.inj hhead
    exact absurd hsign.2 (by decide)
  unfold Json.read Json.document
  rw [if_neg hmark, hskip, hvalue]
  rfl

namespace Frame

/-- The bytes are one line, which does not hold white space only. -/
structure IsLine (line : Bytes) : Prop where
  ends : ∃ body, line = body ++ [10] ∧ 10 ∉ body
  shown : isBlank line = false

theorem encode_append_feed {t : Text} {bytes : Bytes} (h : Utf8.encode t = .ok bytes) :
    Utf8.encode (t ++ ("\n" : Text)) = .ok (bytes ++ [10]) := by
  obtain ⟨s, rfl, rfl⟩ := Utf8.encode_eq_ok_iff.mp h
  refine Utf8.encode_eq_ok_iff.mpr ⟨s ++ ['\n'], by simp [Text.ofString], ?_⟩
  rw [List.flatMap_append]
  rfl

/-- The bytes of a text on one line hold no line feed. -/
theorem feed_notMem {t : Text} {bytes : Bytes} (h : Utf8.encode t = .ok bytes) (ht : t.Flat) :
    10 ∉ bytes := by
  obtain ⟨s, rfl, rfl⟩ := Utf8.encode_eq_ok_iff.mp h
  intro hmem
  obtain ⟨c, hc, hbyte⟩ := List.mem_flatMap.mp hmem
  have hfeed : c = '\n' := by
    rw [← Char.ofNat_toNat c, (Utf8.mem_utf8EncodeChar_iff (by decide) c).mp hbyte]
    rfl
  exact ht.not_mem (List.mem_map.mpr ⟨c, hc, by rw [hfeed]⟩)

theorem toNat_of_isBlankByte {b : UInt8} (h : isBlankByte b = true) : b.toNat ≤ 32 := by
  simp only [isBlankByte, Bool.or_eq_true, Bool.and_eq_true, decide_eq_true_eq,
    UInt8.le_iff_toNat_le, ← UInt8.toNat_inj, UInt8.reduceToNat] at h
  omega

/-- A visible sign is no white space on the wire. -/
theorem not_isBlank {t : Text} {bytes : Bytes} (h : Utf8.encode t = .ok bytes)
    (ht : Json.Begins t) : isBlank bytes = false := by
  obtain ⟨s, rfl, rfl⟩ := Utf8.encode_eq_ok_iff.mp h
  obtain ⟨sign, rest, hcons, hsign, -⟩ := ht
  obtain ⟨c, s, rfl, rfl, -⟩ := List.map_eq_cons_iff.mp hcons
  obtain ⟨b, bytes, hbytes⟩ := List.exists_cons_of_ne_nil (String.utf8EncodeChar_ne_nil (c := c))
  rw [List.flatMap_cons, hbytes, List.cons_append, isBlank, List.all_cons, Bool.and_eq_false_iff]
  left
  by_contra hblank
  have hb := toNat_of_isBlankByte (Bool.not_eq_false _ ▸ hblank)
  have hc := (Utf8.mem_utf8EncodeChar_iff (by omega) c).mp (hbytes ▸ List.mem_cons_self)
  exact absurd hsign.1 (by simp only [CodePoint.toNat]; omega)

theorem isLine_of_encode {t : Text} {bytes : Bytes}
    (h : Utf8.encode (t ++ ("\n" : Text)) = .ok bytes)
    (ht : t.Flat) (hbegins : Json.Begins t) : IsLine bytes := by
  obtain ⟨body, hbody⟩ := Utf8.encode_of_scalar ht.scalar
  rw [encode_append_feed hbody] at h
  obtain rfl := Except.ok.inj h
  refine ⟨⟨body, rfl, feed_notMem hbody ht⟩, ?_⟩
  rw [isBlank, List.all_append]
  simp [show body.all isBlankByte = false from not_isBlank hbody hbegins]

/-- A plain value has a frame, which is one line and read as the tree of the value. -/
theorem of_plain {room : Room} {v : Value} (h : v.Plain room.depth) :
    ∃ frame t, ofValue v = .ok frame ∧ Tree.ofValue v = .ok t ∧ IsLine frame ∧
      readTree room frame = .ok t := by
  obtain ⟨part, t, hwrite, htree, hstands, hflat⟩ := h.stands
  obtain ⟨frame, hframe⟩ := Utf8.encode_of_scalar (hflat.scalar.append (Text.scalar_ofString "\n"))
  refine ⟨frame, t, ?_, htree, isLine_of_encode hframe hflat hstands.begins, ?_⟩
  · rw [ofValue, hwrite]
    simp only [hframe]
  · rw [readTree, Utf8.decode_of_encode hframe]
    simp only [Json.read_line hstands]

end Frame

end ParserClient
