import ParserClient.ContentEncoding
import ParserClient.Proofs.Base64.Bytes
import ParserClient.Proofs.Text.Words

/-!
# Content is read from the wire as it was written

Byte strings are read back in base 64, so content that has bytes is read back in either encoding.
What stands on the wire holds characters only. A tag names its encoding in any case of its letters.

## Main results

* `ContentEncoding.decode_of_encode` — content is read back.
* `ContentEncoding.decode_base64_eq_ok_iff` — the texts that are read in base 64.
* `ContentEncoding.ofValue_text_iff`, `ContentEncoding.ofValue_text_eq_error_iff` — which texts are
  tags.
-/

namespace ParserClient

/-- Nothing is added to what succeeds when a fault is reworded. -/
theorem mapError_eq_ok_iff {ε ε' α : Type} {r : Except ε α} {f : ε → ε'} {a : α} :
    r.mapError f = .ok a ↔ r = .ok a := by
  cases r <;> simp [Except.mapError]

namespace ContentEncoding

variable {e : ContentEncoding} {content wire : Text}

theorem encode_of_scalar (e : ContentEncoding) (h : content.Scalar) :
    ∃ wire, e.encode content = .ok wire := by
  obtain ⟨bytes, hbytes⟩ := Utf8.encode_of_scalar h
  cases e with
  | utf8 => exact ⟨content, by simp only [encode, hbytes]⟩
  | base64 => exact ⟨Base64.encode bytes, by simp only [encode, hbytes]⟩

/-- What stands on the wire, and the bytes of the content in it. -/
theorem encode_eq_ok (h : e.encode content = .ok wire) :
    ∃ bytes, Utf8.encode content = .ok bytes ∧
      (e = .utf8 ∧ wire = content ∨ e = .base64 ∧ wire = Base64.encode bytes) := by
  unfold encode at h
  cases hbytes : Utf8.encode content with
  | error f =>
    rw [hbytes] at h
    cases h
  | ok bytes =>
    rw [hbytes] at h
    cases e with
    | utf8 => exact ⟨bytes, rfl, .inl ⟨rfl, (Except.ok.inj h).symm⟩⟩
    | base64 => exact ⟨bytes, rfl, .inr ⟨rfl, (Except.ok.inj h).symm⟩⟩

theorem encode_eq_error_iff {cause : Utf8.Unencodable} :
    e.encode content = .error cause ↔ Utf8.encode content = .error cause := by
  unfold encode
  cases Utf8.encode content with
  | error f => simp only [Except.error.injEq]
  | ok bytes => cases e <;> exact iff_of_false nofun nofun

/-- Content is read back from the wire. -/
theorem decode_of_encode (h : e.encode content = .ok wire) : e.decode wire = .ok content := by
  obtain ⟨bytes, hbytes, ⟨rfl, rfl⟩ | ⟨rfl, rfl⟩⟩ := encode_eq_ok h
  · rfl
  · rw [decode, Base64.decode_encode]
    simp only [Utf8.decode_of_encode hbytes]
    rfl

/-- A text is read in base 64 as the text whose bytes it stands for. -/
theorem decode_base64_eq_ok_iff : base64.decode wire = .ok content ↔
    ∃ x : String, content = .ofString x ∧ Base64.Accepts wire x.toUTF8.data.toList := by
  constructor
  · intro h
    cases hbytes : Base64.decode wire with
    | error f =>
      rw [decode, hbytes] at h
      cases h
    | ok bytes =>
      simp only [decode, hbytes, mapError_eq_ok_iff] at h
      have hencode := Utf8.decode_eq_ok_iff.mp h
      obtain ⟨x, rfl⟩ := Text.scalar_iff_ofString.mp (Utf8.scalar_of_encodeFrom hencode)
      obtain rfl := Except.ok.inj ((Utf8.encode_ofString x).symm.trans hencode)
      exact ⟨x, rfl, Base64.decode_eq_ok_iff.mp hbytes⟩
  · rintro ⟨x, rfl, haccepts⟩
    simp only [decode, Base64.decode_eq_ok_iff.mpr haccepts, mapError_eq_ok_iff]
    exact Utf8.decode_of_encode (Utf8.encode_ofString x)

/-- What stands on the wire holds characters only. -/
theorem scalar_of_encode (h : e.encode content = .ok wire) : wire.Scalar := by
  obtain ⟨bytes, hbytes, ⟨rfl, rfl⟩ | ⟨rfl, rfl⟩⟩ := encode_eq_ok h
  · exact Utf8.scalar_of_encodeFrom hbytes
  · exact (Base64.accepts_encode bytes).scalar

end ContentEncoding

/-! ### Tags -/

namespace ContentEncoding

/-- The encoding that a text is read as is the one whose name it spells. -/
theorem ofText?_eq_some_iff {tag : Text} {e : ContentEncoding} :
    ofText? tag = some e ↔ tag.Spells e.name := by
  rw [Text.spells_iff (by cases e <;> decide), ofText?]
  generalize tag.lower = t
  constructor
  · intro h
    unfold ofName? at h
    split at h
    · next ht => rw [ht, ← Option.some.inj h]
    · split at h
      · next ht => rw [ht, ← Option.some.inj h]
      · cases h
  · rintro rfl
    cases e <;> decide

theorem ofText?_eq_none_iff {tag : Text} :
    ofText? tag = none ↔ ∀ e : ContentEncoding, ¬ tag.Spells e.name := by
  rw [Option.eq_none_iff_forall_ne_some]
  exact forall_congr' fun e => not_congr ofText?_eq_some_iff

/-- A tag names its encoding in any case of letters. -/
theorem ofValue_text_iff {tag : Text} {e : ContentEncoding} :
    ofValue (.text tag) = .ok e ↔ tag.Spells e.name := by
  rw [← ofText?_eq_some_iff]
  simp only [ofValue, Value.shown]
  cases ofText? tag <;> simp

/-- A text that spells the name of no encoding is no tag. -/
theorem ofValue_text_eq_error_iff {tag : Text} {fault : TagFault} :
    ofValue (.text tag) = .error fault ↔
      fault = .unknown (.text tag) tag ∧ ∀ e : ContentEncoding, ¬ tag.Spells e.name := by
  rw [← ofText?_eq_none_iff]
  simp only [ofValue, Value.shown]
  cases ofText? tag <;> simp [eq_comm]

theorem ofValue_of_spells {tag : Text} {e : ContentEncoding} (h : tag.Spells e.name) :
    ofValue (.text tag) = .ok e :=
  ofValue_text_iff.mpr h

theorem ofValue_of_not_spells {tag : Text} (h : ∀ e : ContentEncoding, ¬ tag.Spells e.name) :
    ofValue (.text tag) = .error (.unknown (.text tag) tag) :=
  ofValue_text_eq_error_iff.mpr ⟨rfl, h⟩

end ContentEncoding

end ParserClient
