import ParserClient.Content
import ParserClient.Proofs.ContentEncoding

/-!
# Content behind a tag

A tag in any case of letters names its encoding, and what is written and read behind it is what the
encoding writes and reads. Content without bytes is refused in either encoding; other content is
written, and read back. Base 64 reads more texts than it writes, for it looks neither at the bits
that fill no byte nor at padding behind complete quads.

## Main results

* `content_read_back` — what is refused, what is written, and that it is read back.
* `read_base64_iff` — the texts that are read in base 64, and what is written again.
-/

namespace ParserClient

namespace Content

section Tags

variable {tag : Text} {e : ContentEncoding}

theorem write_of_spells (h : tag.Spells e.name) (content : Text) :
    write (.text tag) content = (e.encode content).mapError .unencodable := by
  simp only [write, ContentEncoding.ofValue_of_spells h]

theorem read_of_spells (h : tag.Spells e.name) (wire : Text) :
    read (.text tag) wire = (e.decode wire).mapError .undecodable := by
  simp only [read, ContentEncoding.ofValue_of_spells h]

/-- Either encoding refuses the content that has no bytes, and no other. -/
theorem exists_write_eq_error_iff (h : tag.Spells e.name) {content : Text} :
    (∃ cause, write (.text tag) content = .error (.unencodable cause)) ↔ ¬ content.Scalar := by
  rw [← Utf8.exists_encode_eq_error_iff, write_of_spells h]
  refine exists_congr fun cause => ?_
  rw [← ContentEncoding.encode_eq_error_iff (e := e)]
  cases e.encode content with
  | error f => simp only [Except.mapError, Except.error.injEq, Fault.unencodable.injEq]
  | ok wire => exact iff_of_false nofun nofun

/-- What is written is read back. -/
theorem read_of_encode (h : tag.Spells e.name) {content wire : Text}
    (hwire : e.encode content = .ok wire) : read (.text tag) wire = .ok content := by
  rw [read_of_spells h, ContentEncoding.decode_of_encode hwire]
  rfl

/-- Content that has bytes is written: as it is, or in quads that stand for its bytes. -/
theorem exists_encode (e : ContentEncoding) {content : Text} (h : content.Scalar) :
    ∃ wire, e.encode content = .ok wire ∧ (e = .utf8 → wire = content) ∧
      (e = .base64 → ∃ x : String, content = .ofString x ∧
        Base64.Shaped x.utf8ByteSize wire ∧ Base64.Accepts wire x.toUTF8.data.toList) := by
  obtain ⟨x, rfl⟩ := Text.scalar_iff_ofString.mp h
  obtain ⟨wire, hwire⟩ := ContentEncoding.encode_of_scalar e h
  refine ⟨wire, hwire, ?_⟩
  obtain ⟨bytes, hbytes, ⟨rfl, rfl⟩ | ⟨rfl, rfl⟩⟩ := ContentEncoding.encode_eq_ok hwire
  · exact ⟨fun _ => rfl, nofun⟩
  · obtain rfl := Except.ok.inj ((Utf8.encode_ofString x).symm.trans hbytes)
    have hlength : x.toUTF8.data.toList.length = x.utf8ByteSize := by simp
    refine ⟨nofun, fun _ => ⟨x, rfl, ?_, Base64.accepts_encode _⟩⟩
    rw [← hlength]
    exact Base64.shaped_encode _

end Tags

end Content

open Content

/-- Behind a tag that names an encoding in some case of letters, exactly the content with a lone
surrogate half is refused. Other content is written and read back: it stands on the wire as it is,
or in quads of base 64 that its bytes fill. -/
theorem content_read_back {tag : Text} {e : ContentEncoding} (htag : tag.Spells e.name)
    (content : Text) :
    ((∃ cause, Content.write (.text tag) content = .error (.unencodable cause)) ↔
      ¬ content.Scalar) ∧
    (content.Scalar → ∃ wire, Content.write (.text tag) content = .ok wire ∧
      Content.read (.text tag) wire = .ok content ∧
      (e = .utf8 → wire = content) ∧
      (e = .base64 → ∃ x : String, content = .ofString x ∧
        Base64.Shaped x.utf8ByteSize wire ∧ Base64.Accepts wire x.toUTF8.data.toList)) := by
  refine ⟨exists_write_eq_error_iff htag, fun hscalar => ?_⟩
  obtain ⟨wire, hwire, hform⟩ := exists_encode e hscalar
  refine ⟨wire, ?_, read_of_encode htag hwire, hform⟩
  rw [write_of_spells htag, hwire]
  rfl

/-- Text beyond ASCII is read back, behind a tag in capitals. -/
theorem accented_content_read_back :
    Text.Spells "BASE64" ContentEncoding.base64.name ∧ Text.Scalar "café" ∧
      Content.write (.text "BASE64") "café" = .ok "Y2Fmw6k=" ∧
      Content.read (.text "BASE64") "Y2Fmw6k=" = .ok "café" ∧
      Base64.Shaped 5 "Y2Fmw6k=" := by
  have htag : Text.Spells "BASE64" ContentEncoding.base64.name := by decide
  have hscalar : Text.Scalar "café" := by decide
  have hwrite : Content.write (.text "BASE64") "café" = .ok "Y2Fmw6k=" := by rfl
  obtain ⟨wire, hwire, hread, -, hform⟩ := (content_read_back htag "café").2 hscalar
  obtain rfl := Except.ok.inj (hwire.symm.trans hwrite)
  obtain ⟨x, hx, hshaped, -⟩ := hform rfl
  obtain rfl : "café" = x := Text.ofString_inj.mp hx
  exact ⟨htag, hscalar, hwrite, hread, hshaped⟩

/-- Behind a tag that names base 64 in some case of letters, a text is read or refused as content
that cannot be decoded. It is read exactly if it is data characters that padding closes and that
stand for the bytes of a text, and then as that text, which is written again as what has been read
but for the last data character of a quad that is not complete. -/
theorem read_base64_iff {tag : Text} (htag : tag.Spells ContentEncoding.base64.name) (t : Text) :
    ((∃ s, Content.read (.text tag) t = .ok s) ∨
      ∃ cause, Content.read (.text tag) t = .error (.undecodable cause)) ∧
    (∀ s, Content.read (.text tag) t = .ok s ↔
      ∃ x : String, s = .ofString x ∧ Base64.Accepts t x.toUTF8.data.toList) ∧
    ∀ s, Content.read (.text tag) t = .ok s →
      s.Scalar ∧ ∃ again, Content.write (.text tag) s = .ok again ∧ Base64.Agrees t again := by
  have hiff (s : Text) : Content.read (.text tag) t = .ok s ↔
      ∃ x : String, s = .ofString x ∧ Base64.Accepts t x.toUTF8.data.toList := by
    rw [read_of_spells htag, mapError_eq_ok_iff, ContentEncoding.decode_base64_eq_ok_iff]
  refine ⟨?_, hiff, fun s hs => ?_⟩
  · rw [read_of_spells htag]
    cases ContentEncoding.base64.decode t with
    | ok s => exact .inl ⟨s, rfl⟩
    | error cause => exact .inr ⟨cause, rfl⟩
  · obtain ⟨x, rfl, haccepts⟩ := (hiff s).mp hs
    refine ⟨Text.scalar_iff_ofString.mpr ⟨x, rfl⟩, _, ?_, haccepts.agrees_encode⟩
    rw [write_of_spells htag, ContentEncoding.encode, Utf8.encode_ofString]
    rfl

/-- The last data character of a quad that is not complete is not always written again. -/
theorem read_base64_of_spare_bits :
    Text.Spells "Base64" ContentEncoding.base64.name ∧
      Content.read (.text "Base64") "w6n=" = .ok "é" ∧
      Content.write (.text "Base64") "é" = .ok "w6k=" ∧ Base64.Agrees "w6n=" "w6k=" := by
  have htag : Text.Spells "Base64" ContentEncoding.base64.name := by decide
  have haccepts : Base64.Accepts "w6n=" "é".toUTF8.data.toList :=
    ⟨[48, 58, 39], 1, by decide, by decide, by decide, [true, true], by decide, by decide⟩
  have hread := ((read_base64_iff htag "w6n=").2.1 "é").mpr ⟨"é", rfl, haccepts⟩
  have hwrite : Content.write (.text "Base64") "é" = .ok "w6k=" := by rfl
  obtain ⟨-, again, hagain, hagrees⟩ := (read_base64_iff htag "w6n=").2.2 "é" hread
  obtain rfl := Except.ok.inj (hagain.symm.trans hwrite)
  exact ⟨htag, hread, hwrite, hagrees⟩

end ParserClient
