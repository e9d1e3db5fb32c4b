import ParserClient.Message.Reply
import ParserClient.Proofs.ContentEncoding
import ParserClient.Proofs.Text.Folding

/-!
# Tags and their look-alikes

Tags are compared in lower case, and a code point far from ASCII may have a letter of ASCII in its
lower case form. None of the names of encodings and none of the words for a failed parse can be
written with such a code point. The word for a parse without errors has a `k`, for which the sign
for kelvin may stand. Any other status is kept in lower case, and is left by folding it once more.

## Main definitions

* `Text.ReadsOk` — the texts that are folded to the word for a parse without errors.
* `Status.Folded` — what a status has to do with the text that it is folded from.

## Main results

* `Status.folded_ofText` — folding a text.
* `Reply.readStatus_of_ofValue` — the status of a reply is that of its field.
* `tags_folded` — which texts name an encoding, and what the status of a reply is.
-/

namespace ParserClient

/-! ### Texts that are folded to a known status -/

namespace Text

/-- The text is an `o` and a `k` in some case, or the sign for kelvin for the `k`. -/
def ReadsOk (t : Text) : Prop :=
  ∃ o k, t = [o, k] ∧ o ∈ ("oO" : Text) ∧ (k ∈ ("kK" : Text) ∨ k = CodePoint.kelvin)

/-- The code points with a small `o` or `k`. -/
theorem small_mem_iff {c : CodePoint} :
    (c.small = .scalar 'o' ↔ c ∈ ("oO" : Text)) ∧ (c.small = .scalar 'k' ↔ c ∈ ("kK" : Text)) := by
  have hascii : ∀ n < 0x80, ((CodePoint.ofNat n).small = .scalar 'o' ↔
        CodePoint.ofNat n ∈ ("oO" : Text)) ∧
      ((CodePoint.ofNat n).small = .scalar 'k' ↔ CodePoint.ofNat n ∈ ("kK" : Text)) := by
    decide +kernel
  by_cases hc : c.toNat < 0x80
  · have hsame : CodePoint.ofNat c.toNat = c :=
      CodePoint.toNat_injective (CodePoint.toNat_ofNat (by omega))
    exact hsame ▸ hascii c.toNat hc
  · -- outside ASCII neither side holds
    have hsmall (d : CodePoint) (hd : d.toNat < 0x80) : c.small ≠ d := by
      rintro rfl
      exact hc (CodePoint.lt_of_small hd)
    have hout (word : Text) (hword : ∀ d ∈ word, d.toNat < 0x80) : c ∉ word :=
      fun hmem => hc (hword c hmem)
    exact ⟨iff_of_false (hsmall _ (by decide)) (hout _ (by decide)),
      iff_of_false (hsmall _ (by decide)) (hout _ (by decide))⟩

/-- The texts whose lower case is the word for a parse without errors. -/
theorem lower_eq_ok_iff {t : Text} : t.lower = "ok" ↔ t.ReadsOk := by
  have hword : ∀ c ∈ ("ok" : Text), c.toNat < 0x80 ∧ c ≠ .scalar 'i' := by decide
  have ho (c : CodePoint) : c.Folds (.scalar 'o') ↔ c ∈ ("oO" : Text) := by
    simp [CodePoint.Folds, small_mem_iff.1]
  have hk (c : CodePoint) : c.Folds (.scalar 'k') ↔ c ∈ ("kK" : Text) ∨ c = CodePoint.kelvin := by
    simp [CodePoint.Folds, small_mem_iff.2]
  rw [lower_eq_iff hword]
  constructor
  · rintro (_ | ⟨hfirst, _ | ⟨hsecond, _ | _⟩⟩)
    exact ⟨_, _, rfl, (ho _).mp hfirst, (hk _).mp hsecond⟩
  · rintro ⟨o, k, rfl, hfirst, hsecond⟩
    exact .cons ((ho o).mpr hfirst) (.cons ((hk k).mpr hsecond) .nil)

end Text

namespace Status

/-- A text becomes a known status exactly if it is its name. -/
theorem ofText_eq_iff {t : Text} {status : Status} (h : status.isKnown = true) :
    ofText t = status ↔ t = status.name := by
  constructor
  · rintro rfl
    exact (name_ofText t).symm
  · rintro rfl
    cases status with
    | other name => cases h
    | _ => rfl

/-- The status is the one that a text is folded to. -/
structure Folded (status : Status) (t : Text) : Prop where
  ok : status = .ok ↔ t.ReadsOk
  error : status = .error ↔ t.Spells "error"
  fatal : status = .fatal ↔ t.Spells "fatal"
  /-- A status that is none of these is the text in lower case. -/
  other : status.isKnown = false → status = .other t.lower
  /-- Lower case leaves the name of the status. -/
  again : status.name.lower = status.name

/-- What a text in lower case is as a status. -/
theorem folded_ofText (t : Text) : (ofText t.lower).Folded t := by
  refine ⟨?_, ?_, ?_, ?_, ?_⟩
  · rw [ofText_eq_iff rfl]
    exact Text.lower_eq_ok_iff
  · rw [ofText_eq_iff rfl]
    exact (Text.spells_iff (by decide)).symm
  · rw [ofText_eq_iff rfl]
    exact (Text.spells_iff (by decide)).symm
  · intro h
    have hname := name_ofText t.lower
    cases hstatus : ofText t.lower with
    | other name => 
      rw [hstatus] at hname
      exact congrArg other hname
    | _ =>
      rw [hstatus] at h
      cases h
  · rw [name_ofText, Text.lower_lower]

end Status

namespace Reply

/-- The status of a reply is the one that its field gives. -/
theorem readStatus_of_ofValue {entries : Entries} {reply : Reply}
    (h : ofValue (.mapping entries) = .ok reply) :
    readStatus (Entries.get? entries "status") = .ok reply.status := by
  simp only [ofValue] at h
  split at h
  · next hstatus _ _ =>
    obtain rfl := Except.ok.inj h
    exact hstatus
  · cases h

end Reply

/-- A text names an encoding exactly if it is the name in some case of its letters, and is refused
if it names none. As the status of a reply it becomes an error exactly if it is the word for one in
some case of its letters, and a success if it is the word for it, where the sign for kelvin may
stand for its `k`. Any other text is kept in lower case. To fold the status once more changes
nothing. -/
theorem tags_folded (t : Text) :
    (∀ e, ContentEncoding.ofValue (.text t) = .ok e ↔ t.Spells e.name) ∧
    (ContentEncoding.ofValue (.text t) = .error (.unknown (.text t) t) ↔
      ∀ e : ContentEncoding, ¬ t.Spells e.name) ∧
    ∃ status : Status, Reply.readStatus (some (.text t)) = .ok status ∧ status.Folded t ∧
      Reply.readStatus (some (.text status.name)) = .ok status ∧
      ∀ entries reply, Entries.get? entries "status" = some (.text t) →
        Reply.ofValue (.mapping entries) = .ok reply → reply.status = status := by
  have hfolded := Status.folded_ofText t
  refine ⟨fun e => ContentEncoding.ofValue_text_iff,
    ContentEncoding.ofValue_text_eq_error_iff.trans (and_iff_right rfl), Status.ofText t.lower,
    rfl, hfolded, ?_, fun entries reply hfield h => ?_⟩
  · rw [Reply.readStatus, hfolded.again, Status.name_ofText]
  · have hstatus := Reply.readStatus_of_ofValue h
    rw [hfield] at hstatus
    exact (Except.ok.inj hstatus).symm

/-- A capital `O` and the sign for kelvin. -/
def Text.chilly : Text := [.scalar 'O', CodePoint.kelvin]

theorem chilly_folded :
    ∃ reply, Reply.ofValue (.mapping [(.text "status", .text Text.chilly)]) = .ok reply ∧
      reply.status = .ok ∧ ∀ e : ContentEncoding, ¬ Text.chilly.Spells e.name := by
  obtain ⟨-, hnone, status, -, hfolded, -, hreply⟩ := tags_folded Text.chilly
  have hok : status = .ok := hfolded.ok.mpr ⟨_, _, rfl, by decide, .inr rfl⟩
  have hreads : ∃ reply, Reply.ofValue (.mapping [(.text "status", .text Text.chilly)]) =
      .ok reply := ⟨_, rfl⟩
  obtain ⟨reply, h⟩ := hreads
  exact ⟨reply, h, (hreply _ reply rfl h).trans hok, hnone.mp rfl⟩

end ParserClient
