import ParserClient.Json.Reading
import ParserClient.Json.Writing

/-!
# JSON strings are read as they are written

A code point inside a string is written as itself, as a backslash and a letter, or, below `20`, as
its number in four digits. The reader takes each of these as one piece and gives the code point
back; a number below `20` is no half of a surrogate pair, so it is not joined with what stands
behind it. What is written holds no line feed, and a lone half only where the string has one.

## Main definitions

* `Text.Flat` — a text that can stand on one line.
* `Json.PointForm` — the forms in which a code point is written.

## Main results

* `Json.string_writePoint` — a code point is read back.
* `Json.string_flatMap` — a string is read back up to its closing quote.
* `Json.flat_writeString` — what is written stands on one line.
-/

namespace ParserClient

/-- A character other than the line feed. -/
def CodePoint.isFlat (c : CodePoint) : Bool := c.isScalar && c != .scalar '\n'

/-- The text holds characters only, and no line feed. -/
def Text.Flat (t : Text) : Prop := ∀ c ∈ t, c.isFlat = true

instance (t : Text) : Decidable t.Flat := inferInstanceAs (Decidable (∀ c ∈ t, _))

namespace Text

variable {s t : Text} {c : CodePoint}

@[simp] theorem flat_nil : Text.Flat [] := by simp [Flat]

@[simp] theorem flat_cons : Text.Flat (c :: t) ↔ c.isFlat = true ∧ t.Flat := by simp [Flat]

@[simp] theorem flat_append : Text.Flat (s ++ t) ↔ s.Flat ∧ t.Flat := by
  simp only [Flat, List.mem_append, or_imp, forall_and]

theorem Flat.scalar (h : t.Flat) : t.Scalar := fun c hc => (Bool.and_eq_true_iff.mp (h c hc)).1

theorem Flat.not_mem (h : t.Flat) : .scalar '\n' ∉ t := fun hc => by
  have hflat := h _ hc
  simp [CodePoint.isFlat] at hflat

end Text

namespace Json

/-! ### One code point -/

section Reading

variable {opening t : Text} {c d e p next : CodePoint}

theorem string_raw (hquote : c ≠ .scalar '"') (hslash : c ≠ .scalar '\\') (hc : ¬ c.toNat < 0x20) :
    string opening (c :: t) = prepend c (string opening t) := by
  rw [string.eq_def]
  simp only [hquote, hslash, hc, ↓reduceIte]

theorem string_escaped (hu : e ≠ .scalar 'u') (he : escaped? e = some d) :
    string opening (.scalar '\\' :: e :: t) = prepend d (string opening t) := by
  rw [string.eq_def]
  simp only [hu, he, ↓reduceIte, CodePoint.scalar.injEq, Char.reduceEq]

theorem string_number {d₁ d₂ d₃ d₄ : CodePoint} (h : hexPoint? d₁ d₂ d₃ d₄ = some p)
    (hp : p.isLeading = false) :
    string opening (.scalar '\\' :: .scalar 'u' :: d₁ :: d₂ :: d₃ :: d₄ :: next :: t) =
      prepend p (string opening (next :: t)) := by
  rw [string.eq_def]
  simp only [h, hp, ↓reduceIte, CodePoint.scalar.injEq, Char.reduceEq, Bool.false_and,
    Bool.false_eq_true]
  split <;> rfl

end Reading

/-- The digits of a control character. -/
theorem hex_control : ∀ n < 0x20, Utf8.hex 4 n =
    [.scalar '0', .scalar '0', .scalar (n / 16).digitChar, .scalar (n % 16).digitChar] := by
  decide

theorem hexPoint?_control : ∀ n < 0x20, hexPoint? (.scalar '0') (.scalar '0')
    (.scalar (n / 16).digitChar) (.scalar (n % 16).digitChar) = some (.scalar (Char.ofNat n)) := by
  decide

theorem flat_hex : ∀ n < 0x20, Text.Flat (Utf8.hex 4 n) := by decide

/-- A code point below `20` is a character. -/
theorem exists_control {c : CodePoint} (h : c.toNat < 0x20) :
    ∃ n < 0x20, c.toNat = n ∧ c = .scalar (Char.ofNat n) := by
  cases c with
  | scalar c => exact ⟨c.toNat, h, rfl, by rw [Char.ofNat_toNat]⟩
  | lone half =>
    simp only [CodePoint.toNat] at h
    omega

/-- The forms in which a code point is written: as a backslash and a letter, by its number, or as
itself. -/
inductive PointForm (c : CodePoint) : Text → Prop
  | letter {e : CodePoint} (hu : e ≠ .scalar 'u') (he : escaped? e = some c)
      (hflat : e.isFlat = true) : PointForm c [.scalar '\\', e]
  | number (hc : c.toNat < 0x20) : PointForm c ("\\u" ++ Utf8.hex 4 c.toNat)
  | itself (hquote : c ≠ .scalar '"') (hslash : c ≠ .scalar '\\') (hc : ¬ c.toNat < 0x20) :
      PointForm c [c]

theorem pointForm_writePoint (c : CodePoint) : PointForm c (writePoint c) := by
  unfold writePoint
  split
  · next h => subst h; exact .letter (by decide) rfl rfl
  split
  · next h => subst h; exact .letter (by decide) rfl rfl
  split
  · next h => subst h; exact .letter (by decide) rfl rfl
  split
  · next h => subst h; exact .letter (by decide) rfl rfl
  split
  · next h => subst h; exact .letter (by decide) rfl rfl
  split
  · next h => subst h; exact .letter (by decide) rfl rfl
  split
  · next h => subst h; exact .letter (by decide) rfl rfl
  split
  · exact .number ‹_›
  · exact .itself ‹_› ‹_› ‹_›

/-- A code point is read back, if something stands behind it. -/
theorem string_writePoint (opening : Text) (c next : CodePoint) (t : Text) :
    string opening (writePoint c ++ next :: t) = prepend c (string opening (next :: t)) := by
  have hform := pointForm_writePoint c
  generalize writePoint c = form at hform
  cases hform with
  | letter hu he => exact string_escaped hu he
  | number hc =>
    obtain ⟨n, hn, hnat, rfl⟩ := exists_control hc
    rw [hnat, hex_control n hn]
    exact string_number (hexPoint?_control n hn) rfl
  | itself hquote hslash hc => exact string_raw hquote hslash hc

/-- What is written for a character stands on one line. -/
theorem flat_writePoint {c : CodePoint} (h : c.isScalar = true) : Text.Flat (writePoint c) := by
  have hform := pointForm_writePoint c
  generalize writePoint c = form at hform
  cases hform with
  | letter _ _ hflat => simpa using ⟨rfl, hflat⟩
  | number hc => exact Text.flat_append.mpr ⟨by decide, flat_hex _ hc⟩
  | itself _ _ hc =>
    have hfeed : c ≠ .scalar '\n' := fun hfeed => hc (by rw [hfeed]; decide)
    simp [CodePoint.isFlat, h, hfeed]

/-! ### A string -/

/-- A string is read back up to the quote that closes it. -/
theorem string_flatMap (opening t rest : Text) :
    string opening (t.flatMap writePoint ++ .scalar '"' :: rest) = .ok (t, rest) := by
  induction t with
  | nil =>
    rw [List.flatMap_nil, List.nil_append, string.eq_def]
    rfl
  | cons c t ih =>
    rw [List.flatMap_cons, List.append_assoc]
    -- what stands behind a code point begins with something, if only with the closing quote
    cases hrest : t.flatMap writePoint ++ .scalar '"' :: rest with
    | nil => simp at hrest
    | cons next left =>
      rw [string_writePoint, ← hrest, ih]
      rfl

theorem flat_writeString {t : Text} (h : t.Scalar) : Text.Flat (writeString t) := by
  unfold writeString
  rw [Text.flat_append, Text.flat_cons]
  refine ⟨⟨rfl, ?_⟩, by decide⟩
  intro c hc
  obtain ⟨d, hd, hc⟩ := List.mem_flatMap.mp hc
  exact flat_writePoint (h d hd) c hc

end Json

end ParserClient
