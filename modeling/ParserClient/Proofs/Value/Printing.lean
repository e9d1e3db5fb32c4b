import ParserClient.Proofs.Number.Shortest
import ParserClient.Value.Printing

/-!
# Values are shown in characters

A text inside a value is shown with its lone halves replaced by their numbers, so what is shown of
a value has bytes. A text on its own is shown as it is, and is the only value that can be shown
without having bytes.

## Main results

* `exists_of_bind` — the two steps of a sequence that succeeds.
* `Value.scalar_quoted` — a value inside another one.
* `Value.scalar_shown` — a value on its own, other than a text.
-/

namespace ParserClient

/-- Both steps of a sequence that succeeds have succeeded. -/
theorem exists_of_bind {ε α β : Type} {x : Except ε α} {f : α → Except ε β} {b : β}
    (h : x >>= f = .ok b) : ∃ a, x = .ok a ∧ f a = .ok b := by
  cases x with
  | error e => cases h
  | ok a => exact ⟨a, rfl, h⟩

namespace Text

theorem scalar_map (chars : List Char) : Text.Scalar (chars.map .scalar) := by
  intro c hc
  obtain ⟨d, -, rfl⟩ := List.mem_map.mp hc
  rfl

theorem scalar_flatMap {α : Type} {f : α → Text} (h : ∀ a, (f a).Scalar) (items : List α) :
    Text.Scalar (items.flatMap f) := by
  intro c hc
  obtain ⟨a, -, hc⟩ := List.mem_flatMap.mp hc
  exact h a c hc

theorem scalar_intercalate {separator : Text} {parts : List Text} (hs : separator.Scalar)
    (h : ∀ p ∈ parts, p.Scalar) : (intercalate separator parts).Scalar := by
  intro c hc
  rcases mem_intercalate hc with hc | ⟨p, hp, hc⟩
  · exact hs c hc
  · exact h p hp c hc

end Text

/-! ### Quoted text -/

theorem scalar_hex (width n : Nat) : (Utf8.hex width n).Scalar := Text.scalar_map _

/-- A code point that can be shown as it is is a character. -/
theorem CodePoint.isScalar_of_isPrintable {c : CodePoint} (h : c.isPrintable = true) :
    c.isScalar = true := by
  cases c with
  | scalar c => rfl
  | lone half =>
    have hhalf := half.isLt
    have hrange : inRanges unprintableRanges (0xD800 + half.val) = true :=
      (inRanges_iff _ _).mpr ⟨(55292, 63743), by decide +kernel, by omega, by omega⟩
    simp [isPrintable, toNat, hrange] at h

/-- What stands for a code point between quotes has characters only: a lone half can neither be
shown as it is nor be a quote. -/
theorem CodePoint.scalar_quoted (quote : Char) (c : CodePoint) : (c.quoted quote).Scalar := by
  have hlone : ∀ half : Fin 0x800, 0xD800 ≤ (CodePoint.lone half).toNat := fun half =>
    Nat.le_add_right _ _
  unfold quoted escaped
  split
  · next h => rcases h with rfl | rfl <;> simp [isScalar]
  split
  · decide
  split
  · decide
  split
  · decide
  split
  · next h =>
    cases c with
    | scalar c => simp [isScalar]
    | lone half => exact absurd h.2 (by have := hlone half; omega)
  split
  · next h => simpa using isScalar_of_isPrintable h.2
  repeat' split
  all_goals simp [isScalar, scalar_hex]

theorem Text.scalar_quoted (t : Text) : t.quoted.Scalar := by
  unfold quoted
  have hparts := fun quote => scalar_flatMap (CodePoint.scalar_quoted quote) t
  exact (scalar_cons.mpr ⟨rfl, hparts _⟩).append (by simp [CodePoint.isScalar])

theorem scalar_quotedByte (quote : Char) (b : UInt8) : (quotedByte quote b).Scalar := by
  unfold quotedByte escaped
  dsimp only
  repeat' split
  all_goals first | decide | simp [CodePoint.isScalar, scalar_hex]

theorem Bytes.scalar_quoted (b : Bytes) : (Bytes.quoted b).Scalar := by
  unfold quoted
  have hparts := fun quote => Text.scalar_flatMap (scalar_quotedByte quote) b
  exact (Text.scalar_cons.mpr ⟨rfl, Text.scalar_cons.mpr ⟨rfl, hparts _⟩⟩).append
    (by simp [CodePoint.isScalar])

/-! ### Values -/

theorem Integer.scalar_text (n : Int) : (Integer.text n).Scalar := by
  cases n with
  | ofNat n => exact Text.scalar_map _
  | negSucc n => exact Text.scalar_cons.mpr ⟨rfl, Text.scalar_map _⟩

theorem Integer.scalar_of_text? {n : Int} {t : Text} (h : Integer.text? n = .ok t) : t.Scalar := by
  unfold text? at h
  split at h
  · exact Except.ok.inj h ▸ Integer.scalar_text n
  · cases h

theorem Double.scalar_text {words : NumberWords} (hnan : words.nan.Scalar)
    (hinfinity : words.infinity.Scalar) (x : Double) : (x.text words).Scalar := by
  rcases x.text_cases words with h | ⟨sign, hsign, h⟩ | ⟨chars, h, -, -⟩
  · exact h ▸ hnan
  · rw [h]
    refine Text.Scalar.append ?_ hinfinity
    rcases hsign with rfl | rfl <;> decide
  · exact h ▸ Text.scalar_map chars

theorem scalar_truthWord (b : Bool) : (truthWord b).Scalar := by cases b <;> decide

theorem scalar_bracketed {opening closing : Text} (ho : opening.Scalar) (hc : closing.Scalar)
    {parts : List Text} (h : ∀ p ∈ parts, p.Scalar) :
    (bracketed opening closing parts).Scalar :=
  (ho.append (Text.scalar_intercalate (by decide) h)).append hc

namespace Value

mutual

/-- What is shown of a value inside another one has characters only. -/
theorem scalar_quoted {v : Value} {t : Text} (h : v.quoted = .ok t) : t.Scalar := by
  cases v with
  | null => exact Except.ok.inj h ▸ (by decide)
  | bool b => exact Except.ok.inj h ▸ scalar_truthWord b
  | int n => exact Integer.scalar_of_text? h
  | float x => exact Except.ok.inj h ▸ Double.scalar_text (by decide) (by decide) x
  | text s => exact Except.ok.inj h ▸ s.scalar_quoted
  | bytes b => exact Except.ok.inj h ▸ Bytes.scalar_quoted b
  | list items =>
    obtain ⟨parts, hparts, ⟨⟩⟩ := exists_of_bind h
    exact scalar_bracketed (by decide) (by decide) (scalar_quotedItems hparts)
  | tuple items =>
    obtain ⟨parts, hparts, ⟨⟩⟩ := exists_of_bind h
    exact scalar_bracketed (by decide) (by split <;> decide) (scalar_quotedItems hparts)
  | set items =>
    obtain ⟨parts, hparts, ⟨⟩⟩ := exists_of_bind h
    split
    · decide
    · exact scalar_bracketed (by decide) (by decide) (scalar_quotedItems hparts)
  | mapping entries =>
    obtain ⟨parts, hparts, ⟨⟩⟩ := exists_of_bind h
    exact scalar_bracketed (by decide) (by decide) (scalar_quotedEntries hparts)

theorem scalar_quotedItems {items : List Value} {parts : List Text}
    (h : quotedItems items = .ok parts) : ∀ p ∈ parts, p.Scalar := by
  cases items with
  | nil => exact Except.ok.inj h ▸ (by simp)
  | cons v rest =>
    obtain ⟨head, hhead, h⟩ := exists_of_bind h
    obtain ⟨tail, htail, ⟨⟩⟩ := exists_of_bind h
    exact List.forall_mem_cons.mpr ⟨scalar_quoted hhead, scalar_quotedItems htail⟩

theorem scalar_quotedEntries {entries : Entries} {parts : List Text}
    (h : quotedEntries entries = .ok parts) : ∀ p ∈ parts, p.Scalar := by
  cases entries with
  | nil => exact Except.ok.inj h ▸ (by simp)
  | cons e rest =>
    obtain ⟨k, v⟩ := e
    obtain ⟨key, hkey, h⟩ := exists_of_bind h
    obtain ⟨value, hvalue, h⟩ := exists_of_bind h
    obtain ⟨tail, htail, ⟨⟩⟩ := exists_of_bind h
    exact List.forall_mem_cons.mpr
      ⟨((scalar_quoted hkey).append (by decide)).append (scalar_quoted hvalue),
        scalar_quotedEntries htail⟩

end

/-- Only a text is shown with lone halves. -/
theorem scalar_shown {v : Value} {t : Text} (hv : ∀ s, v ≠ .text s) (h : v.shown = .ok t) :
    t.Scalar := by
  cases v with
  | text s => exact absurd rfl (hv s)
  | _ => exact scalar_quoted h

end Value

end ParserClient
