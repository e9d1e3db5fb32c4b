import ParserClient.Proofs.Json.Values
import ParserClient.Proofs.Number.Shortest
import ParserClient.Proofs.Value.Printing

/-!
# JSON text holds no control characters

Whatever a value holds, the text that is written for it has no code point below `20`: inside strings
and keys such a code point is written by a letter or by its number, and everything else that is
written is visible. The text also begins with a visible sign. Floats, numbers without digits and
keys of any kind are covered, and so are texts with lone halves, which have a JSON text but no
bytes.

## Main definitions

* `Text.Clear` — a text without control characters.

## Main results

* `Json.clear_writeString` — a string.
* `Json.begins_write`, `Json.clear_write` — the text of a value.
-/

namespace ParserClient

/-- The text holds no control character. -/
def Text.Clear (t : Text) : Prop := ∀ c ∈ t, 0x20 ≤ c.toNat

instance (t : Text) : Decidable t.Clear := inferInstanceAs (Decidable (∀ c ∈ t, _))

namespace Text

variable {s t : Text} {c : CodePoint}

@[simp] theorem clear_nil : Text.Clear [] := by simp [Clear]

@[simp] theorem clear_cons : Text.Clear (c :: t) ↔ 0x20 ≤ c.toNat ∧ t.Clear := by simp [Clear]

@[simp] theorem clear_append : Text.Clear (s ++ t) ↔ s.Clear ∧ t.Clear := by
  simp only [Clear, List.forall_mem_append]

end Text

namespace Json

/-! ### Strings -/

theorem clear_hex : ∀ n < 0x20, Text.Clear (Utf8.hex 4 n) := by decide

/-- No control character may stand behind a backslash. -/
theorem clear_of_escaped {c d : CodePoint} (h : escaped? c = some d) : 0x20 ≤ c.toNat := by
  have hnone : ∀ n < 0x20, escaped? (.scalar (Char.ofNat n)) = none := by decide
  by_contra hc
  obtain ⟨n, hn, -, rfl⟩ := exists_control (Nat.lt_of_not_le hc)
  rw [hnone n hn] at h
  cases h

theorem clear_writePoint (c : CodePoint) : Text.Clear (writePoint c) := by
  have hform := pointForm_writePoint c
  generalize writePoint c = form at hform
  cases hform with
  | letter _ he _ => simpa using ⟨by decide, clear_of_escaped he⟩
  | number hc => exact Text.clear_append.mpr ⟨by decide, clear_hex _ hc⟩
  | itself _ _ hc => simpa using hc

theorem clear_writeString (t : Text) : Text.Clear (writeString t) := by
  unfold writeString
  rw [Text.clear_append, Text.clear_cons]
  refine ⟨⟨by decide, fun c hc => ?_⟩, by decide⟩
  obtain ⟨d, -, hc⟩ := List.mem_flatMap.mp hc
  exact clear_writePoint d c hc

/-! ### Numbers -/

theorem isSign_of_isDigit {c : Char} (h : c.isDigit = true) : IsSign (.scalar c) := by
  obtain ⟨hzero, hnine⟩ := Natural.between_of_isDigit h
  exact ⟨Nat.lt_of_lt_of_le (by decide) hzero, Nat.lt_of_le_of_lt hnine (by decide)⟩

/-- A character of a number is visible and closes no container. -/
theorem isSign_of_isNumeralChar {c : Char} (h : Double.isNumeralChar c = true) :
    IsSign (.scalar c) ∧ CodePoint.scalar c ≠ .scalar ']' ∧
      CodePoint.scalar c ≠ .scalar '\x7d' := by
  rcases Bool.or_eq_true_iff.mp h with hdigit | hother
  · refine ⟨isSign_of_isDigit hdigit, ?_, ?_⟩ <;>
    · rintro ⟨⟩
      exact absurd hdigit (by decide)
  · have hother := of_decide_eq_true hother
    simp only [List.mem_cons, List.not_mem_nil, or_false] at hother
    rcases hother with rfl | rfl | rfl | rfl <;> decide

theorem clear_of_isSign {t : Text} (h : ∀ c ∈ t, IsSign c) : t.Clear := fun c hc =>
  Nat.le_of_lt (h c hc).1

theorem clear_double (x : Double) : Text.Clear (x.text numberWords) := by
  rcases x.text_cases numberWords with h | ⟨sign, hsign, h⟩ | ⟨chars, h, -, hchars⟩
  · rw [h]
    decide
  · rw [h, Text.clear_append]
    rcases hsign with rfl | rfl <;> decide
  · rw [h]
    refine clear_of_isSign fun c hc => ?_
    obtain ⟨d, hd, rfl⟩ := List.mem_map.mp hc
    exact (isSign_of_isNumeralChar (hchars d hd)).1

theorem begins_double (x : Double) : Begins (x.text numberWords) := by
  rcases x.text_cases numberWords with h | ⟨sign, hsign, h⟩ | ⟨chars, h, hne, hchars⟩
  · rw [h]
    exact ⟨_, _, rfl, by decide⟩
  · rw [h]
    rcases hsign with rfl | rfl
    · exact ⟨_, _, rfl, by decide⟩
    · exact ⟨_, _, rfl, by decide⟩
  · obtain ⟨c, chars, rfl⟩ := List.exists_cons_of_ne_nil hne
    rw [h]
    exact ⟨_, _, rfl, isSign_of_isNumeralChar (hchars c List.mem_cons_self)⟩

theorem writeInt_eq_ok {n : Int} {part : Text} (h : writeInt n = .ok part) :
    (Nat.toDigits 10 n.natAbs).length ≤ digitLimit ∧ Integer.text n = part := by
  unfold writeInt Integer.text? at h
  split at h
  · next hdigits => exact ⟨hdigits, Except.ok.inj h⟩
  · cases h

theorem clear_integer (n : Int) : Text.Clear (Integer.text n) := by
  have hdigits : ∀ k : Nat, Text.Clear (Natural.text k) := fun k =>
    clear_of_isSign fun c hc => by
      obtain ⟨d, hd, rfl⟩ := List.mem_map.mp hc
      exact isSign_of_isDigit (Natural.isDigit_of_mem hd)
  cases n with
  | ofNat n => exact hdigits n
  | negSucc n => exact Text.clear_cons.mpr ⟨by decide, hdigits _⟩

/-! ### Values -/

theorem clear_truth (b : Bool) : Text.Clear (truth b) := by cases b <;> decide

theorem clear_enclosed {l r : CodePoint} (hl : 0x20 ≤ l.toNat) (hr : 0x20 ≤ r.toNat)
    {parts : List Text} (h : ∀ p ∈ parts, p.Clear) :
    Text.Clear ((l :: Text.intercalate "," parts) ++ [r]) := by
  have hparts : Text.Clear (Text.intercalate "," parts) := fun c hc => by
    rcases Text.mem_intercalate hc with hc | ⟨p, hp, hc⟩
    · exact (by decide : Text.Clear ",") c hc
    · exact h p hp c hc
  simp [hl, hr, hparts]

/-- The text of a value begins with a visible sign. -/
theorem begins_write {v : Value} {part : Text} (h : write v = .ok part) : Begins part := by
  cases v with
  | null => exact Except.ok.inj h ▸ ⟨_, _, rfl, by decide⟩
  | bool b => exact Except.ok.inj h ▸ (@Stands.bool 0 b).begins
  | int n =>
    obtain ⟨hdigits, rfl⟩ := writeInt_eq_ok h
    exact (@Stands.int 0 n hdigits).begins
  | float x => exact Except.ok.inj h ▸ begins_double x
  | text t => exact Except.ok.inj h ▸ ⟨_, _, rfl, by decide⟩
  | bytes b => cases h
  | set items => cases h
  | list items =>
    obtain ⟨parts, -, ⟨⟩⟩ := exists_of_bind h
    exact ⟨_, _, rfl, by decide⟩
  | tuple items =>
    obtain ⟨parts, -, ⟨⟩⟩ := exists_of_bind h
    exact ⟨_, _, rfl, by decide⟩
  | mapping entries =>
    obtain ⟨parts, -, ⟨⟩⟩ := exists_of_bind h
    exact ⟨_, _, rfl, by decide⟩

mutual

/-- The text of a value holds no control character. -/
theorem clear_write {v : Value} {part : Text} (h : write v = .ok part) : part.Clear := by
  cases v with
  | null => exact Except.ok.inj h ▸ (by decide)
  | bool b => exact Except.ok.inj h ▸ clear_truth b
  | int n => exact (writeInt_eq_ok h).2 ▸ clear_integer n
  | float x => exact Except.ok.inj h ▸ clear_double x
  | text t => exact Except.ok.inj h ▸ clear_writeString t
  | bytes b => cases h
  | set items => cases h
  | list items =>
    obtain ⟨parts, hparts, ⟨⟩⟩ := exists_of_bind h
    exact clear_enclosed (by decide) (by decide) (clear_writeItems hparts)
  | tuple items =>
    obtain ⟨parts, hparts, ⟨⟩⟩ := exists_of_bind h
    exact clear_enclosed (by decide) (by decide) (clear_writeItems hparts)
  | mapping entries =>
    obtain ⟨parts, hparts, ⟨⟩⟩ := exists_of_bind h
    exact clear_enclosed (by decide) (by decide) (clear_writeEntries hparts)

theorem clear_writeItems {items : List Value} {parts : List Text}
    (h : writeItems items = .ok parts) : ∀ p ∈ parts, p.Clear := by
  cases items with
  | nil => exact Except.ok.inj h ▸ (by simp)
  | cons v rest =>
    obtain ⟨head, hhead, h⟩ := exists_of_bind h
    obtain ⟨tail, htail, ⟨⟩⟩ := exists_of_bind h
    exact List.forall_mem_cons.mpr ⟨clear_write hhead, clear_writeItems htail⟩

theorem clear_writeEntries {entries : Entries} {parts : List Text}
    (h : writeEntries entries = .ok parts) : ∀ p ∈ parts, p.Clear := by
  cases entries with
  | nil => exact Except.ok.inj h ▸ (by simp)
  | cons e rest =>
    obtain ⟨k, v⟩ := e
    obtain ⟨key, -, h⟩ := exists_of_bind h
    obtain ⟨value, hvalue, h⟩ := exists_of_bind h
    obtain ⟨tail, htail, ⟨⟩⟩ := exists_of_bind h
    refine List.forall_mem_cons.mpr ⟨?_, clear_writeEntries htail⟩
    exact Text.clear_append.mpr
      ⟨clear_writeString key, Text.clear_cons.mpr ⟨by decide, clear_write hvalue⟩⟩

end

end Json

end ParserClient
