import ParserClient.Number.Integer

/-!
# Decimal digits are read as they are written

The digits of a natural number are taken off the front of a text whole, if what stands behind them
is no digit, and they stand for the number. Only the digits of zero begin with a zero.

## Main results

* `Natural.spanDigits_text` — the digits of a number are taken off a text.
* `Natural.ofDigits_value` — the number that they stand for.
* `Natural.toDigits_eq_cons` — the first digit.
* `Integer.text_append_inj` — the digits of an integer at the front of a text.
-/

namespace ParserClient

/-- The text does not begin with a decimal digit. -/
def Text.PastDigits (t : Text) : Prop := ∀ c ∈ t.head?, c.digit? = none

@[simp]
theorem Text.pastDigits_nil : Text.PastDigits [] := by simp [PastDigits]

@[simp]
theorem Text.pastDigits_cons {c : CodePoint} {t : Text} :
    Text.PastDigits (c :: t) ↔ c.digit? = none := by
  simp [PastDigits]

/-- The value of a decimal digit. -/
def Natural.value (c : Char) : Nat := c.toNat - '0'.toNat

theorem CodePoint.digit?_of_isDigit {c : Char} (h : c.isDigit = true) :
    (CodePoint.scalar c).digit? = some (Natural.value c) := by
  have hc : '0' ≤ c ∧ c ≤ '9' := by
    simpa [Char.isDigit, Char.le_def] using h
  simp only [CodePoint.digit?, hc, and_self, ↓reduceIte]
  rfl

theorem Text.spanDigits_append {s : List Char} (hs : ∀ c ∈ s, c.isDigit = true) {rest : Text}
    (hrest : rest.PastDigits) :
    Text.spanDigits (s.map .scalar ++ rest) = (s.map Natural.value, rest) := by
  induction s with
  | nil =>
    cases rest with
    | nil => rfl
    | cons c t => simp [Text.spanDigits, hrest c rfl]
  | cons c s ih =>
    have hc := CodePoint.digit?_of_isDigit (hs c List.mem_cons_self)
    simp only [List.map_cons, List.cons_append, Text.spanDigits, hc,
      ih fun d hd => hs d (List.mem_cons_of_mem c hd)]

namespace Natural

theorem isDigit_of_mem {n : Nat} {c : Char} (h : c ∈ Nat.toDigits 10 n) : c.isDigit = true :=
  Nat.isDigit_of_mem_toDigits (by decide) (by decide) h

theorem spanDigits_text (n : Nat) {rest : Text} (hrest : rest.PastDigits) :
    Text.spanDigits (text n ++ rest) = ((Nat.toDigits 10 n).map value, rest) :=
  Text.spanDigits_append (fun _ => isDigit_of_mem) hrest

theorem ofDigits_value (n : Nat) : ofDigits ((Nat.toDigits 10 n).map value) = n := by
  rw [ofDigits, List.foldl_map]
  exact Nat.ofDigitChars_ten_toDigits

/-- Only the digits of zero begin with a zero. -/
theorem head?_toDigits_ne_zero {n : Nat} (hn : 0 < n) : (Nat.toDigits 10 n).head? ≠ some '0' := by
  induction n using Nat.strongRecOn with
  | ind n ih =>
    rw [Nat.toDigits_eq_if (by decide)]
    split
    · simpa using Nat.ne_of_gt hn
    · rw [List.head?_append, Option.or_of_isSome (by simp)]
      exact ih (n / 10) (by omega) (by omega)

theorem between_of_isDigit {c : Char} (h : c.isDigit = true) :
    '0'.toNat ≤ c.toNat ∧ c.toNat ≤ '9'.toNat := by
  obtain ⟨hzero, hnine⟩ := (Bool.and_eq_true _ _).mp h
  exact ⟨UInt32.le_iff_toNat_le.mp (by simpa using hzero),
    UInt32.le_iff_toNat_le.mp (by simpa using hnine)⟩

theorem eq_zero_of_value {c : Char} (h : c.isDigit = true) (hv : value c = 0) : c = '0' := by
  have hc := (between_of_isDigit h).1
  have hzero : c.toNat = '0'.toNat := by
    unfold value at hv
    omega
  rw [← Char.ofNat_toNat c, hzero]
  rfl

/-- The first digit of a number; it is a zero only if it is the only one. -/
theorem toDigits_eq_cons (n : Nat) :
    ∃ c s, Nat.toDigits 10 n = c :: s ∧ c.isDigit = true ∧ (value c = 0 → s = []) := by
  cases h : Nat.toDigits 10 n with
  | nil => exact absurd h Nat.toDigits_ne_nil
  | cons c s =>
    have hc := isDigit_of_mem (c := c) (n := n) (by simp [h])
    refine ⟨c, s, rfl, hc, fun hv => ?_⟩
    rcases Nat.eq_zero_or_pos n with rfl | hn
    · rw [Nat.toDigits_zero] at h
      exact (List.cons.inj h).2.symm
    · have hhead := head?_toDigits_ne_zero hn
      rw [h, eq_zero_of_value hc hv] at hhead
      exact absurd rfl hhead

theorem text_append_inj {m n : Nat} {r s : Text} (hr : r.PastDigits) (hs : s.PastDigits)
    (h : text m ++ r = text n ++ s) : m = n ∧ r = s := by
  have hspan := spanDigits_text m hr
  rw [h, spanDigits_text n hs] at hspan
  obtain ⟨hdigits, hrest⟩ := Prod.mk.inj hspan
  exact ⟨by rw [← ofDigits_value m, ← hdigits, ofDigits_value n], hrest.symm⟩

theorem text_append_ne_minus (n : Nat) (r s : Text) : text n ++ r ≠ .scalar '-' :: s := by
  obtain ⟨c, t, hcons, hc, -⟩ := toDigits_eq_cons n
  rw [text, hcons]
  intro h
  obtain rfl := CodePoint.scalar.inj (List.cons.inj h).1
  exact absurd hc (by decide)

end Natural

/-- Two integers at the front of one text are the same, if no digit stands behind either. -/
theorem Integer.text_append_inj {m n : Int} {r s : Text} (hr : r.PastDigits) (hs : s.PastDigits)
    (h : Integer.text m ++ r = Integer.text n ++ s) : m = n ∧ r = s := by
  cases m with
  | ofNat m =>
    cases n with
    | ofNat n =>
      obtain ⟨rfl, hrest⟩ := Natural.text_append_inj hr hs h
      exact ⟨rfl, hrest⟩
    | negSucc n => exact absurd h (Natural.text_append_ne_minus m r _)
  | negSucc m =>
    cases n with
    | ofNat n => exact absurd h.symm (Natural.text_append_ne_minus n s _)
    | negSucc n =>
      obtain ⟨hnumber, hrest⟩ := Natural.text_append_inj hr hs (List.cons.inj h).2
      exact ⟨congrArg Int.negSucc (Nat.succ.inj hnumber), hrest⟩

end ParserClient
