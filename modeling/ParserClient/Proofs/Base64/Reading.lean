import ParserClient.Base64
import ParserClient.Proofs.Text.Utf8

/-!
# The texts that base 64 reads

A text that is read is data characters with padding behind them. The padding completes the last
quad, or stands behind complete quads, however much of it there is.

## Main definitions

* `Base64.Closes` — the padding that may stand behind as many data characters.

## Main results

* `Base64.letter_of_sextet?` — the data characters.
* `Base64.sextetsFrom_padded_eq_ok_iff`, `Base64.sextetsFrom_eq_ok_iff` — what is read behind
  padding and in front of it.
* `Base64.sextets_eq_ok_iff` — the texts that are read, and their data characters.
-/

namespace ParserClient

namespace Base64

/-! ### Letters -/

theorem sextet?_letter : ∀ n < 64, sextet? (letter n) = some n := by decide +kernel

theorem mem_alphabet (n : Nat) : alphabet.getD n 'A' ∈ alphabet := by
  rw [List.getD_eq_getElem?_getD]
  cases h : alphabet[n]? with
  | none => decide
  | some c => exact List.mem_of_getElem? h

theorem letter_ne_pad (n : Nat) : letter n ≠ pad := by
  have hall : alphabet.all (fun c => decide (CodePoint.scalar c ≠ pad)) = true := by
    decide +kernel
  exact of_decide_eq_true (List.all_eq_true.mp hall _ (mem_alphabet n))

theorem letter_lt (n : Nat) : (letter n).toNat < 0x80 := by
  have hall : alphabet.all (fun c => decide (c.toNat < 0x80)) = true := by decide +kernel
  exact of_decide_eq_true (List.all_eq_true.mp hall _ (mem_alphabet n))

theorem sextet?_of_le {c : CodePoint} (hc : 0x80 ≤ c.toNat) : sextet? c = none := by
  cases c with
  | lone half => rfl
  | scalar c =>
    have hhigh : 0x80 ≤ c.val.toNat := hc
    have hgt : ∀ d : Char, d.val.toNat < 0x80 → ¬ c ≤ d := by
      intro d hd hle
      have hle := UInt32.le_iff_toNat_le.mp (Char.le_def.mp hle)
      omega
    have hne : ∀ d : Char, d.val.toNat < 0x80 → c ≠ d := by
      rintro _ hd rfl
      omega
    rw [sextet?, if_neg fun h => hgt 'Z' (by decide) h.2, if_neg fun h => hgt 'z' (by decide) h.2,
      if_neg fun h => hgt '9' (by decide) h.2, if_neg (hne '+' (by decide)),
      if_neg (hne '/' (by decide))]

/-- What stands for six bits is their letter. -/
theorem letter_of_sextet? {c : CodePoint} {n : Nat} (h : sextet? c = some n) :
    n < 64 ∧ letter n = c := by
  have hall : ∀ m < 0x80, (sextet? (.scalar (Char.ofNat m))).all
      (fun n => decide (n < 64 ∧ letter n = .scalar (Char.ofNat m))) = true := by
    decide +kernel
  have hlow : c.toNat < 0x80 := by
    refine Nat.lt_of_not_le fun hhigh => ?_
    rw [sextet?_of_le hhigh] at h
    cases h
  cases c with
  | lone half => cases h
  | scalar c =>
    have hc := hall c.toNat hlow
    rw [Char.ofNat_toNat, h] at hc
    exact of_decide_eq_true hc

/-! ### Padding -/

/-- Behind as many data characters, `p` equals signs complete the last quad, or stand behind
complete ones. -/
def Closes (length p : Nat) : Prop :=
  length % 4 = 2 ∧ p = 2 ∨ length % 4 = 3 ∧ p = 1 ∨ length % 4 = 0 ∧ (p = 0 ∨ 0 < length)

instance (length p : Nat) : Decidable (Closes length p) :=
  inferInstanceAs (Decidable (_ ∨ _ ∨ _))

/-- Behind `quad` data characters of a quad and `pads` equals signs that help to complete it,
`p` more complete it, unless there is no quad to be completed. -/
def Completes (quad pads p : Nat) : Prop := quad = 0 ∨ 2 ≤ quad ∧ quad + pads + p = 4

section Reading

variable {count pads : Nat} {t : Text} {l : List Nat}

theorem sextetsFrom_nil (padded : Bool) :
    sextetsFrom count pads padded [] = .ok l ↔ l = [] ∧ count % 4 = 0 := by
  rw [sextetsFrom]
  split
  · next h => simp [h, eq_comm]
  · next h => simp [h]
  · next h _ => simp [show count % 4 ≠ 0 from h]

/-- What is a padding behind one equals sign is a padding with it. -/
theorem exists_pad_cons {P : Nat → Prop} :
    (∃ p, pad :: t = List.replicate p pad ∧ P p) ↔
      ∃ p, t = List.replicate p pad ∧ P (p + 1) := by
  constructor
  · rintro ⟨p, hp, h⟩
    cases p with
    | zero => cases hp
    | succ p => exact ⟨p, (List.cons.inj hp).2, h⟩
  · rintro ⟨p, rfl, h⟩
    exact ⟨p + 1, rfl, h⟩

/-- No padding begins with another character. -/
theorem not_replicate_cons {c : CodePoint} (hc : c ≠ pad) (p : Nat) :
    c :: t ≠ List.replicate p pad := by
  intro h
  exact hc (List.eq_of_mem_replicate (h ▸ List.mem_cons_self))

/-- Behind padding, nothing but the rest of the padding is read. -/
theorem sextetsFrom_padded_eq_ok_iff (h : count % 4 + pads < 4) :
    sextetsFrom count pads true t = .ok l ↔
      l = [] ∧ ∃ p, t = List.replicate p pad ∧ Completes (count % 4) pads p := by
  induction t generalizing pads with
  | nil =>
    rw [sextetsFrom_nil]
    refine and_congr_right fun _ => ⟨fun h0 => ⟨0, rfl, .inl h0⟩, ?_⟩
    rintro ⟨p, hp, h0 | ⟨-, h4⟩⟩
    · exact h0
    · cases p with
      | zero => omega
      | succ p => cases hp
  | cons c t ih =>
    by_cases hc : c = pad
    · subst hc
      rw [sextetsFrom, if_pos rfl, exists_pad_cons]
      by_cases hquad : 2 ≤ count % 4
      · rw [if_pos hquad]
        by_cases hlast : 4 ≤ count % 4 + pads + 1
        · rw [if_pos hlast]
          cases t with
          | nil =>
            have hcompletes : Completes (count % 4) pads (0 + 1) := .inr ⟨hquad, by omega⟩
            rw [List.isEmpty_nil, if_pos rfl, Except.ok.injEq, eq_comm]
            exact (and_iff_left ⟨0, rfl, hcompletes⟩).symm
          | cons d t =>
            rw [List.isEmpty_cons, if_neg Bool.false_ne_true]
            refine iff_of_false nofun ?_
            rintro ⟨-, p, hp, h0 | ⟨-, h4⟩⟩
            · omega
            · cases p with
              | zero => cases hp
              | succ p => omega
        · rw [if_neg hlast, ih (by omega)]
          refine and_congr_right fun _ => exists_congr fun p => and_congr_right fun _ => ?_
          unfold Completes
          omega
      · rw [if_neg hquad, ih h]
        refine and_congr_right fun _ => exists_congr fun p => and_congr_right fun _ => ?_
        unfold Completes
        omega
    · refine iff_of_false (fun hok => ?_) ?_
      · rw [sextetsFrom, if_neg hc] at hok
        cases hs : sextet? c <;> simp [hs] at hok
      · rintro ⟨-, p, hp, -⟩
        exact not_replicate_cons hc p hp

/-- What is read in front of padding: data characters, and the padding that completes them. -/
theorem sextetsFrom_eq_ok_iff :
    sextetsFrom count 0 false t = .ok l ↔
      (∀ n ∈ l, n < 64) ∧
        ∃ p, t = l.map letter ++ List.replicate p pad ∧
          Completes ((count + l.length) % 4) 0 p := by
  induction t generalizing count l with
  | nil =>
    rw [sextetsFrom_nil]
    constructor
    · rintro ⟨rfl, h0⟩
      exact ⟨nofun, 0, rfl, .inl h0⟩
    · rintro ⟨-, p, hp, hcompletes⟩
      obtain ⟨hl, hpads⟩ := List.append_eq_nil_iff.mp hp.symm
      obtain rfl := List.map_eq_nil_iff.mp hl
      obtain rfl : p = 0 := by simpa using hpads
      refine ⟨rfl, ?_⟩
      rcases hcompletes with h0 | ⟨-, h4⟩
      · exact h0
      · exact absurd h4 (Nat.ne_of_lt (Nat.mod_lt _ (by decide)))
  | cons c t ih =>
    by_cases hc : c = pad
    · subst hc
      have hpadded : sextetsFrom count 0 false (pad :: t) = sextetsFrom count 0 true (pad :: t) :=
        rfl
      rw [hpadded, sextetsFrom_padded_eq_ok_iff (Nat.mod_lt _ (by decide))]
      constructor
      · rintro ⟨rfl, p, hp, hcompletes⟩
        exact ⟨nofun, p, hp, hcompletes⟩
      · rintro ⟨hl, p, hp, hcompletes⟩
        cases l with
        | nil => exact ⟨rfl, p, hp, hcompletes⟩
        | cons n l =>
          exact absurd (List.cons.inj hp).1.symm (letter_ne_pad n)
    · rw [sextetsFrom, if_neg hc]
      cases hs : sextet? c with
      | none =>
        refine iff_of_false nofun ?_
        rintro ⟨hl, p, hp, -⟩
        cases l with
        | nil => exact not_replicate_cons hc p hp
        | cons n l =>
          rw [(List.cons.inj hp).1, sextet?_letter n (hl n List.mem_cons_self)] at hs
          cases hs
      | some s =>
        obtain ⟨hlt, rfl⟩ := letter_of_sextet? hs
        have hmap : ∀ r : Except Fault (List Nat),
            r.map (s :: ·) = .ok l ↔ ∃ rest, r = .ok rest ∧ s :: rest = l := by
          rintro (f | rest) <;> simp [Except.map]
        simp only [Bool.false_eq_true, ↓reduceIte, hmap]
        constructor
        · rintro ⟨rest, hrest, rfl⟩
          obtain ⟨hl, p, rfl, hcompletes⟩ := ih.mp hrest
          refine ⟨List.forall_mem_cons.mpr ⟨hlt, hl⟩, p, rfl, ?_⟩
          rwa [List.length_cons, Nat.add_comm rest.length, ← Nat.add_assoc]
        · rintro ⟨hl, p, hp, hcompletes⟩
          cases l with
          | nil => exact (not_replicate_cons hc p hp).elim
          | cons n rest =>
            obtain ⟨hn, hrest⟩ := List.forall_mem_cons.mp hl
            obtain ⟨hletter, ht⟩ := List.cons.inj hp
            obtain rfl : s = n := by
              rw [← Option.some.injEq, ← hs, hletter, sextet?_letter n hn]
            rw [List.length_cons, Nat.add_comm rest.length, ← Nat.add_assoc] at hcompletes
            exact ⟨rest, ih.mpr ⟨hrest, p, ht, hcompletes⟩, rfl⟩

/-- The texts that are read: data characters with the padding behind them that they ask for. -/
theorem sextets_eq_ok_iff :
    sextets t = .ok l ↔
      (∀ n ∈ l, n < 64) ∧
        ∃ p, t = l.map letter ++ List.replicate p pad ∧ Closes l.length p := by
  have hcloses (p : Nat) : Completes ((0 + l.length) % 4) 0 p ∧ (l = [] → p = 0) ↔
      Closes l.length p := by
    have hlt := Nat.mod_lt l.length (show 4 > 0 by decide)
    rw [← List.length_eq_zero_iff]
    unfold Completes Closes
    omega
  unfold sextets
  by_cases hascii : (t.all fun c => decide (c.toNat < 0x80)) = true
  · rw [if_pos hascii]
    by_cases hhead : t.head? = some pad
    · rw [if_pos hhead]
      refine iff_of_false nofun ?_
      rintro ⟨hl, p, rfl, hp⟩
      obtain ⟨-, hempty⟩ := (hcloses p).mpr hp
      cases l with
      | nil =>
        obtain rfl := hempty rfl
        cases hhead
      | cons n l => exact letter_ne_pad n (Option.some.inj hhead)
    · rw [if_neg hhead, sextetsFrom_eq_ok_iff]
      refine and_congr_right fun _ => exists_congr fun p => and_congr_right fun ht => ?_
      rw [← hcloses]
      refine (and_iff_left ?_).symm
      rintro rfl
      cases p with
      | zero => rfl
      | succ p => exact absurd (by rw [ht]; rfl) hhead
  · rw [if_neg hascii]
    refine iff_of_false nofun ?_
    rintro ⟨-, p, rfl, -⟩
    refine hascii (List.all_eq_true.mpr fun c hc => decide_eq_true ?_)
    rcases List.mem_append.mp hc with hc | hc
    · obtain ⟨n, -, rfl⟩ := List.mem_map.mp hc
      exact letter_lt n
    · rw [List.eq_of_mem_replicate hc]
      decide

end Reading

end Base64

end ParserClient
