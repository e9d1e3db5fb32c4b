import Mathlib.Data.List.Forall2
import Mathlib.Data.List.TakeWhile
import Mathlib.Tactic.ByContra
import ParserClient.Text.Blank
import ParserClient.Text.Lowercase

/-!
# Words in some case of letters

A text *spells* a word if it is the word in some case of its ASCII letters. Lower case of such a
text is the word. The converse holds for a word of ASCII without `i` and `k`, the only small letters
of ASCII that are in forms of code points outside it. With a `k` in the word, the sign for kelvin
may stand for it, and nothing else may. A text *says* a word if it spells the word with blanks
around it.

## Main definitions

* `CodePoint.Folds` — a code point is a letter in some case, or stands for one.
* `Text.Spells`, `Text.Says`.

## Main results

* `Text.lower_eq_iff` — the texts with a word for lower case.
* `Text.spells_iff` — what spells a word.
* `Text.lower_trim_eq_iff` — what says a word.
-/

namespace ParserClient

namespace CodePoint

/-- The small letter of a capital of ASCII; anything else is left. -/
def small : CodePoint → CodePoint
  | .scalar c => .scalar c.toLower
  | .lone half => .lone half

/-- Below `80`, only the first run has lower case forms. -/
theorem findSome?_caseRuns {n : Nat} (hn : n < 0x80) :
    caseRuns.findSome? (·.lower? n) = (⟨65, 90, 1, 97⟩ : CaseRun).lower? n := by
  have hruns : caseRuns = ⟨65, 90, 1, 97⟩ :: caseRuns.tail := rfl
  have hfirst : ∀ r ∈ caseRuns.tail, 0x80 ≤ r.first := by decide +kernel
  have hnone : caseRuns.tail.findSome? (·.lower? n) = none := by
    refine List.findSome?_eq_none_iff.mpr fun r hr => if_neg ?_
    have hr := hfirst r hr
    omega
  rw [hruns, List.findSome?_cons, hnone]
  cases (⟨65, 90, 1, 97⟩ : CaseRun).lower? n <;> rfl

/-- Below `80`, lower case is that of ASCII. -/
theorem lower_of_lt {c : CodePoint} (hc : c.toNat < 0x80) : c.lower = [c.small] := by
  have hall : ∀ n < 0x80, ((⟨65, 90, 1, 97⟩ : CaseRun).lower? n).elim
      [.scalar (Char.ofNat n)] (fun m => [ofNat m]) =
        [(CodePoint.scalar (Char.ofNat n)).small] := by
    decide +kernel
  cases c with
  | scalar c =>
    have hnumber : (CodePoint.scalar c).toNat = c.toNat := rfl
    have hsmall := hall c.toNat hc
    rw [Char.ofNat_toNat] at hsmall
    rw [lower, findSome?_caseRuns hc, if_neg (by omega), ← hsmall, hnumber]
    cases (⟨65, 90, 1, 97⟩ : CaseRun).lower? c.toNat <;> rfl
  | lone half =>
    simp only [toNat] at hc
    omega

/-- A code point is below `80` if its small letter is. -/
theorem lt_of_small {c : CodePoint} (hc : c.small.toNat < 0x80) : c.toNat < 0x80 := by
  cases c with
  | lone half => exact hc
  | scalar c =>
    by_cases hcapital : 'A'.val ≤ c.val ∧ c.val ≤ 'Z'.val
    · exact Nat.lt_of_le_of_lt (UInt32.le_iff_toNat_le.mp hcapital.2) (by decide)
    · have hsmall : c.toLower = c := dif_neg hcapital
      rwa [small, hsmall] at hc

/-- A character has no number of a lone half. -/
theorem toNat_scalar_ne_lone (c : Char) (half : Fin 0x800) :
    (scalar c).toNat ≠ (lone half).toNat := by
  have hhalf := half.isLt
  have hvalid : c.toNat < 0xD800 ∨ 0xDFFF < c.toNat ∧ c.toNat < 0x110000 := c.valid
  simp only [toNat]
  omega

theorem toNat_injective : Function.Injective toNat := by
  intro c d h
  cases c with
  | scalar c =>
    cases d with
    | scalar d => exact congrArg scalar (Char.toNat_inj.mp h)
    | lone half => exact absurd h (toNat_scalar_ne_lone c half)
  | lone half =>
    cases d with
    | scalar d => exact absurd h.symm (toNat_scalar_ne_lone d half)
    | lone half' => exact congrArg lone (Fin.ext (Nat.add_left_cancel h))

theorem toNat_ofNat {n : Nat} (hn : n < 0x110000) : (ofNat n).toNat = n := by
  unfold ofNat
  split
  · next h =>
    simp only [toNat]
    omega
  · next h =>
    have hvalid : n.isValidChar := by
      unfold Nat.isValidChar
      omega
    rw [toNat, Char.ofNat, dif_pos hvalid]
    rfl

/-- The sign for kelvin, whose lower case form is `k`. -/
def kelvin : CodePoint := .ofNat 0x212A

/-- The form of a code point outside ASCII holds another one outside it, or an `i`; only the sign
for kelvin has another form. -/
theorem exists_mem_lower {c : CodePoint} (hc : 0x80 ≤ c.toNat) (hne : c.toNat ≠ 0x212A) :
    ∃ d ∈ c.lower, 0x80 ≤ d.toNat ∨ d = .scalar 'i' := by
  have hruns : ∀ r ∈ caseRuns, r.last < 0x80 ∨ r.first = 0x212A ∧ r.last = 0x212A ∨
      0x80 ≤ r.lower ∧ r.lower + (r.last - r.first) < 0x110000 := by
    decide +kernel
  unfold lower
  split
  · exact ⟨_, List.mem_cons_self, .inr rfl⟩
  split
  · next n hn =>
    refine ⟨_, List.mem_singleton_self _, .inl ?_⟩
    obtain ⟨r, hr, hlower⟩ := List.exists_of_findSome?_eq_some hn
    unfold CaseRun.lower? at hlower
    split at hlower
    · next hrange =>
      obtain rfl := Option.some.inj hlower
      obtain ⟨hfirst, hlast, -⟩ := hrange
      rcases hruns r hr with hlow | ⟨hone, hsame⟩ | ⟨hhigh, hvalid⟩
      · omega
      · omega
      · rw [toNat_ofNat (by omega)]
        omega
    · cases hlower
  · exact ⟨c, List.mem_singleton_self c, .inl hc⟩

/-- The code point is the letter in some case, or the sign for kelvin, which stands for a `k`. -/
def Folds (c d : CodePoint) : Prop := c.small = d ∨ c = kelvin ∧ d = .scalar 'k'

theorem Folds.lower {c d : CodePoint} (h : c.Folds d) (hd : d.toNat < 0x80) : c.lower = [d] := by
  rcases h with rfl | ⟨rfl, rfl⟩
  · exact lower_of_lt (lt_of_small hd)
  · decide +kernel

theorem Folds.ne_capitalSigma {c d : CodePoint} (h : c.Folds d) (hd : d.toNat < 0x80) :
    c ≠ capitalSigma := by
  rintro rfl
  rcases h with rfl | ⟨hkelvin, -⟩
  · exact absurd hd (by decide)
  · exact absurd hkelvin (by decide)

/-- A code point whose form is in ASCII and holds no `i` stands for the one letter of its form. -/
theorem exists_folds {c : CodePoint} (h : ∀ d ∈ c.lower, d.toNat < 0x80 ∧ d ≠ .scalar 'i') :
    ∃ d, c.lower = [d] ∧ c.Folds d := by
  by_cases hascii : c.toNat < 0x80
  · exact ⟨c.small, lower_of_lt hascii, .inl rfl⟩
  · by_cases hkelvin : c.toNat = 0x212A
    · obtain rfl : c = kelvin := toNat_injective (hkelvin.trans (by decide))
      exact ⟨.scalar 'k', by decide +kernel, .inr ⟨rfl, rfl⟩⟩
    · obtain ⟨d, hd, hform⟩ := exists_mem_lower (Nat.le_of_not_lt hascii) hkelvin
      obtain ⟨hlow, hletter⟩ := h d hd
      rcases hform with hhigh | hi
      · omega
      · exact absurd hi hletter

/-- A blank has no other case. -/
theorem small_of_isBlank {c : CodePoint} (h : c.isBlank = true) : c.small = c := by
  have hranges : ∀ r ∈ whiteRanges, r.2 ≤ 32 ∨ 133 ≤ r.1 := by decide
  cases c with
  | lone half => rfl
  | scalar c =>
    have hblank : c.toNat ≤ 32 ∨ 133 ≤ c.toNat := by
      simp only [isBlank, isWhite, Bool.or_eq_true, inRanges_iff, Bool.and_eq_true, toNat] at h
      rcases h with ⟨r, hr, hfirst, hlast⟩ | ⟨-, hseparator⟩
      · have hr := hranges r hr
        omega
      · have hseparator := of_decide_eq_true hseparator
        omega
    have hcapital : ¬ ('A'.val ≤ c.val ∧ c.val ≤ 'Z'.val) := by
      rintro ⟨hfirst, hlast⟩
      have hfirst : 65 ≤ c.toNat := UInt32.le_iff_toNat_le.mp hfirst
      have hlast : c.toNat ≤ 90 := UInt32.le_iff_toNat_le.mp hlast
      omega
    have hsmall : c.toLower = c := dif_neg hcapital
    rw [small, hsmall]

end CodePoint

namespace Text

/-- The text is a word in some case of its letters. -/
def Spells (t word : Text) : Prop := t.map CodePoint.small = word

instance (t word : Text) : Decidable (t.Spells word) := inferInstanceAs (Decidable (_ = _))

/-- No lone half is a letter of a word in another case. -/
theorem Spells.scalar {t word : Text} (h : t.Spells word) (hword : word.Scalar) : t.Scalar := by
  intro c hc
  have hsmall : c.small ∈ word := h ▸ List.mem_map_of_mem hc
  cases c with
  | scalar c => rfl
  | lone half => exact hword _ hsmall

/-- A text has a word of ASCII without `i` for lower case exactly if its code points stand for the
letters of the word one by one. -/
theorem lower_eq_iff {t word : Text} (hword : ∀ c ∈ word, c.toNat < 0x80 ∧ c ≠ .scalar 'i') :
    t.lower = word ↔ List.Forall₂ CodePoint.Folds t word := by
  have hall (before : Text) : lowerAfter before t = word ↔ List.Forall₂ CodePoint.Folds t word := by
    induction t generalizing before word with
    | nil => simp [lowerAfter, eq_comm]
    | cons c t ih =>
      constructor
      · intro h
        rw [lowerAfter] at h
        split at h
        · -- neither form of a sigma is in ASCII
          subst h
          have hsigma := (hword _ (List.mem_append_left _ (List.mem_singleton_self _))).1
          split at hsigma <;> exact absurd hsigma (by decide)
        · obtain ⟨d, hlower, hfolds⟩ := CodePoint.exists_folds fun d hd =>
            hword d (h ▸ List.mem_append_left _ hd)
          rw [hlower, List.singleton_append] at h
          subst h
          exact .cons hfolds ((ih (fun e he => hword e (List.mem_cons_of_mem d he)) _).mp rfl)
      · rintro (_ | ⟨hfolds, hrest⟩)
        next d word =>
        have hd := (hword d List.mem_cons_self).1
        rw [lowerAfter, if_neg (hfolds.ne_capitalSigma hd), hfolds.lower hd,
          (ih (fun e he => hword e (List.mem_cons_of_mem d he)) _).mpr hrest]
        rfl
  exact hall []

/-- Without a `k` in the word the sign for kelvin has no place in the text. -/
theorem forall₂_folds_iff {t word : Text} (hword : .scalar 'k' ∉ word) :
    List.Forall₂ CodePoint.Folds t word ↔ t.Spells word := by
  induction t generalizing word with
  | nil => simp [Spells, eq_comm]
  | cons c t ih =>
    cases word with
    | nil => simp [Spells]
    | cons d word =>
      rw [List.mem_cons, not_or] at hword
      rw [List.forall₂_cons, ih hword.2]
      simp [Spells, CodePoint.Folds, Ne.symm hword.1]

/-- A text spells a word exactly if the word is its lower case. -/
theorem spells_iff {t word : Text} (hword : ∀ c ∈ word, c.toNat < 0x80 ∧ c ∉ ("ik" : Text)) :
    t.Spells word ↔ t.lower = word := by
  have hletters : ∀ c ∈ word, c ≠ .scalar 'i' ∧ c ≠ .scalar 'k' := by
    intro c hc
    have hc := (hword c hc).2
    constructor <;>
    · rintro rfl
      exact absurd hc (by decide)
  rw [lower_eq_iff fun c hc => ⟨(hword c hc).1, (hletters c hc).1⟩,
    forall₂_folds_iff fun hk => (hletters _ hk).2 rfl]

/-! ### Blanks around a word -/

section Trim

variable {kind : CodePoint → Bool}

/-- What is trimmed off a text is of the kind. -/
theorem exists_of_trim (kind : CodePoint → Bool) (t : Text) :
    ∃ before after, t = before ++ t.trim kind ++ after ∧ (∀ c ∈ before, kind c = true) ∧
      ∀ c ∈ after, kind c = true := by
  refine ⟨t.takeWhile kind, ((t.dropWhile kind).reverse.takeWhile kind).reverse, ?_,
    fun c => List.mem_takeWhile_imp, fun c hc => List.mem_takeWhile_imp (List.mem_reverse.mp hc)⟩
  rw [trim, trimEnd, List.append_assoc, ← List.reverse_append, List.takeWhile_append_dropWhile,
    List.reverse_reverse, List.takeWhile_append_dropWhile]

theorem dropWhile_of_forall_not {t : Text} (h : ∀ c ∈ t, kind c = false) :
    t.dropWhile kind = t := by
  cases t with
  | nil => rfl
  | cons c t => simp [h c List.mem_cons_self]

/-- A text with nothing of the kind in it is what is left when it is trimmed. -/
theorem trim_append {before core after : Text} (hbefore : ∀ c ∈ before, kind c = true)
    (hcore : ∀ c ∈ core, kind c = false) (hafter : ∀ c ∈ after, kind c = true) :
    (before ++ core ++ after).trim kind = core := by
  rw [trim, trimEnd, List.append_assoc, List.dropWhile_append_of_pos hbefore]
  cases core with
  | nil => simp [List.dropWhile_eq_nil_iff.mpr hafter]
  | cons c core =>
    have hc : kind c = false := hcore c List.mem_cons_self
    rw [List.cons_append, List.dropWhile_cons_of_neg (by simp [hc]), ← List.cons_append,
      List.reverse_append, List.dropWhile_append_of_pos (by simpa using hafter),
      dropWhile_of_forall_not fun d hd => hcore d (List.mem_reverse.mp hd), List.reverse_reverse]

end Trim

/-- The text is a word in some case of its letters, with blanks around it. -/
def Says (t word : Text) : Prop :=
  ∃ before core after, t = before ++ core ++ after ∧ before.isBlank = true ∧
    after.isBlank = true ∧ core.Spells word

/-- A text says a word exactly if the word is what is left in lower case when blanks are trimmed
off. -/
theorem lower_trim_eq_iff {t word : Text}
    (hword : ∀ c ∈ word, c.toNat < 0x80 ∧ c ∉ ("ik" : Text) ∧ c.isBlank = false) :
    (t.trim CodePoint.isBlank).lower = word ↔ t.Says word := by
  rw [← spells_iff fun c hc => ⟨(hword c hc).1, (hword c hc).2.1⟩]
  constructor
  · intro h
    obtain ⟨before, after, ht, hbefore, hafter⟩ := exists_of_trim CodePoint.isBlank t
    exact ⟨before, _, after, ht, List.all_eq_true.mpr hbefore, List.all_eq_true.mpr hafter, h⟩
  · rintro ⟨before, core, after, rfl, hbefore, hafter, hcore⟩
    -- a blank is its own small letter, so there is none in what spells a word without blanks
    have hshown : ∀ c ∈ core, c.isBlank = false := by
      intro c hc
      by_contra hblank
      have hsmall := CodePoint.small_of_isBlank (Bool.not_eq_false _ ▸ hblank)
      have hmem : c.small ∈ word := hcore ▸ List.mem_map_of_mem hc
      exact hblank (hsmall ▸ (hword _ hmem).2.2)
    rwa [trim_append (List.all_eq_true.mp hbefore) hshown (List.all_eq_true.mp hafter)]

end Text

end ParserClient
