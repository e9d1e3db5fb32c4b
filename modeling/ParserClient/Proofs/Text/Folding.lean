import ParserClient.Proofs.Text.Words

/-!
# Lower case is left by lower case

A form in lower case has no form of its own: the forms of a run of capitals lie beside every run or,
where capitals and small letters take turns, between its capitals. Neither has the `i` with its dot
that one capital becomes, nor a sigma of either shape. So lower case of a text is its own lower
case.

## Main definitions

* `CodePoint.IsFolded` — lower case leaves a code point wherever it stands.

## Main results

* `CaseRun.lower?_of_misses`, `misses_of_mem_caseRuns` — no form of a run has a form in a run.
* `Text.lower_lower` — lower case leaves lower case.
-/

namespace ParserClient

namespace CaseRun

/-- The forms of a run are found to have no form in another by their ends, or by their places where
the capitals of the other take turns with other numbers. -/
def misses (r s : CaseRun) : Bool :=
  (r.lower + (r.last - r.first)).blt s.first || s.last.blt r.lower ||
    (r.step.beq 2 || r.first.beq r.last) && s.step.beq 2 && s.first.ble r.lower &&
      ((r.lower - s.first) % 2).beq 1

/-- A form in a run that misses another has no form there. -/
theorem lower?_of_misses {r s : CaseRun} (h : r.misses s = true) {m n : Nat}
    (hn : r.lower? m = some n) : s.lower? n = none := by
  unfold lower? at hn
  split at hn
  · next hm =>
    obtain rfl := Option.some.inj hn
    obtain ⟨hfirst, hlast, hstep⟩ := hm
    refine if_neg ?_
    rintro ⟨hfrom, hto, hturn⟩
    simp only [misses, Bool.or_eq_true, Bool.and_eq_true, Nat.blt_eq, Nat.beq_eq,
      Nat.ble_eq] at h
    obtain (hbefore | hafter) | ⟨⟨⟨hone, htwo⟩, hin⟩, hodd⟩ := h
    · omega
    · omega
    · -- the forms keep an odd distance from the first capital of the other run
      have heven : (m - r.first) % 2 = 0 := by
        rcases hone with hone | hone
        · rwa [hone] at hstep
        · omega
      rw [htwo] at hturn
      omega
  · cases hn

end CaseRun

theorem misses_of_mem_caseRuns {r s : CaseRun} (hr : r ∈ caseRuns) (hs : s ∈ caseRuns) :
    r.misses s = true := by
  have hall : (caseRuns.all fun r => caseRuns.all fun s => r.misses s) = true := by
    decide +kernel
  exact List.all_eq_true.mp (List.all_eq_true.mp hall r hr) s hs

namespace CodePoint

/-- Lower case leaves the code point wherever it stands. -/
def IsFolded (c : CodePoint) : Prop := c ≠ capitalSigma ∧ c.lower = [c]

instance (c : CodePoint) : Decidable c.IsFolded := inferInstanceAs (Decidable (_ ∧ _))

/-- The form that a run has for a number is the number of a code point that lower case leaves. -/
theorem isFolded_of_lower? {r : CaseRun} (hr : r ∈ caseRuns) {m n : Nat}
    (hn : r.lower? m = some n) : (ofNat n).IsFolded := by
  have hforms : ∀ r ∈ caseRuns, r.lower + (r.last - r.first) < 0x110000 ∧
      (r.lower + (r.last - r.first) < 0x130 ∨ 0x130 < r.lower) ∧
      (r.lower + (r.last - r.first) < 0x3A3 ∨ 0x3A3 < r.lower) := by
    decide +kernel
  obtain ⟨hbound, hdotted, hsigma⟩ := hforms r hr
  have hrange : r.lower ≤ n ∧ n ≤ r.lower + (r.last - r.first) := by
    unfold CaseRun.lower? at hn
    split at hn
    · obtain rfl := Option.some.inj hn
      omega
    · cases hn
  have hnumber : (ofNat n).toNat = n := toNat_ofNat (by omega)
  constructor
  · intro h
    have hsame : (ofNat n).toNat = 0x3A3 := congrArg toNat h
    omega
  · have hnone : caseRuns.findSome? (·.lower? n) = none :=
      List.findSome?_eq_none_iff.mpr fun s hs =>
        CaseRun.lower?_of_misses (misses_of_mem_caseRuns hr hs) hn
    rw [lower, hnumber, if_neg (by omega), hnone]

/-- Lower case leaves the code points of a form. -/
theorem isFolded_of_mem_lower {c d : CodePoint} (hc : c ≠ capitalSigma) (h : d ∈ c.lower) :
    d.IsFolded := by
  have hdotted : ∀ d ∈ [.scalar 'i', ofNat 0x307], d.IsFolded := by decide +kernel
  by_cases hone : c.toNat = 0x130
  · rw [lower, if_pos hone] at h
    exact hdotted d h
  · cases hform : caseRuns.findSome? (·.lower? c.toNat) with
    | some n =>
      rw [lower, if_neg hone, hform] at h
      obtain ⟨r, hr, hn⟩ := List.exists_of_findSome?_eq_some hform
      obtain rfl := List.mem_singleton.mp h
      exact isFolded_of_lower? hr hn
    | none =>
      have hsame : c.lower = [c] := by rw [lower, if_neg hone, hform]
      rw [hsame] at h
      obtain rfl := List.mem_singleton.mp h
      exact ⟨hc, hsame⟩

end CodePoint

namespace Text

theorem lowerAfter_of_isFolded (before : Text) {t : Text} (h : ∀ c ∈ t, c.IsFolded) :
    lowerAfter before t = t := by
  induction t generalizing before with
  | nil => rfl
  | cons c t ih =>
    obtain ⟨hsigma, hlower⟩ := h c List.mem_cons_self
    rw [lowerAfter, if_neg hsigma, hlower, ih _ fun d hd => h d (List.mem_cons_of_mem c hd)]
    rfl

/-- Lower case leaves every code point of lower case. -/
theorem isFolded_of_mem_lowerAfter {before t : Text} {d : CodePoint}
    (h : d ∈ lowerAfter before t) : d.IsFolded := by
  induction t generalizing before with
  | nil => cases h
  | cons c t ih =>
    rw [lowerAfter] at h
    rcases List.mem_append.mp h with h | h
    · have hsigmas : ∀ d ∈ [CodePoint.ofNat 0x3C2, CodePoint.ofNat 0x3C3], d.IsFolded := by
        decide +kernel
      split at h
      · refine hsigmas d ?_
        rw [List.mem_singleton] at h
        split at h <;> simp [h]
      · next hsigma => exact CodePoint.isFolded_of_mem_lower hsigma h
    · exact ih h

/-- Lower case leaves lower case. -/
theorem lower_lower (t : Text) : t.lower.lower = t.lower :=
  lowerAfter_of_isFolded [] fun _ => isFolded_of_mem_lowerAfter

end Text

end ParserClient
