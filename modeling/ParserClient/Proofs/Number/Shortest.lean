import ParserClient.Number.Shortest
import ParserClient.Proofs.Number.Integer

/-!
# What the text of a floating point number is made of

The text of a number holds decimal digits, the signs `-` and `+`, the point and the letter of the
exponent; a number without digits has a word. It is never empty. Nothing is said about which digits
they are.

## Main definitions

* `Double.isNumeralChar` — the characters of a number with digits.

## Main results

* `Double.text_cases` — the forms of the text of a number.
-/

namespace ParserClient

namespace Double

/-- A character of a number that has digits. -/
def isNumeralChar (c : Char) : Bool := c.isDigit || c ∈ ['-', '+', '.', 'e']

theorem isNumeralChar_of_isDigit {c : Char} (h : c.isDigit = true) : isNumeralChar c = true := by
  rw [isNumeralChar, h, Bool.true_or]

theorem isDigit_of_mem_shortestFrom {x : Double} {magnitude : Int} {remaining : Nat} {c : Char}
    (h : c ∈ (x.shortestFrom magnitude remaining).digits) : c.isDigit = true := by
  induction remaining with
  | zero =>
    obtain rfl := List.mem_singleton.mp h
    rfl
  | succ remaining ih =>
    rw [shortestFrom] at h
    split at h
    · have hdigits := (List.dropWhile_sublist _).subset (List.mem_reverse.mp h)
      exact Natural.isDigit_of_mem (List.mem_reverse.mp hdigits)
    · exact ih h

/-- The characters of a decimal, of which there is one at least. -/
theorem text_of_digits (layout : Layout) {d : Decimal}
    (hdigits : ∀ c ∈ d.digits, c.isDigit = true) :
    ∃ chars : List Char, d.text layout = chars.map .scalar ∧ chars ≠ [] ∧
      ∀ c ∈ chars, isNumeralChar c = true := by
  have hdigit : ∀ c ∈ d.digits, isNumeralChar c = true := fun c hc =>
    isNumeralChar_of_isDigit (hdigits c hc)
  have htake : ∀ n, ∀ c ∈ d.digits.take n, isNumeralChar c = true := fun n c hc =>
    hdigit c (List.mem_of_mem_take hc)
  have hdrop : ∀ n, ∀ c ∈ d.digits.drop n, isNumeralChar c = true := fun n c hc =>
    hdigit c (List.mem_of_mem_drop hc)
  have hzeros : ∀ n, ∀ c ∈ List.replicate n '0', isNumeralChar c = true := fun n c hc => by
    rw [List.eq_of_mem_replicate hc]
    rfl
  have hpower : ∀ n, ∀ c ∈ Nat.toDigits 10 n, isNumeralChar c = true := fun n c hc =>
    isNumeralChar_of_isDigit (Natural.isDigit_of_mem hc)
  unfold Decimal.text
  refine ⟨_, rfl, ?_, ?_⟩
  · split
    · split <;> simp
    · simp
  -- the positional forms below and from one on, and the form with an exponent
  · split
    · split
      · simp only [List.forall_mem_append]
        exact ⟨⟨List.all_eq_true.mp rfl, hzeros _⟩, hdigit⟩
      · simp only [List.forall_mem_append]
        refine ⟨⟨⟨htake _, hzeros _⟩, List.all_eq_true.mp rfl⟩, ?_⟩
        split
        · exact List.all_eq_true.mp rfl
        · exact hdrop _
    · simp only [List.forall_mem_append]
      refine ⟨⟨⟨⟨htake _, ?_⟩, ?_⟩, hzeros _⟩, hpower _⟩
      · split
        · simp
        · exact List.forall_mem_cons.mpr ⟨rfl, hdrop _⟩
      · split <;> exact List.all_eq_true.mp rfl

/-- The text of a number is a word, with a minus sign or without one, or it has digits. -/
theorem text_cases (words : NumberWords) (x : Double) :
    x.text words = words.nan ∨
      (∃ sign : Text, (sign = [] ∨ sign = "-") ∧ x.text words = sign ++ words.infinity) ∨
      ∃ chars : List Char, x.text words = chars.map .scalar ∧ chars ≠ [] ∧
        ∀ c ∈ chars, isNumeralChar c = true := by
  unfold text
  split
  · exact .inl rfl
  · right
    obtain ⟨sign, hsign, htext⟩ : ∃ sign : List Char, (sign = [] ∨ sign = ['-']) ∧
        (if x.negative = true then [CodePoint.scalar '-'] else []) = sign.map .scalar := by
      split
      · exact ⟨['-'], .inr rfl, rfl⟩
      · exact ⟨[], .inl rfl, rfl⟩
    have hsigns : ∀ c ∈ sign, isNumeralChar c = true := by
      rcases hsign with rfl | rfl <;> exact List.all_eq_true.mp rfl
    rw [htext]
    split
    · refine .inl ⟨_, ?_, rfl⟩
      rcases hsign with rfl | rfl
      · exact .inl rfl
      · exact .inr rfl
    · right
      split
      · refine ⟨sign ++ ['0', '.', '0'], by rw [List.map_append]; rfl, by simp, ?_⟩
        exact List.forall_mem_append.mpr ⟨hsigns, List.all_eq_true.mp rfl⟩
      · obtain ⟨chars, hchars, hne, hnumeral⟩ := text_of_digits Layout.standard
          (d := x.shortest) fun c hc => isDigit_of_mem_shortestFrom hc
        exact ⟨sign ++ chars, by rw [List.map_append, hchars], by simp [hne],
          List.forall_mem_append.mpr ⟨hsigns, hnumeral⟩⟩

end Double

end ParserClient
