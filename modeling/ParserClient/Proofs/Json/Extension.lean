import Mathlib.Data.List.TakeWhile
import ParserClient.Proofs.Json.Stops

/-!
# What is read does not change when the text goes on

A reader that has come to the end of a string, an array or an object reads the same of every text
that goes on from there. A number alone has no end of its own: more digits, a point or an exponent
may still come. So a value is settled only if something stands behind it that goes on no number,
and inside a container something does, the comma or the closing sign, with space in front of it.
A text that is read, and goes on to be an object, is therefore that object already.

## Main definitions

* `Json.Ended` — where a value has ended.
* `Json.Firm`, `Json.Settled` — readers whose results do not change when the text goes on.
* `Json.Run`, `Json.Enclosed` — the pieces of a container.

## Main results

* `Json.string_append`, `Json.number_append` — strings and numbers.
* `Json.Run.append` — the pieces of a container, by induction on them.
* `Json.settled_value` — values, by induction on the depth.
* `Json.document_of_append` — a text that goes on to be an object.
-/

namespace ParserClient

namespace Json

/-- A value has ended in front of the text: something stands there, and it goes on no number. -/
def Ended (left : Text) : Prop := ∃ c ∈ left.head?, continuesNumber c = false

/-- What is read of a text is read of it with anything behind it. -/
def Firm {α : Type} (reader : Text → Reading α) : Prop :=
  ∀ ⦃t : Text⦄ ⦃a : α⦄ ⦃left : Text⦄, reader t = .ok (a, left) →
    ∀ rest, reader (t ++ rest) = .ok (a, left ++ rest)

/-- Something has to be there to be read, and what is read of a text and has ended there is read of
it with anything behind it. -/
structure Settled {α : Type} (reader : Text → Reading α) : Prop where
  nil : ∀ r, reader [] ≠ .ok r
  append : ∀ ⦃t : Text⦄ ⦃a : α⦄ ⦃left : Text⦄, reader t = .ok (a, left) → Ended left →
    ∀ rest, reader (t ++ rest) = .ok (a, left ++ rest)

variable {t left : Text}

theorem Ended.ne_nil (h : Ended left) : left ≠ [] := by
  rintro rfl
  obtain ⟨c, hc, -⟩ := h
  cases hc

theorem Ended.of_cons {c : CodePoint} (h : Ended (c :: left)) : continuesNumber c = false := by
  obtain ⟨d, hd, hno⟩ := h
  exact Option.some.inj hd ▸ hno

theorem map_eq_ok_iff {ε α β : Type} {r : Except ε α} {make : α → β} {b : β} :
    r.map make = .ok b ↔ ∃ a, r = .ok a ∧ make a = b := by
  cases r <;> simp [Except.map]

/-! ### Numbers -/

section Numbers

variable {digits : List Nat}

theorem spanDigits_append (h : Text.spanDigits t = (digits, left)) (hleft : left ≠ [])
    (rest : Text) : Text.spanDigits (t ++ rest) = (digits, left ++ rest) := by
  induction t generalizing digits with
  | nil => exact absurd (congrArg Prod.snd h).symm hleft
  | cons c t ih =>
    rw [Text.spanDigits] at h
    rw [List.cons_append, Text.spanDigits]
    cases hc : c.digit? with
    | none =>
      rw [hc] at h
      cases h
      rfl
    | some d =>
      rw [hc] at h
      obtain ⟨rfl, hspan⟩ := Prod.mk.inj h
      simp only [ih (Prod.ext rfl hspan)]

theorem takeWhole_append (h : takeWhole t = (digits, left)) (hleft : left ≠ []) (rest : Text) :
    takeWhole (t ++ rest) = (digits, left ++ rest) := by
  cases t with
  | nil => exact absurd (congrArg Prod.snd h).symm hleft
  | cons c t =>
    rw [takeWhole] at h
    rw [List.cons_append, takeWhole]
    cases hc : c.digit? with
    | none =>
      rw [hc] at h
      cases h
      rfl
    | some d =>
      rw [hc] at h
      cases d with
      | zero =>
        cases h
        rfl
      | succ d => exact spanDigits_append h hleft rest

theorem takeMinus_append (ht : t ≠ []) (rest : Text) :
    takeMinus (t ++ rest) = ((takeMinus t).1, (takeMinus t).2 ++ rest) := by
  obtain ⟨c, t, rfl⟩ := List.exists_cons_of_ne_nil ht
  by_cases hc : c = .scalar '-'
  · rw [hc]
    rfl
  · simp [takeMinus, hc]

theorem takeSign_append (ht : t ≠ []) (rest : Text) :
    Text.takeSign (t ++ rest) = ((Text.takeSign t).1, (Text.takeSign t).2 ++ rest) := by
  obtain ⟨c, t, rfl⟩ := List.exists_cons_of_ne_nil ht
  by_cases hminus : c = .scalar '-'
  · rw [hminus]
    rfl
  by_cases hplus : c = .scalar '+'
  · rw [hplus]
    rfl
  · simp [Text.takeSign, hminus, hplus]

/-- An exponent without digits is left, and then what is left goes on the number. -/
theorem takeExponent_append {exponent : Option Int} (h : takeExponent t = (exponent, left))
    (hleft : Ended left) (rest : Text) :
    takeExponent (t ++ rest) = (exponent, left ++ rest) := by
  cases t with
  | nil => exact absurd (congrArg Prod.snd h).symm hleft.ne_nil
  | cons c r =>
    cases c with
    | lone half =>
      cases h
      rfl
    | scalar e =>
      by_cases he : e = 'e' ∨ e = 'E'
      · rw [List.cons_append]
        simp only [takeExponent, he, ↓reduceIte] at h ⊢
        cases hspan : Text.spanDigits (Text.takeSign r).2 with
        | mk digits behind =>
          rw [hspan] at h
          cases digits with
          | nil =>
            -- the letter of the exponent is left, and it goes on a number
            cases h
            have hno := hleft.of_cons
            rcases he with rfl | rfl <;> exact absurd hno (by decide)
          | cons d digits =>
            cases h
            have hr : r ≠ [] := by
              rintro rfl
              cases hspan
            rw [takeSign_append hr, spanDigits_append hspan hleft.ne_nil]
      · simp only [takeExponent, he, ↓reduceIte] at h
        cases h
        simp only [List.cons_append, takeExponent, he, ↓reduceIte]

/-- Where an exponent has ended, no point was in front of it. -/
theorem ne_point_of_takeExponent {exponent : Option Int} (h : takeExponent t = (exponent, left))
    (hleft : Ended left) : t ≠ [] ∧ t.head? ≠ some (.scalar '.') := by
  constructor
  · rintro rfl
    cases h
    exact hleft.ne_nil rfl
  · intro hhead
    obtain ⟨r, rfl⟩ := List.head?_eq_some_iff.mp hhead
    cases h
    exact absurd hleft.of_cons (by decide)

theorem takeFraction_append (h : takeFraction t = (digits, left)) (hleft : left ≠ [])
    (hpoint : left.head? ≠ some (.scalar '.')) (rest : Text) :
    takeFraction (t ++ rest) = (digits, left ++ rest) := by
  cases t with
  | nil => exact absurd (congrArg Prod.snd h).symm hleft
  | cons c r =>
    by_cases hc : c = .scalar '.'
    · subst hc
      rw [List.cons_append]
      simp only [takeFraction] at h ⊢
      cases hspan : Text.spanDigits r with
      | mk part behind =>
        rw [hspan] at h
        cases part with
        | nil =>
          cases h
          exact absurd rfl hpoint
        | cons d part =>
          cases h
          rw [spanDigits_append hspan hleft]
    · have hnone : ∀ r, takeFraction (c :: r) = ([], c :: r) := fun r => by
        simp [takeFraction, hc]
      rw [hnone] at h
      cases h
      exact hnone _

/-- The pieces of a number. -/
theorem number_eq_ok_iff {a : Tree} :
    number t = .ok (a, left) ↔ ∃ whole t₁ fraction t₂ exponent,
      takeWhole (takeMinus t).2 = (whole, t₁) ∧ takeFraction t₁ = (fraction, t₂) ∧
      takeExponent t₂ = (exponent, left) ∧ whole ≠ [] ∧
      numberOf (takeMinus t).1 whole fraction exponent = .ok a := by
  unfold number
  dsimp only
  constructor
  · intro h
    split at h
    · cases h
    · next whole t₁ hne hwhole =>
      obtain ⟨tree, hnumber, hpair⟩ := map_eq_ok_iff.mp h
      obtain ⟨rfl, hleft⟩ := Prod.mk.inj hpair
      refine ⟨whole, t₁, _, _, _, hwhole, rfl, Prod.ext rfl hleft, ?_, hnumber⟩
      rintro rfl
      exact hne rfl
  · rintro ⟨whole, t₁, fraction, t₂, exponent, hwhole, hfraction, hexponent, hne, hnumber⟩
    obtain ⟨d, whole, rfl⟩ := List.exists_cons_of_ne_nil hne
    simp only [hwhole, hfraction, hexponent, hnumber]
    rfl

/-- A number that has ended is read with anything behind it. -/
theorem number_append {a : Tree} (h : number t = .ok (a, left)) (hleft : Ended left) (rest : Text) :
    number (t ++ rest) = .ok (a, left ++ rest) := by
  obtain ⟨whole, t₁, fraction, t₂, exponent, hwhole, hfraction, hexponent, hne, hnumber⟩ :=
    number_eq_ok_iff.mp h
  obtain ⟨ht₂, hpoint⟩ := ne_point_of_takeExponent hexponent hleft
  have ht₁ : t₁ ≠ [] := by
    rintro rfl
    exact ht₂ (congrArg Prod.snd hfraction).symm
  have ht : t ≠ [] := by
    rintro rfl
    exact ht₁ (congrArg Prod.snd hwhole).symm
  rw [number_eq_ok_iff, takeMinus_append ht]
  exact ⟨whole, t₁ ++ rest, fraction, t₂ ++ rest, exponent, takeWhole_append hwhole ht₁ rest,
    takeFraction_append hfraction ht₂ hpoint rest, takeExponent_append hexponent hleft rest,
    hne, hnumber⟩

end Numbers

/-! ### Strings -/

section Strings

variable {opening name : Text} {c d₁ d₂ d₃ d₄ e₁ e₂ e₃ e₄ p q next : CodePoint}

theorem prepend_eq_ok_iff {r : Reading Text} :
    prepend c r = .ok (name, left) ↔ ∃ rest, r = .ok (rest, left) ∧ name = c :: rest := by
  rw [prepend, map_eq_ok_iff]
  constructor
  · rintro ⟨⟨rest, behind⟩, hr, hpair⟩
    cases hpair
    exact ⟨rest, hr, rfl⟩
  · rintro ⟨rest, hr, rfl⟩
    exact ⟨(rest, left), hr, rfl⟩

/-- A number stands for its code point alone, unless it is that of a leading half and another number
follows. -/
theorem string_alone (h : hexPoint? d₁ d₂ d₃ d₄ = some p)
    (halone : p.isLeading = true → next = .scalar '\\' → t.head? ≠ some (.scalar 'u')) :
    string opening (.scalar '\\' :: .scalar 'u' :: d₁ :: d₂ :: d₃ :: d₄ :: next :: t) =
      prepend p (string opening (next :: t)) := by
  rw [string.eq_def]
  simp only [h, ↓reduceIte, CodePoint.scalar.injEq, Char.reduceEq]
  split
  · next u _ _ _ _ _ _ =>
    rw [if_neg]
    intro hpair
    simp only [Bool.and_eq_true, decide_eq_true_eq] at hpair
    exact halone hpair.1.1 hpair.1.2 (congrArg some hpair.2)
  · rfl

/-- Two numbers in a row, of which the first is that of a leading half. -/
theorem string_pair (hp : hexPoint? d₁ d₂ d₃ d₄ = some p) (hleading : p.isLeading = true)
    (hq : hexPoint? e₁ e₂ e₃ e₄ = some q) :
    string opening (.scalar '\\' :: .scalar 'u' :: d₁ :: d₂ :: d₃ :: d₄ :: .scalar '\\' ::
        .scalar 'u' :: e₁ :: e₂ :: e₃ :: e₄ :: next :: t) =
      if q.isTrailing then prepend (.join p q) (string opening (next :: t))
      else prepend p (string opening
        (.scalar '\\' :: .scalar 'u' :: e₁ :: e₂ :: e₃ :: e₄ :: next :: t)) := by
  rw [string.eq_def]
  simp only [hp, hq, hleading, ↓reduceIte, CodePoint.scalar.injEq, Char.reduceEq, decide_true,
    Bool.and_self]

/-- The digits of a number need something behind them. -/
theorem string_short (h : ∀ d₁ d₂ d₃ d₄ next s, t ≠ d₁ :: d₂ :: d₃ :: d₄ :: next :: s) :
    string opening (.scalar '\\' :: .scalar 'u' :: t) ≠ .ok (name, left) := by
  rw [string.eq_def]
  simp only [↓reduceIte, CodePoint.scalar.injEq, Char.reduceEq]
  nofun

/-- A string that has been closed is read with anything behind it. -/
theorem string_append {opening' : Text} (h : string opening t = .ok (name, left)) (rest : Text) :
    string opening' (t ++ rest) = .ok (name, left ++ rest) := by
  fun_induction string opening t generalizing name with
  | case1 | case3 | case4 | case5 | case10 | case12 | case13 => cases h
  | case2 =>
    cases h
    rw [List.cons_append, string.eq_def]
    rfl
  | case6 d₁ d₂ d₃ d₄ next p hp u e₁ e₂ e₃ e₄ next' t hpair q hq htrailing _ ih =>
    obtain ⟨s, hs, rfl⟩ := prepend_eq_ok_iff.mp h
    simp only [Bool.and_eq_true, decide_eq_true_eq] at hpair
    obtain ⟨⟨hleading, rfl⟩, rfl⟩ := hpair
    simp only [List.cons_append] at ih ⊢
    rw [string_pair hp hleading hq, if_pos htrailing, ih hs]
    rfl
  | case7 d₁ d₂ d₃ d₄ next p hp u e₁ e₂ e₃ e₄ next' t hpair q hq htrailing _ ih =>
    obtain ⟨s, hs, rfl⟩ := prepend_eq_ok_iff.mp h
    simp only [Bool.and_eq_true, decide_eq_true_eq] at hpair
    obtain ⟨⟨hleading, rfl⟩, rfl⟩ := hpair
    simp only [List.cons_append] at ih ⊢
    rw [string_pair hp hleading hq, if_neg htrailing, ih hs]
    rfl
  | case8 d₁ d₂ d₃ d₄ next p hp u e₁ e₂ e₃ e₄ next' t hpair _ ih =>
    obtain ⟨s, hs, rfl⟩ := prepend_eq_ok_iff.mp h
    simp only [Bool.and_eq_true, decide_eq_true_eq] at hpair
    simp only [List.cons_append] at ih ⊢
    rw [string_alone hp, ih hs]
    · rfl
    · exact fun hleading hnext hu => hpair ⟨⟨hleading, hnext⟩, Option.some.inj hu⟩
  | case9 d₁ d₂ d₃ d₄ next p hp t hshort _ ih =>
    obtain ⟨s, hs, rfl⟩ := prepend_eq_ok_iff.mp h
    simp only [List.cons_append] at ih ⊢
    rw [string_alone hp, ih hs]
    · rfl
    · rintro - rfl hu
      -- a second number that is cut short is no string, so none begins behind this one
      cases t with
      | nil => cases hs
      | cons c t =>
        obtain rfl := Option.some.inj hu
        refine string_short (fun _ _ _ _ _ _ ht => ?_) hs
        exact hshort _ _ _ _ _ _ _ (congrArg _ ht)
  | case11 e t hu d hd _ ih =>
    obtain ⟨s, hs, rfl⟩ := prepend_eq_ok_iff.mp h
    rw [List.cons_append, List.cons_append, string_escaped hu hd, ih hs]
    rfl
  | case14 c t hquote hslash hc ih =>
    obtain ⟨s, hs, rfl⟩ := prepend_eq_ok_iff.mp h
    rw [List.cons_append, string_raw hquote hslash hc, ih hs]
    rfl

end Strings

/-! ### Words, strings and numbers -/

section Scalars

variable {w : Text × Tree} {a : Tree}

theorem behind?_eq_some_iff {word : Text} : behind? word t = some left ↔ t = word ++ left := by
  unfold behind?
  split
  · next h =>
    obtain ⟨s, rfl⟩ := List.isPrefixOf_iff_prefix.mp h
    simp
  · next h =>
    rw [List.isPrefixOf_iff_prefix] at h
    simp only [reduceCtorEq, false_iff]
    rintro rfl
    exact h (List.prefix_append _ _)

/-- A word is read, whatever stands behind it. -/
theorem scalar_word (hw : w ∈ words) (rest : Text) : scalar (w.1 ++ rest) = .ok (w.2, rest) := by
  simp only [words, List.mem_cons, List.not_mem_nil, or_false] at hw
  rcases hw with rfl | rfl | rfl | rfl | rfl | rfl <;> rfl

/-- No number begins with a word. -/
theorem number_word (hw : w ∈ words) (rest : Text) :
    number (w.1 ++ rest) = .error (.complaint .value (w.1 ++ rest)) := by
  simp only [words, List.mem_cons, List.not_mem_nil, or_false] at hw
  rcases hw with rfl | rfl | rfl | rfl | rfl | rfl <;> rfl

theorem scalar_quote (r : Text) :
    scalar (.scalar '"' :: r) =
      (string (.scalar '"' :: r) r).map fun (s, left) => (.text s, left) := rfl

theorem scalar_of_number (h : number t = .ok (a, left)) : scalar t = .ok (a, left) := by
  have hwords : ∀ w ∈ words, w.1.isPrefixOf t = false := by
    intro w hw
    by_contra hprefix
    obtain ⟨s, rfl⟩ := List.isPrefixOf_iff_prefix.mp (Bool.not_eq_false _ ▸ hprefix)
    rw [number_word hw] at h
    cases h
  unfold scalar
  rw [findSome?_words hwords]
  dsimp only
  split
  · cases h
  · exact h

/-- A scalar is a word, a string or a number. -/
theorem scalar_cases (h : scalar t = .ok (a, left)) :
    (∃ w ∈ words, t = w.1 ++ left ∧ a = w.2) ∨
      (∃ r s, t = .scalar '"' :: r ∧ string t r = .ok (s, left) ∧ a = .text s) ∨
      number t = .ok (a, left) := by
  unfold scalar at h
  split at h
  · next hword =>
    obtain ⟨w, hw, hfound⟩ := List.exists_of_findSome?_eq_some hword
    obtain ⟨behind, hbehind, rfl⟩ := Option.map_eq_some_iff.mp hfound
    obtain ⟨rfl, rfl⟩ := Prod.mk.inj (Except.ok.inj h)
    exact .inl ⟨w, hw, behind?_eq_some_iff.mp hbehind, rfl⟩
  · split at h
    · next r _ =>
      obtain ⟨⟨s, behind⟩, hstring, hpair⟩ := map_eq_ok_iff.mp h
      cases hpair
      exact .inr (.inl ⟨r, s, rfl, hstring, rfl⟩)
    · exact .inr (.inr h)

theorem settled_scalar : Settled scalar where
  nil := nofun
  append := by
    intro t a left h hleft rest
    rcases scalar_cases h with ⟨w, hw, rfl, rfl⟩ | ⟨r, s, rfl, hstring, rfl⟩ | hnumber
    · rw [List.append_assoc]
      exact scalar_word hw _
    · rw [List.cons_append, scalar_quote, string_append hstring rest]
      rfl
    · exact scalar_of_number (number_append hnumber hleft rest)

end Scalars

/-! ### Containers -/

theorem continuesNumber_of_isSpace {c : CodePoint} (h : isSpace c = true) :
    continuesNumber c = false := by
  simp only [isSpace, Bool.or_eq_true, decide_eq_true_eq] at h
  rcases h with ((rfl | rfl) | rfl) | rfl <;> decide

theorem skipSpace_append {c : CodePoint} {s : Text} (h : skipSpace t = c :: s) (rest : Text) :
    skipSpace (t ++ rest) = c :: (s ++ rest) := by
  have hsome : ¬ (t.dropWhile isSpace).isEmpty = true := by
    rw [← skipSpace, h]
    exact Bool.false_ne_true
  rw [skipSpace, List.dropWhile_append, if_neg hsome, ← skipSpace, h, List.cons_append]

/-- A value has ended in front of space and a sign that goes on no number. -/
theorem ended_of_skipSpace {c : CodePoint} {behind : Text} (h : skipSpace left = c :: behind)
    (hc : continuesNumber c = false) : Ended left := by
  cases left with
  | nil => cases h
  | cons d left =>
    refine ⟨d, rfl, ?_⟩
    cases hd : isSpace d with
    | true => exact continuesNumber_of_isSpace hd
    | false =>
      rw [skipSpace_cons hd] at h
      exact (List.cons.inj h).1 ▸ hc

/-- Pieces that a reader reads one after the other: a comma stands behind each of them but the last,
behind which the closing sign stands. There are at most `bound` of them. -/
inductive Run {α : Type} (reader : Text → Reading α) (close : CodePoint) :
    (bound : Nat) → Text → List α → Text → Prop
  | last {bound : Nat} {t behind left : Text} {a : α} (hread : reader t = .ok (a, behind))
      (hclose : skipSpace behind = close :: left) : Run reader close (bound + 1) t [a] left
  | more {bound : Nat} {t behind next left : Text} {a : α} {tail : List α}
      (hread : reader t = .ok (a, behind)) (hcomma : skipSpace behind = .scalar ',' :: next)
      (htail : Run reader close bound (skipSpace next) tail left) :
      Run reader close (bound + 1) t (a :: tail) left

/-- Nothing but the closing sign, or pieces up to it. -/
inductive Enclosed {α : Type} (reader : Text → Reading α) (close : CodePoint) :
    Text → List α → Text → Prop
  | empty {t left : Text} (hclose : skipSpace t = close :: left) : Enclosed reader close t [] left
  | run {t left : Text} {all : List α} (hopen : (skipSpace t).head? ≠ some close)
      (hall : Run reader close ((skipSpace t).length + 1) (skipSpace t) all left) :
      Enclosed reader close t all left

section Runs

variable {α : Type} {reader : Text → Reading α} {close : CodePoint} {all : List α}

theorem Run.ne_nil (hreader : Settled reader) {n : Nat} (h : Run reader close n t all left) :
    t ≠ [] := by
  rintro rfl
  cases h with
  | last hread _ => exact hreader.nil _ hread
  | more hread _ _ => exact hreader.nil _ hread

theorem Run.append (hreader : Settled reader) (hclose : continuesNumber close = false) {n m : Nat}
    (h : Run reader close n t all left) (hnm : n ≤ m) (rest : Text) :
    Run reader close m (t ++ rest) all (left ++ rest) := by
  induction h generalizing m with
  | @last n t behind left a hread hend =>
    obtain ⟨m, rfl⟩ := Nat.exists_eq_add_of_le' (Nat.lt_of_lt_of_le n.succ_pos hnm)
    exact .last (hreader.append hread (ended_of_skipSpace hend hclose) rest)
      (skipSpace_append hend rest)
  | @more n t behind next left a tail hread hcomma htail ih =>
    obtain ⟨m, rfl⟩ := Nat.exists_eq_add_of_le' (Nat.lt_of_lt_of_le n.succ_pos hnm)
    have hbehind := hreader.append hread (ended_of_skipSpace hcomma rfl) rest
    refine .more hbehind (skipSpace_append hcomma rest) ?_
    -- a piece is read behind the comma, so the space in front of it ends in the text as it is
    obtain ⟨c, s, hnext⟩ := List.exists_cons_of_ne_nil (htail.ne_nil hreader)
    have htail := ih (Nat.le_of_succ_le_succ hnm)
    rw [hnext] at htail
    rw [skipSpace_append hnext]
    exact htail

/-- What is enclosed has its end, whatever stands behind it. -/
theorem Enclosed.append (hreader : Settled reader) (hclose : continuesNumber close = false)
    (h : Enclosed reader close t all left) (rest : Text) :
    Enclosed reader close (t ++ rest) all (left ++ rest) := by
  cases h with
  | empty hend => exact .empty (skipSpace_append hend rest)
  | run hopen hall =>
    obtain ⟨c, s, hskip⟩ := List.exists_cons_of_ne_nil (hall.ne_nil hreader)
    rw [hskip] at hopen hall
    refine .run ?_ ?_
    · rw [skipSpace_append hskip]
      exact hopen
    · rw [skipSpace_append hskip]
      exact hall.append hreader hclose (by simp) rest

end Runs

section Containers

variable {element : Text → Reading Tree} {a : Tree}

theorem items_eq_ok_iff {n : Nat} {all : List Tree} :
    items element n t = .ok (all, left) ↔ Run element (.scalar ']') n t all left := by
  constructor
  · intro h
    induction n generalizing t all with
    | zero => cases h
    | succ n ih =>
      rw [items] at h
      split at h
      · cases h
      · next head behind hread =>
        split at h
        · next hclose =>
          cases h
          exact .last hread hclose
        · next next hcomma =>
          obtain ⟨⟨tail, _⟩, htail, hpair⟩ := map_eq_ok_iff.mp h
          cases hpair
          exact .more hread hcomma (ih htail)
        · cases h
  · intro h
    induction h with
    | last hread hclose => simp only [items, hread, hclose]
    | more hread hcomma _ ih =>
      simp only [items, hread, hcomma, ih]
      rfl

theorem array_eq_ok_iff :
    array element t = .ok (a, left) ↔
      ∃ all, Enclosed element (.scalar ']') t all left ∧ a = .array all := by
  unfold array
  constructor
  · intro h
    split at h
    · next hclose =>
      cases h
      exact ⟨[], .empty hclose, rfl⟩
    · next hopen =>
      obtain ⟨⟨all, _⟩, hall, hpair⟩ := map_eq_ok_iff.mp h
      cases hpair
      refine ⟨all, .run (fun hhead => ?_) (items_eq_ok_iff.mp hall), rfl⟩
      obtain ⟨s, hs⟩ := List.head?_eq_some_iff.mp hhead
      exact hopen s hs
  · rintro ⟨all, hclose | ⟨hopen, hall⟩, rfl⟩
    · simp only [hclose]
    · split
      · next hclose => exact absurd (by rw [hclose]; rfl) hopen
      · rw [items_eq_ok_iff.mpr hall]
        rfl

/-- Reads a key, the colon behind it and the value of a field. -/
def field (element : Text → Reading Tree) (t : Text) : Reading (Text × Tree) :=
  match key t with
  | .error stop => .error stop
  | .ok (name, start) => (element start).map fun (head, left) => ((name, head), left)

theorem key_eq_ok_iff {name : Text} :
    key t = .ok (name, left) ↔ ∃ r behind next, t = .scalar '"' :: r ∧
      string t r = .ok (name, behind) ∧ skipSpace behind = .scalar ':' :: next ∧
      skipSpace next = left := by
  unfold key
  constructor
  · intro h
    split at h
    · next r =>
      split at h
      · cases h
      · next name' behind hstring =>
        split at h
        · next next hcolon =>
          cases h
          exact ⟨r, behind, next, rfl, hstring, hcolon, rfl⟩
        · cases h
    · cases h
  · rintro ⟨r, behind, next, rfl, hstring, hcolon, rfl⟩
    simp only [hstring, hcolon]

theorem key_append {name : Text} (h : key t = .ok (name, left)) (hleft : left ≠ []) (rest : Text) :
    key (t ++ rest) = .ok (name, left ++ rest) := by
  obtain ⟨r, behind, next, rfl, hstring, hcolon, rfl⟩ := key_eq_ok_iff.mp h
  obtain ⟨c, s, hnext⟩ := List.exists_cons_of_ne_nil hleft
  refine key_eq_ok_iff.mpr ⟨r ++ rest, behind ++ rest, next ++ rest, rfl,
    string_append hstring rest, skipSpace_append hcolon rest, ?_⟩
  rw [skipSpace_append hnext, hnext, List.cons_append]

theorem field_eq_ok_iff {f : Text × Tree} :
    field element t = .ok (f, left) ↔
      ∃ start, key t = .ok (f.1, start) ∧ element start = .ok (f.2, left) := by
  unfold field
  cases hkey : key t with
  | error stop => simp
  | ok result =>
    obtain ⟨name, start⟩ := result
    dsimp only
    rw [map_eq_ok_iff]
    constructor
    · rintro ⟨⟨head, _⟩, hread, hpair⟩
      cases hpair
      exact ⟨start, rfl, hread⟩
    · rintro ⟨_, hname, hread⟩
      cases hname
      exact ⟨_, hread, rfl⟩

theorem settled_field (helement : Settled element) : Settled (field element) where
  nil := nofun
  append := by
    intro t f left h hleft rest
    obtain ⟨start, hkey, hread⟩ := field_eq_ok_iff.mp h
    have hstart : start ≠ [] := by
      rintro rfl
      exact helement.nil _ hread
    exact field_eq_ok_iff.mpr ⟨start ++ rest, key_append hkey hstart rest,
      helement.append hread hleft rest⟩

theorem fields_eq_ok_iff {n : Nat} {all : List (Text × Tree)} :
    fields element n t = .ok (all, left) ↔ Run (field element) (.scalar '\x7d') n t all left := by
  constructor
  · intro h
    induction n generalizing t all with
    | zero => cases h
    | succ n ih =>
      rw [fields] at h
      split at h
      · cases h
      · next name start hkey =>
        split at h
        · cases h
        · next head behind hread =>
          have hfield : field element t = .ok ((name, head), behind) :=
            field_eq_ok_iff.mpr ⟨start, hkey, hread⟩
          split at h
          · next hclose =>
            cases h
            exact .last hfield hclose
          · next next hcomma =>
            obtain ⟨⟨tail, _⟩, htail, hpair⟩ := map_eq_ok_iff.mp h
            cases hpair
            exact .more hfield hcomma (ih htail)
          · cases h
  · intro h
    induction h with
    | last hfield hclose =>
      obtain ⟨start, hkey, hread⟩ := field_eq_ok_iff.mp hfield
      simp only [fields, hkey, hread, hclose]
    | more hfield hcomma _ ih =>
      obtain ⟨start, hkey, hread⟩ := field_eq_ok_iff.mp hfield
      simp only [fields, hkey, hread, hcomma, ih]
      rfl

theorem object_eq_ok_iff :
    object element t = .ok (a, left) ↔
      ∃ all, Enclosed (field element) (.scalar '\x7d') t all left ∧ a = .object (fieldsOf all) := by
  unfold object
  constructor
  · intro h
    split at h
    · next hclose =>
      cases h
      exact ⟨[], .empty hclose, rfl⟩
    · next hopen =>
      obtain ⟨⟨all, _⟩, hall, hpair⟩ := map_eq_ok_iff.mp h
      cases hpair
      refine ⟨all, .run (fun hhead => ?_) (fields_eq_ok_iff.mp hall), rfl⟩
      obtain ⟨s, hs⟩ := List.head?_eq_some_iff.mp hhead
      exact hopen s hs
  · rintro ⟨all, hclose | ⟨hopen, hall⟩, rfl⟩
    · simp only [hclose]
      rfl
    · split
      · next hclose => exact absurd (by rw [hclose]; rfl) hopen
      · rw [fields_eq_ok_iff.mpr hall]
        rfl

/-- An array is read with anything behind it. -/
theorem firm_array (helement : Settled element) : Firm (array element) := by
  intro t a left h rest
  obtain ⟨all, hall, rfl⟩ := array_eq_ok_iff.mp h
  exact array_eq_ok_iff.mpr ⟨all, hall.append helement rfl rest, rfl⟩

/-- An object is read with anything behind it. -/
theorem firm_object (helement : Settled element) : Firm (object element) := by
  intro t a left h rest
  obtain ⟨all, hall, rfl⟩ := object_eq_ok_iff.mp h
  exact object_eq_ok_iff.mpr ⟨all, hall.append (settled_field helement) rfl rest, rfl⟩

end Containers

/-! ### Values -/

section Values

variable {a : Tree}

theorem settled_value (depth : Nat) : Settled (value depth) := by
  induction depth with
  | zero =>
    refine ⟨nofun, fun t a left h hleft rest => ?_⟩
    rcases t with - | ⟨c, r⟩
    · cases h
    by_cases hbracket : c = .scalar '['
    · subst hbracket
      cases h
    by_cases hbrace : c = .scalar '\x7b'
    · subst hbrace
      cases h
    rw [value_scalar hbracket hbrace] at h
    rw [List.cons_append, value_scalar hbracket hbrace]
    exact settled_scalar.append h hleft rest
  | succ depth ih =>
    refine ⟨nofun, fun t a left h hleft rest => ?_⟩
    rcases t with - | ⟨c, r⟩
    · cases h
    by_cases hbracket : c = .scalar '['
    · subst hbracket
      exact firm_array ih h rest
    by_cases hbrace : c = .scalar '\x7b'
    · subst hbrace
      exact firm_object ih h rest
    rw [value_scalar hbracket hbrace] at h
    rw [List.cons_append, value_scalar hbracket hbrace]
    exact settled_scalar.append h hleft rest

/-- What begins with a brace is read with anything behind it. -/
theorem value_brace_append {depth : Nat} {r : Text}
    (h : value depth (.scalar '\x7b' :: r) = .ok (a, left)) (rest : Text) :
    value depth (.scalar '\x7b' :: (r ++ rest)) = .ok (a, left ++ rest) := by
  cases depth with
  | zero => cases h
  | succ depth => exact firm_object (settled_value depth) h rest

theorem numberOf_ne_object {negative : Bool} {whole fraction : List Nat} {exponent : Option Int}
    {fields : List (Text × Tree)} :
    numberOf negative whole fraction exponent ≠ .ok (.object fields) := by
  unfold numberOf
  split
  · split <;> nofun
  · nofun

theorem scalar_ne_object {fields : List (Text × Tree)} : scalar t ≠ .ok (.object fields, left) := by
  intro h
  rcases scalar_cases h with ⟨w, hw, -, hword⟩ | ⟨-, s, -, -, hstring⟩ | hnumber
  · simp only [words, List.mem_cons, List.not_mem_nil, or_false] at hw
    rcases hw with rfl | rfl | rfl | rfl | rfl | rfl <;> cases hword
  · cases hstring
  · obtain ⟨_, _, _, _, _, -, -, -, -, hnumber⟩ := number_eq_ok_iff.mp hnumber
    exact numberOf_ne_object hnumber

/-- An object begins with a brace. -/
theorem brace_of_value {depth : Nat} {fields : List (Text × Tree)}
    (h : value depth t = .ok (.object fields, left)) : ∃ r, t = .scalar '\x7b' :: r := by
  cases depth with
  | zero =>
    unfold value at h
    split at h
    · cases h
    · cases h
    · exact absurd h scalar_ne_object
  | succ depth =>
    unfold value at h
    split at h
    · obtain ⟨_, -, harray⟩ := array_eq_ok_iff.mp h
      cases harray
    · exact ⟨_, rfl⟩
    · exact absurd h scalar_ne_object

theorem value_of_document {depth : Nat} (h : document depth t = .ok a) :
    ∃ left, value depth (skipSpace t) = .ok (a, left) ∧ ∀ c ∈ left, isSpace c = true := by
  unfold document at h
  split at h
  · cases h
  · split at h
    · cases h
    · next tree left hvalue =>
      split at h
      · next hspace =>
        cases h
        exact ⟨left, hvalue, List.dropWhile_eq_nil_iff.mp hspace⟩
      · cases h

theorem read_eq_ok_iff {depth : Nat} : read depth t = .ok a ↔ document depth t = .ok a := by
  unfold read
  split <;> simp_all

/-- What is read of a text that goes on to be an object is the object, and then it goes on with
space only. -/
theorem document_of_append {depth : Nat} {s : Text} {fields : List (Text × Tree)}
    (h : document depth (t ++ s) = .ok (.object fields)) (ht : document depth t = .ok a) :
    a = .object fields ∧ ∀ c ∈ s, isSpace c = true := by
  obtain ⟨left, hvalue, hspace⟩ := value_of_document h
  obtain ⟨left', hvalue', -⟩ := value_of_document ht
  cases hskip : skipSpace t with
  | nil =>
    rw [hskip] at hvalue'
    exact absurd hvalue' ((settled_value _).nil _)
  | cons c r =>
    rw [skipSpace_append hskip] at hvalue
    rw [hskip] at hvalue'
    obtain ⟨_, hbrace⟩ := brace_of_value hvalue
    obtain rfl := (List.cons.inj hbrace).1
    rw [value_brace_append hvalue' s] at hvalue
    cases hvalue
    exact ⟨rfl, fun c hc => hspace c (List.mem_append_right _ hc)⟩

end Values

end Json

end ParserClient
