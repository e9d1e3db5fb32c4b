import Mathlib.Algebra.Group.Nat.Defs
import ParserClient.Proofs.Text.Words
import ParserClient.Text.Quoted

/-!
# Quoted text is unambiguous

Between quotes, a code point is shown as itself, as a backslash and a sign, or as a backslash, a
letter and as many digits as the letter calls for. Only the last two begin with a backslash, and the
sign behind it says which of them it is and where it ends. No form begins with the quote, so a text
is closed by the first quote that belongs to no form, and a quoted text is split off the front of a
longer one in one way only. The quote itself may differ from text to text; it is read off the front.

## Main definitions

* `CodePoint.meant?`, `CodePoint.digitsBehind?` — what a sign behind a backslash says.
* `CodePoint.QuotedForm` — the forms in which a code point is shown between quotes.

## Main results

* `Utf8.hex_append_inj` — digits of a fixed width.
* `CodePoint.QuotedForm.append_inj` — a code point between quotes.
* `Text.quoted_append_inj` — a quoted text.
-/

namespace ParserClient

/-! ### Hexadecimal digits -/

namespace Utf8

variable {width m n : Nat}

theorem eq_of_digitChar : ∀ m < 16, ∀ n < 16, m.digitChar = n.digitChar → m = n := by decide

theorem hex_one (hn : n < 16) : hex 1 n = [.scalar n.digitChar] := by
  simp [hex, Nat.toDigits_of_lt_base hn]

/-- One digit more stands at the end. -/
theorem hex_succ (hwidth : 0 < width) (n : Nat) :
    hex (width + 1) n = hex width (n / 16) ++ [.scalar (n % 16).digitChar] := by
  by_cases hn : n < 16
  · have hpad : List.replicate width '0' = List.replicate (width - 1) '0' ++ ['0'] := by
      rw [← List.replicate_succ', Nat.sub_add_cancel hwidth]
    simp [hex, Nat.toDigits_of_lt_base hn, Nat.div_eq_of_lt hn, Nat.mod_eq_of_lt hn, hpad]
  · simp [hex, Nat.toDigits_of_base_le (by decide) (Nat.not_lt.mp hn)]

theorem length_hex (hwidth : 0 < width) (hn : n < 16 ^ width) : (hex width n).length = width := by
  have hdigits := (Nat.length_toDigits_le_iff (by decide) hwidth).mpr hn
  simp only [hex, List.length_map, List.length_append, List.length_replicate]
  omega

theorem hex_inj (hwidth : 0 < width) (hm : m < 16 ^ width) (hn : n < 16 ^ width)
    (h : hex width m = hex width n) : m = n := by
  induction width, hwidth using Nat.le_induction generalizing m n with
  | base =>
    rw [hex_one hm, hex_one hn] at h
    exact eq_of_digitChar m hm n hn (by simpa using h)
  | succ width hwidth ih =>
    rw [hex_succ hwidth, hex_succ hwidth] at h
    obtain ⟨hfront, hlast⟩ := List.append_inj' h rfl
    have hquotient : m / 16 = n / 16 := ih (by omega) (by omega) hfront
    have hremainder : m % 16 = n % 16 :=
      eq_of_digitChar _ (by omega) _ (by omega) (by simpa using hlast)
    omega

/-- Two numbers written in equally many digits at the front of one text are the same. -/
theorem hex_append_inj (hwidth : 0 < width) (hm : m < 16 ^ width) (hn : n < 16 ^ width)
    {r s : Text} (h : hex width m ++ r = hex width n ++ s) : m = n ∧ r = s := by
  have hlength : (hex width m).length = (hex width n).length := by
    rw [length_hex hwidth hm, length_hex hwidth hn]
  obtain ⟨hdigits, hrest⟩ := List.append_inj h hlength
  exact ⟨hex_inj hwidth hm hn hdigits, hrest⟩

end Utf8

/-! ### A code point between quotes -/

/-- The character is one of the two quotes. -/
def IsQuote (c : Char) : Prop := c = '\'' ∨ c = '"'

theorem isQuote_chooseQuote (single double : Bool) : IsQuote (chooseQuote single double) := by
  unfold chooseQuote
  split
  · exact .inr rfl
  · exact .inl rfl

theorem IsQuote.ne_backslash {quote : Char} (h : IsQuote quote) : quote ≠ '\\' := by
  rcases h with rfl | rfl <;> decide

namespace CodePoint

/-- The code point that a sign behind a backslash stands for. -/
def meant? : CodePoint → Option CodePoint
  | .scalar '\'' => some (.scalar '\'')
  | .scalar '"' => some (.scalar '"')
  | .scalar '\\' => some (.scalar '\\')
  | .scalar 't' => some (.scalar '\t')
  | .scalar 'n' => some (.scalar '\n')
  | .scalar 'r' => some (.scalar '\r')
  | _ => none

/-- The number of digits that a letter behind a backslash calls for. -/
def digitsBehind? : CodePoint → Option Nat
  | .scalar 'x' => some 2
  | .scalar 'u' => some 4
  | .scalar 'U' => some 8
  | _ => none

/-- A letter that calls for digits stands for no code point by itself. -/
theorem meant?_of_digitsBehind? {e : CodePoint} {width : Nat} (h : e.digitsBehind? = some width) :
    e.meant? = none := by
  unfold digitsBehind? at h
  split at h
  · rfl
  · rfl
  · rfl
  · cases h

theorem digitsBehind?_pos {e : CodePoint} {width : Nat} (h : e.digitsBehind? = some width) :
    0 < width := by
  unfold digitsBehind? at h
  split at h <;> cases h <;> decide

theorem toNat_lt (c : CodePoint) : c.toNat < 0x110000 := by
  cases c with
  | scalar c =>
    have hvalid : c.toNat < 0xD800 ∨ 0xDFFF < c.toNat ∧ c.toNat < 0x110000 := c.valid
    simp only [toNat]
    omega
  | lone half =>
    have hhalf := half.isLt
    simp only [toNat]
    omega

/-- The forms in which a code point is shown between quotes: as itself, as a backslash and a sign,
or by its number. -/
inductive QuotedForm (quote : Char) (c : CodePoint) : Text → Prop
  | itself (hquote : c ≠ .scalar quote) (hslash : c ≠ .scalar '\\') : QuotedForm quote c [c]
  | sign {e : CodePoint} (he : e.meant? = some c) : QuotedForm quote c (escaped [e])
  | number {e : CodePoint} {width : Nat} (he : e.digitsBehind? = some width)
      (hc : c.toNat < 16 ^ width) : QuotedForm quote c (escaped (e :: Utf8.hex width c.toNat))

theorem quotedForm_quoted {quote : Char} (hquote : IsQuote quote) (c : CodePoint) :
    QuotedForm quote c (c.quoted quote) := by
  have hc := c.toNat_lt
  unfold quoted
  split
  · next h =>
    rcases h with rfl | rfl
    · rcases hquote with rfl | rfl <;> exact .sign rfl
    · exact .sign rfl
  next hplain =>
  obtain ⟨hother, hslash⟩ := not_or.mp hplain
  split
  · next h => exact h ▸ .sign (e := .scalar 't') rfl
  split
  · next h => exact h ▸ .sign (e := .scalar 'n') rfl
  split
  · next h => exact h ▸ .sign (e := .scalar 'r') rfl
  split
  · exact .itself hother hslash
  split
  · exact .itself hother hslash
  split
  · exact .number rfl (by omega)
  split
  · exact .number rfl (by omega)
  · exact .number rfl (by omega)

namespace QuotedForm

variable {quote : Char} {c d : CodePoint} {p q r s : Text}

/-- No form begins with the quote. -/
theorem ne_quote (hquote : IsQuote quote) (h : QuotedForm quote c p) :
    p ++ r ≠ .scalar quote :: s := by
  intro heq
  cases h with
  | itself hother => exact hother (List.cons.inj heq).1
  | sign | number =>
    exact hquote.ne_backslash (CodePoint.scalar.inj (List.cons.inj heq).1).symm

/-- The forms of two code points at the front of one text are forms of the same code point. -/
theorem append_inj (hp : QuotedForm quote c p) (hq : QuotedForm quote d q)
    (h : p ++ r = q ++ s) : c = d ∧ r = s := by
  cases hp with
  | itself _ hc =>
    cases hq with
    | itself => exact List.cons.inj h
    | sign | number => exact absurd (List.cons.inj h).1 hc
  | sign he =>
    cases hq with
    | itself _ hd => exact absurd (List.cons.inj h).1.symm hd
    | sign hf =>
      obtain ⟨rfl, hrest⟩ := List.cons.inj (List.cons.inj h).2
      rw [he] at hf
      exact ⟨Option.some.inj hf, hrest⟩
    | number hf =>
      obtain ⟨rfl, -⟩ := List.cons.inj (List.cons.inj h).2
      rw [meant?_of_digitsBehind? hf] at he
      cases he
  | number he hc =>
    cases hq with
    | itself _ hd => exact absurd (List.cons.inj h).1.symm hd
    | sign hf =>
      obtain ⟨rfl, -⟩ := List.cons.inj (List.cons.inj h).2
      rw [meant?_of_digitsBehind? he] at hf
      cases hf
    | number hf hd =>
      obtain ⟨rfl, hdigits⟩ := List.cons.inj (List.cons.inj h).2
      obtain rfl := Option.some.inj (he.symm.trans hf)
      obtain ⟨hnumber, hrest⟩ := Utf8.hex_append_inj (digitsBehind?_pos he) hc hd hdigits
      exact ⟨toNat_injective hnumber, hrest⟩

end QuotedForm

end CodePoint

/-! ### A text -/

namespace Text

open CodePoint

/-- Between the same quotes, a text reaches up to the first quote that is not part of a form. -/
theorem flatMap_quoted_append_inj {quote : Char} (hquote : IsQuote quote) {t u r s : Text}
    (h : t.flatMap (CodePoint.quoted quote) ++ .scalar quote :: r =
      u.flatMap (CodePoint.quoted quote) ++ .scalar quote :: s) : t = u ∧ r = s := by
  induction t generalizing u with
  | nil =>
    cases u with
    | nil => exact ⟨rfl, (List.cons.inj h).2⟩
    | cons d u =>
      rw [List.flatMap_cons, List.append_assoc] at h
      exact absurd h.symm ((quotedForm_quoted hquote d).ne_quote hquote)
  | cons c t ih =>
    rw [List.flatMap_cons, List.append_assoc] at h
    cases u with
    | nil => exact absurd h ((quotedForm_quoted hquote c).ne_quote hquote)
    | cons d u =>
      rw [List.flatMap_cons, List.append_assoc] at h
      obtain ⟨rfl, hbehind⟩ :=
        (quotedForm_quoted hquote c).append_inj (quotedForm_quoted hquote d) h
      obtain ⟨rfl, hrest⟩ := ih hbehind
      exact ⟨rfl, hrest⟩

theorem exists_quoted_append (t rest : Text) :
    ∃ quote, IsQuote quote ∧ t.quoted ++ rest =
      .scalar quote :: (t.flatMap (CodePoint.quoted quote) ++ .scalar quote :: rest) := by
  refine ⟨_, isQuote_chooseQuote (t.contains (.scalar '\'')) (t.contains (.scalar '"')), ?_⟩
  rw [quoted, List.append_assoc]
  rfl

/-- Two quoted texts at the front of one text are the same. -/
theorem quoted_append_inj {t u r s : Text} (h : t.quoted ++ r = u.quoted ++ s) :
    t = u ∧ r = s := by
  obtain ⟨quote, hquote, ht⟩ := exists_quoted_append t r
  obtain ⟨quote', -, hu⟩ := exists_quoted_append u s
  rw [ht, hu] at h
  obtain ⟨hhead, hbody⟩ := List.cons.inj h
  obtain rfl := CodePoint.scalar.inj hhead
  exact flatMap_quoted_append_inj hquote hbody

end Text

end ParserClient
