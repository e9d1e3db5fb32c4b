import Mathlib.Data.List.Forall2
import ParserClient.Proofs.Number.Integer
import ParserClient.Proofs.Text.Quoted
import ParserClient.Proofs.Value.Printing
import ParserClient.Tree

/-!
# Printed trees are unambiguous

The text of a tree without floats is that of no other such tree. Read from the left, the first code
point says what kind of tree follows, and the kind says where it ends: a word and a quoted text by
themselves, an integer in front of the first code point that is no digit, an array or an object at
the bracket that stands in place of a comma, or of a first element. No element begins with that
bracket. Nothing else is asked of the elements, so a text in a tree may hold whatever looks like a
tree. Floats are left out: those that are not a number all have one text.

## Main definitions

* `Text.SplitsOff` — what is shown for a thing is told apart at the front of a longer text.
* `Tree.FloatFree`, `Tree.Form` — a tree without floats, and the forms of its text.
* `Tree.Kind`, `Tree.Kind.ofLead?` — what the first code point of a text says.

## Main results

* `Text.intercalate_append_inj` — texts between a comma and a closing bracket.
* `Tree.FloatFree.splitsOff` — the text of a tree at the front of a longer one.
* `printed_alike_iff` — two trees with one text are the same.
-/

namespace ParserClient

/-! ### Telling texts apart at the front -/

namespace Text

variable {α : Type} {Shows : α → Text → Prop}

/-- Where no digit stands behind it, what is shown for the thing is split off the front of a longer
text in one way only: the text at the front is shown for nothing else, and ends at one place. -/
def SplitsOff (Shows : α → Text → Prop) (a : α) : Prop :=
  ∀ ⦃b : α⦄ ⦃p q r s : Text⦄, Shows a p → Shows b q → r.PastDigits → s.PastDigits →
    p ++ r = q ++ s → a = b ∧ r = s

/-- All parts but the first stand behind a separator. -/
theorem intercalate_cons (separator p : Text) (parts : List Text) :
    intercalate separator (p :: parts) = p ++ parts.flatMap (separator ++ ·) := by
  induction parts generalizing p with
  | nil => simp [intercalate]
  | cons q parts ih =>
    have hstep : intercalate separator (p :: q :: parts) =
        p ++ (separator ++ intercalate separator (q :: parts)) := by
      simp [intercalate]
    rw [hstep, ih q, List.flatMap_cons, List.append_assoc]

section Joined

variable {closing : CodePoint} (hdigit : closing.digit? = none) (hcomma : closing ≠ .scalar ',')
include hdigit

theorem pastDigits_behind (parts : List Text) (rest : Text) :
    PastDigits (parts.flatMap ((", " : Text) ++ ·) ++ closing :: rest) := by
  cases parts with
  | nil => exact pastDigits_cons.mpr hdigit
  | cons p parts => exact pastDigits_cons.mpr (by decide)

include hcomma

/-- Parts behind commas, up to a closing bracket. What stands behind a part begins with one of these
signs, so that a part is split off. -/
theorem behind_append_inj {as bs : List α} {ps qs : List Text} {r s : Text}
    (has : List.Forall₂ Shows as ps) (hbs : List.Forall₂ Shows bs qs)
    (hsplits : ∀ a ∈ as, SplitsOff Shows a)
    (h : ps.flatMap ((", " : Text) ++ ·) ++ closing :: r =
      qs.flatMap ((", " : Text) ++ ·) ++ closing :: s) : as = bs ∧ r = s := by
  induction has generalizing bs qs with
  | nil =>
    cases hbs with
    | nil => exact ⟨rfl, (List.cons.inj h).2⟩
    | cons => exact absurd (List.cons.inj h).1 hcomma
  | @cons a p as ps ha _ ih =>
    cases hbs with
    | nil => exact absurd (List.cons.inj h).1.symm hcomma
    | @cons b q bs qs hb hbs =>
      obtain ⟨hsplit, hsplits⟩ := List.forall_mem_cons.mp hsplits
      simp only [List.flatMap_cons, List.append_assoc] at h
      obtain ⟨rfl, hbehind⟩ := hsplit ha hb (pastDigits_behind hdigit ps r)
        (pastDigits_behind hdigit qs s) (List.append_cancel_left h)
      obtain ⟨rfl, hrest⟩ := ih hbs hsplits hbehind
      exact ⟨rfl, hrest⟩

/-- Parts with commas between them, up to a closing bracket that none of them begins with. -/
theorem intercalate_append_inj (hlead : ∀ a p, Shows a p → ∃ c t, p = c :: t ∧ c ≠ closing)
    {as bs : List α} {ps qs : List Text} {r s : Text}
    (has : List.Forall₂ Shows as ps) (hbs : List.Forall₂ Shows bs qs)
    (hsplits : ∀ a ∈ as, SplitsOff Shows a)
    (h : intercalate ", " ps ++ closing :: r = intercalate ", " qs ++ closing :: s) :
    as = bs ∧ r = s := by
  cases has with
  | nil =>
    cases hbs with
    | nil => exact ⟨rfl, (List.cons.inj h).2⟩
    | @cons b q bs qs hb hbs =>
      obtain ⟨c, t, rfl, hc⟩ := hlead b q hb
      rw [intercalate_cons] at h
      exact absurd (List.cons.inj h).1.symm hc
  | @cons a p as ps ha has =>
    rw [intercalate_cons, List.append_assoc] at h
    cases hbs with
    | nil =>
      obtain ⟨c, t, rfl, hc⟩ := hlead a p ha
      exact absurd (List.cons.inj h).1 hc
    | @cons b q bs qs hb hbs =>
      obtain ⟨hsplit, hsplits⟩ := List.forall_mem_cons.mp hsplits
      rw [intercalate_cons, List.append_assoc] at h
      obtain ⟨rfl, hbehind⟩ := hsplit ha hb (pastDigits_behind hdigit ps r)
        (pastDigits_behind hdigit qs s) h
      obtain ⟨rfl, hrest⟩ := behind_append_inj hdigit hcomma has hbs hsplits hbehind
      exact ⟨rfl, hrest⟩

end Joined

end Text

namespace Tree

/-! ### What is shown for a tree -/

/-- There is no float in the tree. -/
inductive FloatFree : Tree → Prop
  | null : FloatFree .null
  | bool (b : Bool) : FloatFree (.bool b)
  | int (n : Int) : FloatFree (.int n)
  | text (t : Text) : FloatFree (.text t)
  | array {items : List Tree} (hitems : ∀ t ∈ items, FloatFree t) : FloatFree (.array items)
  | object {fields : List (Text × Tree)} (hfields : ∀ f ∈ fields, FloatFree f.2) :
      FloatFree (.object fields)

/-- The text is that of a tree without floats. -/
structure Shows (t : Tree) (p : Text) : Prop where
  free : t.FloatFree
  printed : t.printed = .ok p

/-- The text is that of a field whose tree has no floats. -/
def FieldShows (f : Text × Tree) (p : Text) : Prop :=
  ∃ body, f.2.Shows body ∧ p = f.1.quoted ++ (": " : Text) ++ body

/-- The forms of the texts of trees without floats. -/
inductive Form : Tree → Text → Prop
  | null : Form .null "None"
  | bool (b : Bool) : Form (.bool b) (truthWord b)
  | int (n : Int) : Form (.int n) (Integer.text n)
  | text (t : Text) : Form (.text t) t.quoted
  | array {items : List Tree} {parts : List Text} (hparts : List.Forall₂ Shows items parts) :
      Form (.array items) (bracketed "Array([" "])" parts)
  | object {fields : List (Text × Tree)} {parts : List Text}
      (hparts : List.Forall₂ FieldShows fields parts) :
      Form (.object fields) (bracketed "Object(\x7b" "\x7d)" parts)

theorem forall₂_of_printedItems {items : List Tree} {parts : List Text}
    (hfree : ∀ t ∈ items, t.FloatFree) (h : printedItems items = .ok parts) :
    List.Forall₂ Shows items parts := by
  induction items generalizing parts with
  | nil => exact Except.ok.inj h ▸ .nil
  | cons t items ih =>
    obtain ⟨ht, hitems⟩ := List.forall_mem_cons.mp hfree
    obtain ⟨head, hhead, h⟩ := exists_of_bind h
    obtain ⟨tail, htail, ⟨⟩⟩ := exists_of_bind h
    exact .cons ⟨ht, hhead⟩ (ih hitems htail)

theorem forall₂_of_printedFields {fields : List (Text × Tree)} {parts : List Text}
    (hfree : ∀ f ∈ fields, f.2.FloatFree) (h : printedFields fields = .ok parts) :
    List.Forall₂ FieldShows fields parts := by
  induction fields generalizing parts with
  | nil => exact Except.ok.inj h ▸ .nil
  | cons f fields ih =>
    obtain ⟨hf, hfields⟩ := List.forall_mem_cons.mp hfree
    obtain ⟨body, hbody, h⟩ := exists_of_bind h
    obtain ⟨tail, htail, ⟨⟩⟩ := exists_of_bind h
    exact .cons ⟨body, ⟨hf, hbody⟩, rfl⟩ (ih hfields htail)

theorem Shows.form {t : Tree} {p : Text} (h : t.Shows p) : Form t p := by
  obtain ⟨hfree, h⟩ := h
  cases hfree with
  | null => exact Except.ok.inj h ▸ .null
  | bool b => exact Except.ok.inj h ▸ .bool b
  | int n =>
    rw [Tree.printed, Integer.text?] at h
    split at h
    · exact Except.ok.inj h ▸ .int n
    · cases h
  | text t => exact Except.ok.inj h ▸ .text t
  | array hitems =>
    obtain ⟨parts, hparts, ⟨⟩⟩ := exists_of_bind h
    exact .array (forall₂_of_printedItems hitems hparts)
  | object hfields =>
    obtain ⟨parts, hparts, ⟨⟩⟩ := exists_of_bind h
    exact .object (forall₂_of_printedFields hfields hparts)

/-! ### The first code point -/

/-- The kinds of trees. -/
inductive Kind where
  | null
  | bool
  | int
  | float
  | text
  | array
  | object
  deriving DecidableEq

/-- The kind of a tree. -/
def kind : Tree → Kind
  | .null => .null
  | .bool _ => .bool
  | .int _ => .int
  | .float _ => .float
  | .text _ => .text
  | .array _ => .array
  | .object _ => .object

/-- The kind of the trees whose texts begin with the code point, floats left out. -/
def Kind.ofLead? (c : CodePoint) : Option Kind :=
  if c = .scalar 'N' then some .null
  else if c = .scalar 'T' ∨ c = .scalar 'F' then some .bool
  else if c = .scalar '\'' ∨ c = .scalar '"' then some .text
  else if c = .scalar 'A' then some .array
  else if c = .scalar 'O' then some .object
  else if c = .scalar '-' ∨ c.digit?.isSome then some .int
  else none

theorem Kind.ofLead?_of_isDigit {c : Char} (hc : c.isDigit = true) :
    Kind.ofLead? (.scalar c) = some .int := by
  have hne : ∀ d, d.isDigit = false → c ≠ d := by
    rintro d hd rfl
    exact absurd hc (by simp [hd])
  simp [ofLead?, hne, CodePoint.digit?_of_isDigit hc]

theorem exists_lead_integer (n : Int) :
    ∃ c rest, Integer.text n = c :: rest ∧ Kind.ofLead? c = some .int := by
  cases n with
  | ofNat n =>
    obtain ⟨c, s, hcons, hc, -⟩ := Natural.toDigits_eq_cons n
    exact ⟨.scalar c, s.map .scalar, by simp [Integer.text, Natural.text, hcons],
      Kind.ofLead?_of_isDigit hc⟩
  | negSucc n => exact ⟨_, _, rfl, rfl⟩

theorem exists_lead_quoted (t : Text) :
    ∃ c rest, t.quoted = c :: rest ∧ Kind.ofLead? c = some .text := by
  obtain ⟨quote, hquote, h⟩ := t.exists_quoted_append []
  rw [List.append_nil] at h
  refine ⟨_, _, h, ?_⟩
  rcases hquote with rfl | rfl <;> rfl

/-- The first code point of the text of a tree says its kind. -/
theorem Shows.exists_lead {t : Tree} {p : Text} (h : t.Shows p) :
    ∃ c rest, p = c :: rest ∧ Kind.ofLead? c = some t.kind := by
  cases h.form with
  | null | array | object => exact ⟨_, _, rfl, rfl⟩
  | bool b => cases b <;> exact ⟨_, _, rfl, rfl⟩
  | int n => exact exists_lead_integer n
  | text t => exact exists_lead_quoted t

/-- Trees whose texts stand at the front of one text are of one kind. -/
theorem kind_eq_of_append {t u : Tree} {p q r s : Text} (ht : t.Shows p) (hu : u.Shows q)
    (h : p ++ r = q ++ s) : t.kind = u.kind := by
  obtain ⟨c, t', rfl, hc⟩ := ht.exists_lead
  obtain ⟨d, u', rfl, hd⟩ := hu.exists_lead
  obtain rfl := (List.cons.inj h).1
  exact Option.some.inj (hc.symm.trans hd)

theorem Kind.ne_of_ofLead? {c closing : CodePoint} {k : Kind} (hc : Kind.ofLead? c = some k)
    (hclosing : Kind.ofLead? closing = none) : c ≠ closing := by
  rintro rfl
  rw [hc] at hclosing
  cases hclosing

/-! ### One kind after the other -/

section Kinds

open Text (SplitsOff)

theorem truthWord_append_inj {b b' : Bool} {r s : Text}
    (h : truthWord b ++ r = truthWord b' ++ s) : b = b' ∧ r = s := by
  cases b with
  | false =>
    cases b' with
    | false => exact ⟨rfl, List.append_cancel_left h⟩
    | true => exact absurd (List.cons.inj h).1 (by decide)
  | true =>
    cases b' with
    | false => exact absurd (List.cons.inj h).1 (by decide)
    | true => exact ⟨rfl, List.append_cancel_left h⟩

theorem splitsOff_null : SplitsOff Shows .null := by
  intro u p q r s ht hu _ _ h
  have hkind := kind_eq_of_append ht hu h
  cases ht.form
  cases hu.form with
  | null => exact ⟨rfl, List.append_cancel_left h⟩
  | _ => cases hkind

theorem splitsOff_bool (b : Bool) : SplitsOff Shows (.bool b) := by
  intro u p q r s ht hu _ _ h
  have hkind := kind_eq_of_append ht hu h
  cases ht.form
  cases hu.form with
  | bool b' =>
    obtain ⟨rfl, hrest⟩ := truthWord_append_inj h
    exact ⟨rfl, hrest⟩
  | _ => cases hkind

theorem splitsOff_int (n : Int) : SplitsOff Shows (.int n) := by
  intro u p q r s ht hu hr hs h
  have hkind := kind_eq_of_append ht hu h
  cases ht.form
  cases hu.form with
  | int n' =>
    obtain ⟨rfl, hrest⟩ := Integer.text_append_inj hr hs h
    exact ⟨rfl, hrest⟩
  | _ => cases hkind

theorem splitsOff_text (t : Text) : SplitsOff Shows (.text t) := by
  intro u p q r s ht hu _ _ h
  have hkind := kind_eq_of_append ht hu h
  cases ht.form
  cases hu.form with
  | text t' =>
    obtain ⟨rfl, hrest⟩ := Text.quoted_append_inj h
    exact ⟨rfl, hrest⟩
  | _ => cases hkind

theorem splitsOff_array {items : List Tree} (ih : ∀ t ∈ items, SplitsOff Shows t) :
    SplitsOff Shows (.array items) := by
  intro u p q r s ht hu _ _ h
  have hkind := kind_eq_of_append ht hu h
  have hlead : ∀ t p, Shows t p → ∃ c rest, p = c :: rest ∧ c ≠ .scalar ']' := by
    intro t p hp
    obtain ⟨c, rest, hcons, hc⟩ := hp.exists_lead
    exact ⟨c, rest, hcons, Kind.ne_of_ofLead? hc rfl⟩
  cases ht.form with | array hparts =>
  cases hu.form with
  | array hparts' =>
    simp only [bracketed, List.append_assoc] at h
    obtain ⟨rfl, hrest⟩ := Text.intercalate_append_inj (by decide) (by decide) hlead hparts hparts'
      ih (List.append_cancel_left h)
    exact ⟨rfl, (List.cons.inj hrest).2⟩
  | _ => cases hkind

theorem splitsOff_field {f : Text × Tree} (h : SplitsOff Shows f.2) : SplitsOff FieldShows f := by
  rintro g p q r s ⟨body, hbody, rfl⟩ ⟨body', hbody', rfl⟩ hr hs heq
  simp only [List.append_assoc] at heq
  obtain ⟨hkey, hbehind⟩ := Text.quoted_append_inj heq
  obtain ⟨htree, hrest⟩ := h hbody hbody' hr hs (List.append_cancel_left hbehind)
  exact ⟨Prod.ext hkey htree, hrest⟩

theorem splitsOff_object {fields : List (Text × Tree)}
    (ih : ∀ f ∈ fields, SplitsOff Shows f.2) : SplitsOff Shows (.object fields) := by
  intro u p q r s ht hu _ _ h
  have hkind := kind_eq_of_append ht hu h
  have hlead : ∀ f p, FieldShows f p → ∃ c rest, p = c :: rest ∧ c ≠ .scalar '\x7d' := by
    rintro f p ⟨body, -, rfl⟩
    obtain ⟨c, rest, hcons, hc⟩ := exists_lead_quoted f.1
    exact ⟨c, rest ++ ((": " : Text) ++ body), by simp [hcons], Kind.ne_of_ofLead? hc rfl⟩
  cases ht.form with | object hparts =>
  cases hu.form with
  | object hparts' =>
    simp only [bracketed, List.append_assoc] at h
    obtain ⟨rfl, hrest⟩ := Text.intercalate_append_inj (by decide) (by decide) hlead hparts hparts'
      (fun f hf => splitsOff_field (ih f hf)) (List.append_cancel_left h)
    exact ⟨rfl, (List.cons.inj hrest).2⟩
  | _ => cases hkind

end Kinds

/-- The text of a tree without floats is split off the front of a longer one in one way only. -/
theorem FloatFree.splitsOff {t : Tree} (h : t.FloatFree) : Text.SplitsOff Shows t := by
  -- the induction is over one of two trees; the other is opened by its kind, which is the same
  induction h with
  | null => exact splitsOff_null
  | bool b => exact splitsOff_bool b
  | int n => exact splitsOff_int n
  | text t => exact splitsOff_text t
  | array _ ih => exact splitsOff_array ih
  | object _ ih => exact splitsOff_object ih

end Tree

/-- Two trees without floats that can be printed have the same text only if they are the same tree:
the same containers and scalars, of the same kinds, with the same keys and elements in the same
order. Nothing is asked of how the trees were made, nor of the texts in them. -/
theorem printed_alike_iff {s t : Tree} {p q : Text} (hs : s.FloatFree) (ht : t.FloatFree)
    (hp : s.printed = .ok p) (hq : t.printed = .ok q) : p = q ↔ s = t := by
  constructor
  · rintro rfl
    exact (hs.splitsOff ⟨hs, hp⟩ ⟨ht, hq⟩ Text.pastDigits_nil Text.pastDigits_nil rfl).1
  · rintro rfl
    exact Except.ok.inj (hp.symm.trans hq)

/-- An object with an array of four elements. Its first text holds quotes and a comma, its second
is half of a surrogate pair. -/
def Tree.joined : Tree :=
  .object [("k", .array [.text "a', 'b\"", .text [.lone ⟨0, by decide⟩], .int (-7), .null])]

/-- An object with an array of five texts that look like the elements of the other one. -/
def Tree.parted : Tree :=
  .object [("k", .array [.text "a", .text "b\"", .text "\\ud800", .text "-7", .text "None"])]

/-- Quotes and backslashes in their texts tell these trees apart. -/
theorem lookalikes_printed :
    Tree.joined.FloatFree ∧ Tree.parted.FloatFree ∧ ∃ p q : Text,
      p = "Object(\x7b'k': Array(['a\\', \\'b\"', '\\ud800', -7, None])\x7d)" ∧
      q = "Object(\x7b'k': Array(['a', 'b\"', '\\\\ud800', '-7', 'None'])\x7d)" ∧
      Tree.joined.printed = .ok p ∧ Tree.parted.printed = .ok q ∧
      (p = q ↔ Tree.joined = Tree.parted) := by
  have hs : Tree.joined.FloatFree := by
    refine .object (List.forall_mem_singleton.mpr (.array fun t ht => ?_))
    simp only [List.mem_cons, List.not_mem_nil, or_false] at ht
    rcases ht with rfl | rfl | rfl | rfl <;> constructor
  have ht : Tree.parted.FloatFree := by
    refine .object (List.forall_mem_singleton.mpr (.array fun t ht => ?_))
    simp only [List.mem_cons, List.not_mem_nil, or_false] at ht
    rcases ht with rfl | rfl | rfl | rfl | rfl <;> constructor
  refine ⟨hs, ht, _, _, rfl, rfl, ?hp, ?hq, printed_alike_iff hs ht ?hp ?hq⟩
  case hp => decide +kernel
  case hq => decide +kernel

end ParserClient
