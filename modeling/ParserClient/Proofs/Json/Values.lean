import Mathlib.Data.List.Forall2
import ParserClient.Proofs.Json.Strings
import ParserClient.Proofs.Number.Integer

/-!
# JSON values are read as they are written

A text *stands for* a tree if, with anything behind it that does not go on a number, it is read as
the tree and what is behind it is left. The words, strings and integers that are written stand for
themselves, and so do arrays and objects whose items and fields do, one level deeper. Floats are
left out.

## Main definitions

* `Json.Behind` — where a value may end.
* `Json.Stands`, `Json.FieldStands` — a text stands for a tree, and for a field of an object.

## Main results

* `Json.Stands.null`, `Json.Stands.bool`, `Json.Stands.text`, `Json.Stands.int` — leaves.
* `Json.Stands.array`, `Json.Stands.object` — containers.
* `Json.fieldsOf_of_nodup` — the order of fields with different keys is kept.
-/

namespace ParserClient

namespace Json

/-- The code point may go on a number. -/
def continuesNumber (c : CodePoint) : Bool :=
  c.digit?.isSome || c == .scalar '.' || c == .scalar 'e' || c == .scalar 'E'

/-- A value may end in front of the text: it does not go on a number. -/
def Behind (rest : Text) : Prop := ∀ c ∈ rest.head?, continuesNumber c = false

/-- A visible sign of ASCII. -/
def IsSign (c : CodePoint) : Prop := 0x20 < c.toNat ∧ c.toNat < 0x7F

instance (c : CodePoint) : Decidable (IsSign c) := inferInstanceAs (Decidable (_ ∧ _))

/-- The text begins with a visible sign of ASCII, other than a closing bracket or brace. -/
def Begins (part : Text) : Prop :=
  ∃ c rest, part = c :: rest ∧ IsSign c ∧ c ≠ .scalar ']' ∧ c ≠ .scalar '\x7d'

/-- Where a value may end, the text stands for a tree whose containers nest no deeper than
`depth`. -/
structure Stands (depth : Nat) (part : Text) (t : Tree) : Prop where
  begins : Begins part
  reads : ∀ rest, Behind rest → value depth (part ++ rest) = .ok (t, rest)

theorem IsSign.isSpace {c : CodePoint} (h : IsSign c) : isSpace c = false := by
  have hne : ∀ d : CodePoint, d.toNat ≤ 0x20 → c ≠ d := by
    rintro d hd rfl
    exact absurd h.1 (by omega)
  simp only [Json.isSpace, Bool.or_eq_false_iff, decide_eq_false_iff_not]
  exact ⟨⟨⟨hne _ (by decide), hne _ (by decide)⟩, hne _ (by decide)⟩, hne _ (by decide)⟩

theorem skipSpace_cons {c : CodePoint} (h : isSpace c = false) (t : Text) :
    skipSpace (c :: t) = c :: t := by
  simp [skipSpace, h]

namespace Begins

variable {part : Text}

theorem append (h : Begins part) (rest : Text) : Begins (part ++ rest) := by
  obtain ⟨c, s, rfl, hc⟩ := h
  exact ⟨c, s ++ rest, rfl, hc⟩

theorem skipSpace (h : Begins part) : Json.skipSpace part = part := by
  obtain ⟨c, s, rfl, hc, -⟩ := h
  exact skipSpace_cons hc.isSpace s

theorem length_pos (h : Begins part) : 1 ≤ part.length := by
  obtain ⟨c, s, rfl, -⟩ := h
  simp

end Begins

theorem behind_cons {c : CodePoint} {rest : Text} (h : continuesNumber c = false) :
    Behind (c :: rest) := by
  rintro d ⟨⟩
  exact h

theorem Behind.pastDigits {rest : Text} (h : Behind rest) : rest.PastDigits := by
  intro c hc
  have hno := h c hc
  simp only [continuesNumber, Bool.or_eq_false_iff, Option.isSome_eq_false_iff,
    Option.isNone_iff_eq_none] at hno
  exact hno.1.1.1

/-! ### Numbers -/

theorem takeFraction_of_behind {rest : Text} (h : Behind rest) :
    takeFraction rest = ([], rest) := by
  unfold takeFraction
  split
  · exact absurd (h _ rfl) (by decide)
  · rfl

theorem takeExponent_of_behind {rest : Text} (h : Behind rest) :
    takeExponent rest = (none, rest) := by
  unfold takeExponent
  split
  · next e r =>
    have he := h _ rfl
    simp only [continuesNumber, Bool.or_eq_false_iff, beq_eq_false_iff_ne] at he
    rw [if_neg]
    rintro (rfl | rfl)
    · exact he.1.2 rfl
    · exact he.2 rfl
  · rfl

theorem takeWhole_text (n : Nat) {rest : Text} (h : Behind rest) :
    takeWhole (Natural.text n ++ rest) = ((Nat.toDigits 10 n).map Natural.value, rest) := by
  have hspan := Natural.spanDigits_text n h.pastDigits
  obtain ⟨c, s, hcons, hc, hzero⟩ := Natural.toDigits_eq_cons n
  rw [Natural.text, hcons] at hspan ⊢
  simp only [List.map_cons, List.cons_append] at hspan ⊢
  rw [takeWhole, CodePoint.digit?_of_isDigit hc]
  by_cases hv : Natural.value c = 0
  · rw [hzero hv, hv]
    rfl
  · split
    · next h => simp at h
    · next h => exact absurd (Option.some.inj h) hv
    · exact hspan

theorem takeMinus_text (n : Int) (rest : Text) :
    takeMinus (Integer.text n ++ rest) = (decide (n < 0), Natural.text n.natAbs ++ rest) := by
  cases n with
  | negSucc n => simp [Integer.text, takeMinus, Int.negSucc_lt_zero]
  | ofNat n =>
    obtain ⟨c, s, hcons, hc, -⟩ := Natural.toDigits_eq_cons n
    have hminus : c ≠ '-' := by
      rintro rfl
      exact absurd hc (by decide)
    simp only [Integer.text, Natural.text, hcons, List.map_cons, List.cons_append,
      Int.ofNat_eq_natCast, Int.natAbs_natCast]
    unfold takeMinus
    split
    · next h => simp_all
    · simp

theorem number_text {n : Int} (hn : (Nat.toDigits 10 n.natAbs).length ≤ digitLimit) {rest : Text}
    (h : Behind rest) : number (Integer.text n ++ rest) = .ok (.int n, rest) := by
  have hwhole := takeWhole_text n.natAbs h
  have hvalue := Natural.ofDigits_value n.natAbs
  have hsign : (if decide (n < 0) = true then -(n.natAbs : Int) else n.natAbs) = n := by
    by_cases hneg : n < 0
    · rw [if_pos (decide_eq_true hneg)]
      omega
    · rw [if_neg (by simpa only [decide_eq_true_eq] using hneg)]
      omega
  have hdigits : ¬ digitLimit < ((Nat.toDigits 10 n.natAbs).map Natural.value).length := by
    simpa using hn
  obtain ⟨c, s, hcons, -, -⟩ := Natural.toDigits_eq_cons n.natAbs
  rw [hcons, List.map_cons] at hwhole hvalue hdigits
  simp only [number, takeMinus_text, hwhole, takeFraction_of_behind h, takeExponent_of_behind h,
    numberOf, List.isEmpty_nil, Option.isNone_none, Bool.and_self, ↓reduceIte, hdigits, hvalue,
    hsign]
  rfl

/-! ### Words, strings and numbers -/

theorem value_scalar {c : CodePoint} {r : Text} (hbracket : c ≠ .scalar '[')
    (hbrace : c ≠ .scalar '\x7b') (depth : Nat) : value depth (c :: r) = scalar (c :: r) := by
  cases depth <;> (unfold value; split <;> simp_all)

/-- A text that no word stands at the front of is a string or a number. -/
theorem findSome?_words {t : Text} (h : ∀ w ∈ words, w.1.isPrefixOf t = false) :
    (words.findSome? fun w => (behind? w.1 t).map (w.2, ·)) = none := by
  rw [List.findSome?_eq_none_iff]
  intro w hw
  simp [behind?, h w hw]

theorem scalar_writeString (t rest : Text) :
    scalar (writeString t ++ rest) = .ok (.text t, rest) := by
  have hwords : ∀ w ∈ words, w.1.isPrefixOf (writeString t ++ rest) = false := by
    simp only [words, List.forall_mem_cons]
    exact ⟨rfl, rfl, rfl, rfl, rfl, rfl, by simp⟩
  have hstring := string_flatMap (writeString t ++ rest) t rest
  unfold scalar
  rw [findSome?_words hwords]
  simp only [writeString, List.cons_append, List.append_assoc, List.nil_append] at hstring ⊢
  rw [hstring]
  rfl

/-- No word stands where a digit does, or behind a minus in front of a digit. -/
theorem isPrefixOf_digit {w : Text × Tree} (hw : w ∈ words) {c : Char} (hc : c.isDigit = true)
    (s : Text) : w.1.isPrefixOf (.scalar c :: s) = false ∧
      w.1.isPrefixOf (.scalar '-' :: .scalar c :: s) = false := by
  have hletter : ∀ d, d.isDigit = false → d ≠ c := by
    rintro d hd rfl
    exact absurd hc (by simp [hd])
  simp only [words, List.mem_cons, List.not_mem_nil, or_false] at hw
  rcases hw with rfl | rfl | rfl | rfl | rfl | rfl <;>
    simp [Text.ofString, List.isPrefixOf, hletter]

theorem scalar_text {n : Int} (hn : (Nat.toDigits 10 n.natAbs).length ≤ digitLimit) {rest : Text}
    (h : Behind rest) : scalar (Integer.text n ++ rest) = .ok (.int n, rest) := by
  have hnumber := number_text hn h
  obtain ⟨c, s, hcons, hc, -⟩ := Natural.toDigits_eq_cons n.natAbs
  unfold scalar
  cases n with
  | ofNat n =>
    have hquote : c ≠ '"' := by
      rintro rfl
      exact absurd hc (by decide)
    have hcons : Nat.toDigits 10 n = c :: s := hcons
    rw [Integer.text, Natural.text, hcons, List.map_cons, List.cons_append] at hnumber ⊢
    rw [findSome?_words fun w hw => (isPrefixOf_digit hw hc _).1]
    dsimp only
    split
    · next heq => exact absurd (List.cons.inj heq).1 (by simpa using hquote)
    · exact hnumber
  | negSucc n =>
    have hcons : Nat.toDigits 10 (n + 1) = c :: s := hcons
    rw [Integer.text, Natural.text, hcons, List.map_cons, List.cons_append, List.cons_append]
      at hnumber ⊢
    rw [findSome?_words fun w hw => (isPrefixOf_digit hw hc _).2]
    exact hnumber

/-! ### Texts that stand for trees -/

namespace Stands

variable {depth : Nat} {t : Tree}

/-- A text that begins no container. -/
theorem of_scalar {c : CodePoint} {s : Text} (hsign : IsSign c)
    (hbracket : c ≠ .scalar '[') (hbrace : c ≠ .scalar '\x7b')
    (hclose : c ≠ .scalar ']' ∧ c ≠ .scalar '\x7d')
    (hreads : ∀ rest, Behind rest → scalar (c :: s ++ rest) = .ok (t, rest)) :
    Stands depth (c :: s) t where
  begins := ⟨c, s, rfl, hsign, hclose⟩
  reads rest hrest := by
    rw [List.cons_append, value_scalar hbracket hbrace]
    exact hreads rest hrest

theorem null : Stands depth "null" .null :=
  of_scalar (by decide) (by decide) (by decide) (by decide) fun _ _ => rfl

theorem bool (b : Bool) : Stands depth (truth b) (.bool b) := by
  cases b with
  | false => exact of_scalar (by decide) (by decide) (by decide) (by decide) fun _ _ => rfl
  | true => exact of_scalar (by decide) (by decide) (by decide) (by decide) fun _ _ => rfl

theorem text (t : Text) : Stands depth (writeString t) (.text t) :=
  of_scalar (by decide) (by decide) (by decide) (by decide) fun rest _ => scalar_writeString t rest

theorem int {n : Int} (hn : (Nat.toDigits 10 n.natAbs).length ≤ digitLimit) :
    Stands depth (Integer.text n) (.int n) := by
  have hreads : ∀ rest, Behind rest → scalar (Integer.text n ++ rest) = .ok (.int n, rest) :=
    fun _ => scalar_text hn
  obtain ⟨c, s, hcons, hc, -⟩ := Natural.toDigits_eq_cons n.natAbs
  have hne : ∀ d, d.isDigit = false → c ≠ d := by
    rintro d hd rfl
    exact absurd hc (by simp [hd])
  cases n with
  | ofNat n =>
    have hcons : Nat.toDigits 10 n = c :: s := hcons
    rw [Integer.text, Natural.text, hcons, List.map_cons] at hreads ⊢
    have hsign : IsSign (.scalar c) := by
      obtain ⟨hzero, hnine⟩ := Natural.between_of_isDigit hc
      exact ⟨Nat.lt_of_lt_of_le (by decide) hzero, Nat.lt_of_le_of_lt hnine (by decide)⟩
    exact of_scalar hsign (by simp [hne]) (by simp [hne]) (by simp [hne]) hreads
  | negSucc n =>
    exact of_scalar (by decide) (by decide) (by decide) (by decide) hreads

end Stands

/-! ### Containers -/

theorem intercalate_cons_cons (p q : Text) (parts : List Text) :
    Text.intercalate "," (p :: q :: parts) =
      p ++ .scalar ',' :: Text.intercalate "," (q :: parts) := by
  simp [Text.intercalate, Text.ofString]

theorem intercalate_singleton (p : Text) : Text.intercalate "," [p] = p := by
  simp [Text.intercalate]

theorem begins_intercalate {p : Text} (hp : Begins p) (parts : List Text) :
    Begins (Text.intercalate "," (p :: parts)) := by
  cases parts with
  | nil => rwa [intercalate_singleton]
  | cons q parts =>
    rw [intercalate_cons_cons]
    exact hp.append _

/-- Every part takes up some text. -/
theorem length_le_intercalate {parts : List Text} (h : ∀ p ∈ parts, Begins p) :
    parts.length ≤ (Text.intercalate "," parts).length := by
  induction parts with
  | nil => simp
  | cons p parts ih =>
    have hp := (h p List.mem_cons_self).length_pos
    have hparts := ih fun q hq => h q (List.mem_cons_of_mem p hq)
    cases parts with
    | nil => simpa [intercalate_singleton] using hp
    | cons q parts =>
      rw [intercalate_cons_cons]
      simp only [List.length_cons, List.length_append] at hparts ⊢
      omega

/-- The length of what is read bounds the number of parts. -/
theorem length_le_bound {parts : List Text} (h : ∀ p ∈ parts, Begins p) (rest : Text) :
    parts.length ≤ (Text.intercalate "," parts ++ rest).length + 1 := by
  have hparts := length_le_intercalate h
  rw [List.length_append]
  omega

theorem flat_intercalate {parts : List Text} (h : ∀ p ∈ parts, p.Flat) :
    (Text.intercalate "," parts).Flat := by
  induction parts with
  | nil => exact Text.flat_nil
  | cons p parts ih =>
    have hparts := ih fun q hq => h q (List.mem_cons_of_mem p hq)
    cases parts with
    | nil => simpa [intercalate_singleton] using h p List.mem_cons_self
    | cons q parts =>
      rw [intercalate_cons_cons, Text.flat_append, Text.flat_cons]
      exact ⟨h p List.mem_cons_self, rfl, hparts⟩

theorem begins_of_forall₂ {α : Type} {Reads : Text → α → Prop} {parts : List Text} {all : List α}
    (hbegins : ∀ p a, Reads p a → Begins p) (h : List.Forall₂ Reads parts all) :
    ∀ p ∈ parts, Begins p := by
  induction h with
  | nil => simp
  | cons hp _ ih => exact List.forall_mem_cons.mpr ⟨hbegins _ _ hp, ih⟩

/-! ### Arrays -/

theorem items_intercalate {depth : Nat} {parts : List Text} {trees : List Tree}
    (h : List.Forall₂ (Stands depth) parts trees) (hne : parts ≠ []) (rest : Text) {n : Nat}
    (hbound : parts.length ≤ n) :
    items (value depth) n (Text.intercalate "," parts ++ .scalar ']' :: rest) =
      .ok (trees, rest) := by
  induction h generalizing n with
  | nil => exact absurd rfl hne
  | @cons p t parts trees hp hparts ih =>
    obtain ⟨n, rfl⟩ := Nat.exists_eq_add_one_of_ne_zero (n := n) (by simp at hbound; omega)
    cases hparts with
    | nil =>
      rw [intercalate_singleton, items, hp.reads _ (behind_cons (by decide))]
      rfl
    | @cons q t' parts trees hq hparts =>
      have hrest := ih (by simp) (n := n) (by simpa using hbound)
      have hskip := ((begins_intercalate hq.begins parts).append (.scalar ']' :: rest)).skipSpace
      rw [intercalate_cons_cons, List.append_assoc, List.cons_append, items,
        hp.reads _ (behind_cons (by decide))]
      simp only [skipSpace_cons (c := .scalar ',') rfl, hskip, hrest]
      rfl

theorem value_array {depth : Nat} {parts : List Text} {trees : List Tree}
    (h : List.Forall₂ (Stands depth) parts trees) (rest : Text) :
    value (depth + 1) (.scalar '[' :: Text.intercalate "," parts ++ .scalar ']' :: rest) =
      .ok (.array trees, rest) := by
  cases h with
  | nil => rfl
  | @cons p t parts trees hp hparts =>
    have hbegins := (begins_intercalate hp.begins parts).append (.scalar ']' :: rest)
    have hparts' := begins_of_forall₂ (fun _ _ h => h.begins) (.cons hp hparts)
    have hbound := length_le_bound hparts' (.scalar ']' :: rest)
    have hitems := items_intercalate (.cons hp hparts) (by simp) rest hbound
    have hskip := hbegins.skipSpace
    obtain ⟨c, s, hcons, -, hclose, -⟩ := hbegins
    simp only [value, List.cons_append, array]
    rw [hskip]
    rw [hcons] at hitems ⊢
    split
    · next heq => exact absurd (List.cons.inj heq).1 hclose
    · rw [hitems]
      rfl

theorem Stands.array {depth : Nat} {parts : List Text} {trees : List Tree}
    (h : List.Forall₂ (Stands depth) parts trees) :
    Stands (depth + 1) (.scalar '[' :: Text.intercalate "," parts ++ [.scalar ']'])
      (.array trees) where
  begins := ⟨_, _, rfl, by decide, by decide, by decide⟩
  reads rest _ := by
    rw [List.append_assoc]
    exact value_array h rest

/-! ### Objects -/

/-- The text stands for a field: a key, a colon and a value. -/
def FieldStands (depth : Nat) (part : Text) (field : Text × Tree) : Prop :=
  ∃ body, part = writeString field.1 ++ .scalar ':' :: body ∧ Stands depth body field.2

theorem FieldStands.begins {depth : Nat} {part : Text} {field : Text × Tree}
    (h : FieldStands depth part field) : Begins part := by
  obtain ⟨body, rfl, -⟩ := h
  exact ⟨_, _, rfl, by decide, by decide, by decide⟩

theorem key_writeString (name : Text) {body : Text} (h : Begins body) :
    key (writeString name ++ .scalar ':' :: body) = .ok (name, body) := by
  have hstring := string_flatMap (writeString name ++ .scalar ':' :: body) name
    (.scalar ':' :: body)
  unfold key
  simp only [writeString, List.cons_append, List.append_assoc, List.nil_append] at hstring ⊢
  rw [hstring]
  simp only [skipSpace_cons (c := .scalar ':') rfl, h.skipSpace]

theorem fields_intercalate {depth : Nat} {parts : List Text} {all : List (Text × Tree)}
    (h : List.Forall₂ (FieldStands depth) parts all) (hne : parts ≠ []) (rest : Text) {n : Nat}
    (hbound : parts.length ≤ n) :
    fields (value depth) n (Text.intercalate "," parts ++ .scalar '\x7d' :: rest) =
      .ok (all, rest) := by
  induction h generalizing n with
  | nil => exact absurd rfl hne
  | @cons p f parts all hp hparts ih =>
    obtain ⟨n, rfl⟩ := Nat.exists_eq_add_one_of_ne_zero (n := n) (by simp at hbound; omega)
    obtain ⟨body, rfl, hbody⟩ := hp
    cases hparts with
    | nil =>
      rw [intercalate_singleton, List.append_assoc, List.cons_append, fields,
        key_writeString f.1 (hbody.begins.append _)]
      simp only [hbody.reads _ (behind_cons (c := .scalar '\x7d') rfl)]
      rfl
    | @cons q g parts all hq hparts =>
      have hrest := ih (by simp) (n := n) (by simpa using hbound)
      have hskip :=
        ((begins_intercalate hq.begins parts).append (.scalar '\x7d' :: rest)).skipSpace
      rw [intercalate_cons_cons, List.append_assoc, List.append_assoc, List.cons_append, fields,
        List.cons_append, key_writeString f.1 (hbody.begins.append _)]
      simp only [hbody.reads _ (behind_cons (c := .scalar ',') rfl),
        skipSpace_cons (c := .scalar ',') rfl, hskip, hrest]
      rfl

theorem putField_of_notMem {all : List (Text × Tree)} {name : Text}
    (h : name ∉ all.map (·.1)) (t : Tree) : putField all name t = all ++ [(name, t)] := by
  induction all with
  | nil => rfl
  | cons f all ih =>
    simp only [List.map_cons, List.mem_cons, not_or] at h
    rw [putField, if_neg fun heq => h.1 heq.symm, ih h.2]
    rfl

/-- Fields with different keys are left as they are. -/
theorem fieldsOf_of_nodup {all : List (Text × Tree)} (h : (all.map (·.1)).Nodup) :
    fieldsOf all = all := by
  suffices ∀ front, ((front ++ all).map (·.1)).Nodup →
      all.foldl (fun all f => putField all f.1 f.2) front = front ++ all from this [] h
  clear h
  induction all with
  | nil => simp
  | cons f all ih =>
    intro front hfront
    have hnew : f.1 ∉ front.map (·.1) := by
      intro hold
      rw [List.map_append, List.nodup_append] at hfront
      exact hfront.2.2 _ hold _ (by simp) rfl
    rw [List.foldl_cons, putField_of_notMem hnew, ih _ (by simpa using hfront), List.append_assoc]
    rfl

theorem value_object {depth : Nat} {parts : List Text} {all : List (Text × Tree)}
    (h : List.Forall₂ (FieldStands depth) parts all) (hkeys : (all.map (·.1)).Nodup)
    (rest : Text) :
    value (depth + 1) (.scalar '\x7b' :: Text.intercalate "," parts ++ .scalar '\x7d' :: rest) =
      .ok (.object all, rest) := by
  cases h with
  | nil => rfl
  | @cons p f parts all hp hparts =>
    have hbegins := (begins_intercalate hp.begins parts).append (.scalar '\x7d' :: rest)
    have hparts' := begins_of_forall₂ (fun _ _ h => h.begins) (.cons hp hparts)
    have hbound := length_le_bound hparts' (.scalar '\x7d' :: rest)
    have hfields := fields_intercalate (.cons hp hparts) (by simp) rest hbound
    have hskip := hbegins.skipSpace
    obtain ⟨c, s, hcons, -, -, hclose⟩ := hbegins
    simp only [value, List.cons_append, object]
    rw [hskip]
    rw [hcons] at hfields ⊢
    split
    · next heq => exact absurd (List.cons.inj heq).1 hclose
    · rw [hfields]
      simp only [Except.map, fieldsOf_of_nodup hkeys]

theorem Stands.object {depth : Nat} {parts : List Text} {all : List (Text × Tree)}
    (h : List.Forall₂ (FieldStands depth) parts all) (hkeys : (all.map (·.1)).Nodup) :
    Stands (depth + 1) (.scalar '\x7b' :: Text.intercalate "," parts ++ [.scalar '\x7d'])
      (.object all) where
  begins := ⟨_, _, rfl, by decide, by decide, by decide⟩
  reads rest _ := by
    rw [List.append_assoc]
    exact value_object h hkeys rest

end Json

end ParserClient
