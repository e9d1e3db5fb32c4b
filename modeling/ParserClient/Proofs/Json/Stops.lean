import ParserClient.Proofs.Json.Values

/-!
# Why a JSON reader stops

A reader that gives a result leaves an end of the text that it was given. A reader that stops
without a complaint about the text has a ground for it in the text: it has met more opening brackets
and braces than containers may nest, or a run of digits longer than an integer may have. A text
without either is read, or it is complained about.

The grounds are necessary only: a bracket in a string opens nothing, and digits in a string or
behind a point make no integer. A line of nothing but such digits does stop the reader.

## Main definitions

* `Json.opens` — a bracket or brace that opens a container.
* `Json.IsLongRun` — a run of digits that is too long for an integer.
* `Json.Stop.Founded`, `Json.Sound` — what a reader may come to on a text.

## Main results

* `Json.sound_value` — the reader of values.
* `Json.opens_of_tooDeep`, `Json.isLongRun_of_oversized` — the grounds in a whole text.
* `Json.read_of_long` — a line that stops the reader.
-/

namespace ParserClient

namespace Json

/-- An opening bracket or brace. -/
def opens (c : CodePoint) : Bool := c = .scalar '[' || c = .scalar '\x7b'

/-- Decimal digits that stand together in a text and are too many for an integer. -/
structure IsLongRun (run t : Text) : Prop where
  inside : run <:+: t
  digits : ∀ c ∈ run, c.digit?.isSome = true
  long : digitLimit < run.length

/-- The text gives the ground for a stop. A complaint needs none here. -/
def Stop.Founded (depth : Nat) (t : Text) : Stop → Prop
  | .complaint _ _ => True
  | .tooDeep => depth < t.countP opens
  | .oversized o => ∃ run, IsLongRun run t ∧ o = .read run.length

/-- What a reader of containers that nest no deeper than `depth` may come to on a text. -/
def Sound {α : Type} (depth : Nat) (t : Text) : Reading α → Prop
  | .ok (_, left) => left <:+ t
  | .error stop => stop.Founded depth t

variable {α β : Type} {depth : Nat} {s t : Text}

theorem Stop.Founded.mono {stop : Stop} (hst : s <:+: t) (h : stop.Founded depth s) :
    stop.Founded depth t := by
  cases stop with
  | complaint c left => trivial
  | tooDeep => exact Nat.lt_of_lt_of_le h hst.sublist.countP_le
  | oversized o =>
    obtain ⟨run, hrun, ho⟩ := h
    exact ⟨run, ⟨hrun.inside.trans hst, hrun.digits, hrun.long⟩, ho⟩

theorem Stop.founded_of_opens {c : CodePoint} (hc : opens c = true) (t : Text) :
    Stop.tooDeep.Founded 0 (c :: t) := by
  rw [Founded, List.countP_cons_of_pos hc]
  exact Nat.zero_lt_succ _

namespace Sound

variable {r : Reading α}

theorem mono (h : Sound depth s r) (hst : s <:+ t) : Sound depth t r := by
  cases r with
  | ok result => exact List.IsSuffix.trans h hst
  | error stop => exact Stop.Founded.mono hst.isInfix h

theorem map (h : Sound depth t r) (f : α → β) :
    Sound depth t (r.map fun (a, left) => (f a, left)) := by
  cases r with
  | ok result => exact h
  | error stop => exact h

theorem prepend {r : Reading Text} (h : Sound depth s r) (c : CodePoint) (hst : s <:+ t) :
    Sound depth t (prepend c r) :=
  (h.map (c :: ·)).mono hst

/-- A bracket or brace allows for one more level. -/
theorem opening {c : CodePoint} (hc : opens c = true) (h : Sound depth t r) :
    Sound (depth + 1) (c :: t) r := by
  cases r with
  | ok result => exact List.IsSuffix.trans h (List.suffix_cons c t)
  | error stop =>
    cases stop with
    | complaint _ _ => trivial
    | tooDeep =>
      show depth + 1 < (c :: t).countP opens
      rw [List.countP_cons_of_pos hc]
      exact Nat.succ_lt_succ h
    | oversized o =>
      have hfounded : (Stop.oversized o).Founded depth t := h
      exact hfounded.mono (List.suffix_cons c t).isInfix

end Sound

theorem skipSpace_suffix (t : Text) : skipSpace t <:+ t := List.dropWhile_suffix _

/-! ### Numbers -/

theorem exists_spanDigits (t : Text) :
    ∃ run, t = run ++ (Text.spanDigits t).2 ∧ run.length = (Text.spanDigits t).1.length ∧
      ∀ c ∈ run, c.digit?.isSome = true := by
  induction t with
  | nil => exact ⟨[], rfl, rfl, by simp⟩
  | cons c t ih =>
    cases hc : c.digit? with
    | none => exact ⟨[], by simp [Text.spanDigits, hc], by simp [Text.spanDigits, hc], by simp⟩
    | some d =>
      obtain ⟨run, ht, hlength, hdigits⟩ := ih
      simp only [Text.spanDigits, hc]
      exact ⟨c :: run, congrArg _ ht, congrArg (· + 1) hlength,
        List.forall_mem_cons.mpr ⟨by simp [hc], hdigits⟩⟩

theorem spanDigits_suffix (t : Text) : (Text.spanDigits t).2 <:+ t := by
  obtain ⟨run, ht, -⟩ := exists_spanDigits t
  exact ⟨run, ht.symm⟩

theorem exists_takeWhole (t : Text) :
    ∃ run, t = run ++ (takeWhole t).2 ∧ run.length = (takeWhole t).1.length ∧
      ∀ c ∈ run, c.digit?.isSome = true := by
  cases t with
  | nil => exact ⟨[], rfl, rfl, by simp⟩
  | cons c t =>
    rw [takeWhole]
    split
    · exact ⟨[], rfl, rfl, by simp⟩
    · next hc => exact ⟨[c], rfl, rfl, by simp [hc]⟩
    · exact exists_spanDigits (c :: t)

theorem takeMinus_suffix (t : Text) : (takeMinus t).2 <:+ t := by
  unfold takeMinus
  split
  · exact List.suffix_cons _ _
  · exact List.suffix_refl _

theorem takeSign_suffix (t : Text) : (Text.takeSign t).2 <:+ t := by
  unfold Text.takeSign
  split
  · exact List.suffix_cons _ _
  · exact List.suffix_cons _ _
  · exact List.suffix_refl _

theorem takeFraction_suffix (t : Text) : (takeFraction t).2 <:+ t := by
  unfold takeFraction
  split
  · next r =>
    split
    · exact List.suffix_refl _
    · next digits rest _ hspan =>
      have hrest := spanDigits_suffix r
      rw [hspan] at hrest
      exact hrest.trans (List.suffix_cons _ _)
  · exact List.suffix_refl _

theorem takeExponent_suffix (t : Text) : (takeExponent t).2 <:+ t := by
  unfold takeExponent
  split
  · next e r =>
    split
    · dsimp only
      split
      · exact List.suffix_refl _
      · next digits rest _ hspan =>
        have hrest := spanDigits_suffix (Text.takeSign r).2
        rw [hspan] at hrest
        exact hrest.trans ((takeSign_suffix r).trans (List.suffix_cons _ _))
    · exact List.suffix_refl _
  · exact List.suffix_refl _

/-- A number stops for its digits only. -/
theorem numberOf_eq_error {negative : Bool} {whole fraction : List Nat} {exponent : Option Int}
    {stop : Stop} (h : numberOf negative whole fraction exponent = .error stop) :
    stop = .oversized (.read whole.length) ∧ digitLimit < whole.length := by
  unfold numberOf at h
  split at h
  · split at h
    · next hlong => exact ⟨(Except.error.inj h).symm, hlong⟩
    · cases h
  · cases h

theorem sound_number (depth : Nat) (t : Text) : Sound depth t (number t) := by
  have hminus := takeMinus_suffix t
  obtain ⟨run, hrun, hlength, hdigits⟩ := exists_takeWhole (takeMinus t).2
  unfold number
  dsimp only
  split
  · trivial
  · next whole rest _ hwhole =>
    rw [hwhole] at hrun hlength
    cases hnumber : numberOf (takeMinus t).1 whole (takeFraction rest).1
        (takeExponent (takeFraction rest).2).1 with
    | error stop =>
      obtain ⟨rfl, hlong⟩ := numberOf_eq_error hnumber
      have hinside : run <:+: (takeMinus t).2 := hrun ▸ (List.prefix_append _ _).isInfix
      exact ⟨run, ⟨hinside.trans hminus.isInfix, hdigits, hlength ▸ hlong⟩, by rw [hlength]⟩
    | ok tree =>
      have hrest : rest <:+ (takeMinus t).2 := ⟨run, hrun.symm⟩
      exact (takeExponent_suffix _).trans ((takeFraction_suffix _).trans (hrest.trans hminus))

/-! ### Strings and words -/

theorem sound_string (depth : Nat) (opening t : Text) : Sound depth t (string opening t) := by
  fun_induction string opening t with
  | case1 | case3 | case4 | case5 | case10 | case12 | case13 => trivial
  | case2 t => exact List.suffix_cons _ _
  | case6 | case7 | case8 | case9 | case11 | case14 =>
    -- a code point in front of what the rest of the string is
    rename_i ih
    exact ih.prepend _ (by simp [List.suffix_cons_iff])

theorem sound_scalar (depth : Nat) (t : Text) : Sound depth t (scalar t) := by
  unfold scalar
  split
  · next result hword =>
    obtain ⟨w, -, hw⟩ := List.exists_of_findSome?_eq_some hword
    obtain ⟨left, hleft, rfl⟩ := Option.map_eq_some_iff.mp hw
    unfold behind? at hleft
    split at hleft
    · obtain rfl := Option.some.inj hleft
      exact List.drop_suffix _ _
    · cases hleft
  · split
    · exact ((sound_string depth _ _).map Tree.text).mono (List.suffix_cons _ _)
    · exact sound_number depth t

/-! ### Containers -/

section Containers

variable {element : Text → Reading Tree}

theorem sound_items (helement : ∀ s, Sound depth s (element s)) (bound : Nat) (t : Text) :
    Sound depth t (items element bound t) := by
  induction bound generalizing t with
  | zero => trivial
  | succ bound ih =>
    have hhead := helement t
    rw [items]
    cases hread : element t with
    | error stop =>
      rw [hread] at hhead
      exact hhead
    | ok result =>
      obtain ⟨head, left⟩ := result
      rw [hread] at hhead
      have hleft : skipSpace left <:+ t := (skipSpace_suffix left).trans hhead
      dsimp only
      split
      · next hclose => exact (List.suffix_cons _ _).trans (hclose ▸ hleft)
      · next rest hcomma =>
        have hrest : skipSpace rest <:+ t :=
          (skipSpace_suffix rest).trans ((List.suffix_cons _ _).trans (hcomma ▸ hleft))
        exact ((ih _).map (head :: ·)).mono hrest
      · trivial

theorem sound_array (helement : ∀ s, Sound depth s (element s)) (t : Text) :
    Sound depth t (array element t) := by
  unfold array
  split
  · next left hclose => exact (List.suffix_cons _ _).trans (hclose ▸ skipSpace_suffix t)
  · exact ((sound_items helement _ _).map Tree.array).mono (skipSpace_suffix t)

theorem sound_key (depth : Nat) (t : Text) : Sound depth t (key t) := by
  unfold key
  split
  · next r =>
    have hname := sound_string depth (.scalar '"' :: r) r
    split
    · next stop hread =>
      rw [hread] at hname
      exact hname.mono (List.suffix_cons _ _)
    · next name left hread =>
      rw [hread] at hname
      have hleft : skipSpace left <:+ .scalar '"' :: r :=
        ((skipSpace_suffix left).trans hname).trans (List.suffix_cons _ _)
      split
      · next rest hcolon =>
        exact (skipSpace_suffix rest).trans ((List.suffix_cons _ _).trans (hcolon ▸ hleft))
      · trivial
  · trivial

theorem sound_fields (helement : ∀ s, Sound depth s (element s)) (bound : Nat) (t : Text) :
    Sound depth t (fields element bound t) := by
  induction bound generalizing t with
  | zero => trivial
  | succ bound ih =>
    have hname := sound_key depth t
    rw [fields]
    cases hkey : key t with
    | error stop =>
      rw [hkey] at hname
      exact hname
    | ok result =>
      obtain ⟨name, behind⟩ := result
      rw [hkey] at hname
      have hhead := (helement behind).mono hname
      dsimp only
      cases hread : element behind with
      | error stop =>
        rw [hread] at hhead
        exact hhead
      | ok result =>
        obtain ⟨head, left⟩ := result
        rw [hread] at hhead
        have hleft : skipSpace left <:+ t := (skipSpace_suffix left).trans hhead
        dsimp only
        split
        · next hclose => exact (List.suffix_cons _ _).trans (hclose ▸ hleft)
        · next rest hcomma =>
          have hrest : skipSpace rest <:+ t :=
            (skipSpace_suffix rest).trans ((List.suffix_cons _ _).trans (hcomma ▸ hleft))
          exact ((ih _).map ((name, head) :: ·)).mono hrest
        · trivial

theorem sound_object (helement : ∀ s, Sound depth s (element s)) (t : Text) :
    Sound depth t (object element t) := by
  unfold object
  split
  · next left hclose => exact (List.suffix_cons _ _).trans (hclose ▸ skipSpace_suffix t)
  · exact ((sound_fields helement _ _).map fun all => Tree.object (fieldsOf all)).mono
      (skipSpace_suffix t)

end Containers

/-- A value that stops at its depth has opened more containers than may nest. -/
theorem sound_value (depth : Nat) (t : Text) : Sound depth t (value depth t) := by
  induction depth generalizing t with
  | zero =>
    unfold value
    split
    · next r => exact Stop.founded_of_opens rfl r
    · next r => exact Stop.founded_of_opens rfl r
    · exact sound_scalar 0 t
  | succ depth ih =>
    unfold value
    split
    · exact (sound_array ih _).opening rfl
    · exact (sound_object ih _).opening rfl
    · exact sound_scalar (depth + 1) t

/-! ### Whole texts -/

theorem document_eq_error {depth : Nat} {stop : Stop} (h : document depth t = .error stop) :
    stop.Founded depth t := by
  have hvalue := sound_value depth (skipSpace t)
  unfold document at h
  split at h
  · obtain rfl := Except.error.inj h
    trivial
  · split at h
    · next hread =>
      obtain rfl := Except.error.inj h
      rw [hread] at hvalue
      exact (hvalue.mono (skipSpace_suffix t) :)
    · split at h
      · cases h
      · obtain rfl := Except.error.inj h
        trivial

/-- A text that nests too deep opens more containers than may nest. -/
theorem opens_of_tooDeep {depth : Nat} (h : read depth t = .error .tooDeep) :
    depth < t.countP opens := by
  unfold read at h
  split at h
  · cases h
  · cases h
  · next hstop => exact document_eq_error hstop
  · cases h

/-- A text with an oversized integer holds the digits of one. -/
theorem isLongRun_of_oversized {depth : Nat} {o : Oversized}
    (h : read depth t = .error (.oversized o)) :
    ∃ run, IsLongRun run t ∧ o = .read run.length := by
  unfold read at h
  split at h
  · cases h
  · cases h
  · cases h
  · next o' hstop =>
    obtain rfl : o' = o := Fault.oversized.inj (Except.error.inj h)
    exact document_eq_error hstop

/-! ### A line that stops the reader -/

/-- A text whose first value is not read is not read. -/
theorem document_eq_of_value {depth : Nat} {c : CodePoint} {stop : Stop}
    (hmark : c ≠ .ofNat 0xFEFF) (hspace : isSpace c = false)
    (h : value depth (c :: t) = .error stop) : document depth (c :: t) = .error stop := by
  have hhead : (c :: t).head? ≠ some (.ofNat 0xFEFF) := fun hhead => hmark (Option.some.inj hhead)
  rw [document, if_neg hhead, skipSpace_cons hspace, h]

theorem number_of_long {c : Char} {s : List Char} (hc : c.isDigit = true) (hzero : c ≠ '0')
    (hs : ∀ d ∈ s, d.isDigit = true) (hlong : digitLimit < (c :: s).length) {rest : Text}
    (h : Behind rest) :
    number ((c :: s).map .scalar ++ rest) = .error (.oversized (.read (c :: s).length)) := by
  have hspan := Text.spanDigits_append (List.forall_mem_cons.mpr ⟨hc, hs⟩) h.pastDigits
  simp only [List.map_cons, List.cons_append] at hspan ⊢
  have hminus : takeMinus (.scalar c :: (s.map .scalar ++ rest)) =
      (false, .scalar c :: (s.map .scalar ++ rest)) := by
    unfold takeMinus
    split
    · next heq =>
      obtain rfl := CodePoint.scalar.inj (List.cons.inj heq).1
      exact absurd hc (by decide)
    · rfl
  have hwhole : takeWhole (.scalar c :: (s.map .scalar ++ rest)) =
      (Natural.value c :: s.map Natural.value, rest) := by
    rw [takeWhole, CodePoint.digit?_of_isDigit hc]
    split
    · next heq => cases heq
    · next heq => exact absurd (Natural.eq_zero_of_value hc (Option.some.inj heq)) hzero
    · exact hspan
  have hlong : digitLimit < (Natural.value c :: s.map Natural.value).length := by simpa using hlong
  simp only [number, hminus, hwhole, takeFraction_of_behind h, takeExponent_of_behind h, numberOf,
    List.isEmpty_nil, Option.isNone_none, Bool.and_self, ↓reduceIte, hlong]
  simp [Except.map]

/-- A line that holds the digits of an integer, too many of them and nothing else, is not read. -/
theorem read_of_long (depth : Nat) {c : Char} {s : List Char} (hc : c.isDigit = true)
    (hzero : c ≠ '0') (hs : ∀ d ∈ s, d.isDigit = true) (hlong : digitLimit < (c :: s).length) :
    read depth ((c :: s).map .scalar ++ ("\n" : Text)) =
      .error (.oversized (.read (c :: s).length)) := by
  have hbehind : Behind ("\n" : Text) := behind_cons (by decide)
  have hnumber := number_of_long hc hzero hs hlong hbehind
  have hne : ∀ d : Char, d.isDigit = false → CodePoint.scalar c ≠ .scalar d := by
    rintro d hd ⟨⟩
    exact absurd hc (by simp [hd])
  simp only [List.map_cons, List.cons_append] at hnumber ⊢
  generalize s.map CodePoint.scalar ++ ("\n" : Text) = rest at hnumber ⊢
  have hspace : isSpace (.scalar c) = false := by
    simp [isSpace, hne]
  have hscalar : scalar (.scalar c :: rest) = number (.scalar c :: rest) := by
    unfold scalar
    rw [findSome?_words fun w hw => (isPrefixOf_digit hw hc _).1]
    dsimp only
    split
    · next heq => exact absurd (List.cons.inj heq).1 (hne '"' (by decide))
    · rfl
  have hvalue := value_scalar (r := rest) (hne '[' (by decide)) (hne '\x7b' (by decide)) depth
  rw [hscalar, hnumber] at hvalue
  rw [read, document_eq_of_value (hne _ (by decide)) hspace hvalue]

end Json

end ParserClient
