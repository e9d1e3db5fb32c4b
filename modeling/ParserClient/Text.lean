/-!
# Text

A *text* is a list of code points. A code point is a character or one half of a surrogate pair
that stands alone: content, tags and replies reach a client as code points, and a lone half can
be read, compared and shown although no encoding of the wire can carry it.

## Main definitions

* `CodePoint`, `Text`, `Text.ofString`.
* `Text.Scalar` — the text holds characters only.
-/

namespace ParserClient

/-- A code point: a character, or half of a surrogate pair standing alone. -/
inductive CodePoint where
  | scalar (c : Char)
  | lone (half : Fin 0x800)
  deriving DecidableEq, Repr, Inhabited

/-- A sequence of code points. -/
abbrev Text := List CodePoint

/-- A sequence of bytes. -/
abbrev Bytes := List UInt8

namespace CodePoint

/-- The number of a code point; the lone halves are numbered from `D800` on. -/
def toNat : CodePoint → Nat
  | .scalar c => c.toNat
  | .lone h => 0xD800 + h.val

/-- The code point with the given number. A number past the last code point gives the null
character. -/
def ofNat (n : Nat) : CodePoint :=
  if h : 0xD800 ≤ n ∧ n < 0xE000 then .lone ⟨n - 0xD800, by omega⟩ else .scalar (Char.ofNat n)

/-- The code point is a character. -/
def isScalar : CodePoint → Bool
  | .scalar _ => true
  | .lone _ => false

/-- The first half of a surrogate pair. -/
def isLeading : CodePoint → Bool
  | .scalar _ => false
  | .lone h => h.val < 0x400

/-- The second half of a surrogate pair. -/
def isTrailing : CodePoint → Bool
  | .scalar _ => false
  | .lone h => 0x400 ≤ h.val

/-- The character that a leading and a trailing half stand for together. -/
def join (leading trailing : CodePoint) : CodePoint :=
  .scalar (Char.ofNat (0x10000 + (leading.toNat - 0xD800) * 0x400 + (trailing.toNat - 0xDC00)))

end CodePoint

namespace Text

/-- The characters of a string. -/
def ofString (s : String) : Text := s.toList.map .scalar

instance : Coe String Text := ⟨ofString⟩

/-- The text holds no lone half of a surrogate pair. -/
def Scalar (t : Text) : Prop := ∀ c ∈ t, c.isScalar = true

instance (t : Text) : Decidable t.Scalar := inferInstanceAs (Decidable (∀ c ∈ t, _))

/-- The string of the same characters, if there is no lone half among them. -/
def toString? (t : Text) : Option String :=
  (t.mapM fun c : CodePoint => match c with
    | .scalar c => some c
    | .lone _ => none).map String.ofList

/-- Joins texts with a separator between them. -/
def intercalate (separator : Text) (parts : List Text) : Text :=
  (parts.intersperse separator).flatten

/-- A code point of joined texts is one of the separator or of one of them. -/
theorem mem_intercalate {separator : Text} {parts : List Text} {c : CodePoint}
    (h : c ∈ intercalate separator parts) : c ∈ separator ∨ ∃ p ∈ parts, c ∈ p := by
  unfold intercalate at h
  induction parts with
  | nil => cases h
  | cons p parts ih =>
    cases parts with
    | nil => exact .inr ⟨p, List.mem_cons_self, by simpa using h⟩
    | cons q parts =>
      simp only [List.intersperse, List.flatten_cons, List.mem_append] at h ih
      rcases h with hp | hseparator | hrest
      · exact .inr ⟨p, List.mem_cons_self, hp⟩
      · exact .inl hseparator
      · exact (ih hrest).imp_right fun ⟨r, hr, hc⟩ => ⟨r, List.mem_cons_of_mem p hr, hc⟩

@[simp]
theorem scalar_nil : Scalar [] := by simp [Scalar]

@[simp]
theorem scalar_cons {c : CodePoint} {t : Text} :
    Scalar (c :: t) ↔ c.isScalar = true ∧ t.Scalar := by
  simp [Scalar]

theorem scalar_ofString (s : String) : (ofString s).Scalar := by
  intro c hc
  obtain ⟨d, -, rfl⟩ := List.mem_map.mp hc
  rfl

theorem Scalar.append {s t : Text} (hs : s.Scalar) (ht : t.Scalar) : Scalar (s ++ t) := by
  intro c hc
  rcases List.mem_append.mp hc with h | h
  · exact hs c h
  · exact ht c h

end Text

end ParserClient
