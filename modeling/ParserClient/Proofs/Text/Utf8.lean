import ParserClient.Text.Utf8

/-!
# UTF-8 is read as it is written

The bytes of a character are cut into that character, whatever stands behind them: the lead byte
says how many bytes follow, the bytes that follow carry six bits each, and the restrictions on the
second byte rule nothing out that is written. So a text that has bytes is read back from them, and
the texts that have bytes are those without lone halves. Conversely the restrictions let nothing in
that is not written, so what is read are the bytes of a text. A byte below `80` stands in the bytes
of one character only, that of its own number; lines can therefore be told apart before they are
decoded.

## Main results

* `Utf8.segments_append` — the bytes of a character are one segment.
* `Utf8.encode_eq_ok_iff` — the texts that have bytes, and their bytes.
* `Utf8.exists_of_segments_cons` — a segment that is a character is cut from its bytes.
* `Utf8.decode_eq_ok_iff` — a byte string is read as the text that it is the bytes of.
* `Utf8.exists_of_decode_append` — a text is cut between characters or not read up to the cut.
* `Utf8.mem_utf8EncodeChar_iff` — where a byte below `80` comes from.
-/

namespace ParserClient

/-- A text without lone halves is a list of characters. -/
theorem Text.scalar_iff {t : Text} : t.Scalar ↔ ∃ s : List Char, t = s.map .scalar := by
  constructor
  · intro h
    induction t with
    | nil => exact ⟨[], rfl⟩
    | cons c t ih =>
      obtain ⟨s, rfl⟩ := ih fun d hd => h d (List.mem_cons_of_mem c hd)
      have hc := h c List.mem_cons_self
      cases c with
      | scalar c => exact ⟨c :: s, rfl⟩
      | lone half => cases hc
  · rintro ⟨s, rfl⟩ c hc
    obtain ⟨d, -, rfl⟩ := List.mem_map.mp hc
    rfl

theorem Text.ofString_inj {s s' : String} : ofString s = ofString s' ↔ s = s' := by
  rw [ofString, ofString, List.map_inj_right fun _ _ => CodePoint.scalar.inj, String.toList_inj]

/-- A text without lone halves is the text of a string. -/
theorem Text.scalar_iff_ofString {t : Text} : t.Scalar ↔ ∃ s : String, t = ofString s := by
  refine ⟨fun h => ?_, ?_⟩
  · obtain ⟨s, rfl⟩ := Text.scalar_iff.mp h
    exact ⟨String.ofList s, by rw [ofString, String.toList_ofList]⟩
  · rintro ⟨s, rfl⟩
    exact scalar_ofString s

namespace Utf8

/-! ### The cut of a character -/

section Segments

variable {a b c d : UInt8} {t : Bytes}

theorem segments_one (h : a.toNat < 0x80) :
    segments (a :: t) = .char (Char.ofNat a.toNat) :: segments t := by
  have ha : a < 0x80 := UInt8.lt_iff_toNat_lt.mpr h
  rw [segments.eq_def]
  simp only [ha, ↓reduceIte]

theorem segments_two (h₁ : 0xC2 ≤ a.toNat) (h₂ : a.toNat < 0xE0) (hb : isContinuation b = true) :
    segments (a :: b :: t) =
      .char (Char.ofNat ((a.toNat - 0xC0) * 0x40 + payload b)) :: segments t := by
  rw [segments.eq_def]
  simp only [UInt8.lt_iff_toNat_lt, UInt8.reduceToNat, hb, ↓reduceIte]
  rw [if_neg (by omega), if_neg (by omega), if_pos h₂]

theorem segments_three (h₁ : 0xE0 ≤ a.toNat) (h₂ : a.toNat < 0xF0) (hb : isSecond a b = true)
    (hc : isContinuation c = true) :
    segments (a :: b :: c :: t) =
      .char (Char.ofNat ((a.toNat - 0xE0) * 0x1000 + payload b * 0x40 + payload c))
        :: segments t := by
  rw [segments.eq_def]
  simp only [UInt8.lt_iff_toNat_lt, UInt8.reduceToNat, hb, hc, Bool.not_true, Bool.false_eq_true,
    ↓reduceIte]
  rw [if_neg (by omega), if_neg (by omega), if_neg (by omega), if_pos h₂]

theorem segments_four (h₁ : 0xF0 ≤ a.toNat) (h₂ : a.toNat < 0xF5) (hb : isSecond a b = true)
    (hc : isContinuation c = true) (hd : isContinuation d = true) :
    segments (a :: b :: c :: d :: t) =
      .char (Char.ofNat ((a.toNat - 0xF0) * 0x40000 + payload b * 0x1000 + payload c * 0x40
        + payload d)) :: segments t := by
  rw [segments.eq_def]
  simp only [UInt8.lt_iff_toNat_lt, UInt8.reduceToNat, hb, hc, hd, Bool.not_true,
    Bool.false_eq_true, ↓reduceIte]
  rw [if_neg (by omega), if_neg (by omega), if_neg (by omega), if_neg (by omega), if_pos h₂]

end Segments

theorem toNat_byte {n : Nat} (h : n < 256) : (UInt8.ofNat n).toNat = n := by
  rw [UInt8.toNat_ofNat']
  exact Nat.mod_eq_of_lt h

theorem ofNat_of_eq {n : Nat} {a : UInt8} (h : n = a.toNat) : UInt8.ofNat n = a := by
  rw [h, UInt8.ofNat_toNat]

section Writing

variable {n : Nat}

theorem isContinuation_byte (h : n < 64) : isContinuation (UInt8.ofNat (n + 0x80)) = true := by
  simp only [isContinuation, Bool.and_eq_true, decide_eq_true_eq, UInt8.le_iff_toNat_le,
    UInt8.lt_iff_toNat_lt, UInt8.reduceToNat, toNat_byte (show n + 0x80 < 256 by omega)]
  omega

theorem payload_byte (h : n < 64) : payload (UInt8.ofNat (n + 0x80)) = n := by
  rw [payload, toNat_byte (by omega)]
  omega

/-- The second byte of a character of three bytes, which is no surrogate. -/
theorem isSecond_of_three (h₁ : 0x800 ≤ n) (h₂ : n < 0x10000) (hs : n < 0xD800 ∨ 0xDFFF < n) :
    isSecond (UInt8.ofNat (n / 4096 % 16 + 0xE0)) (UInt8.ofNat (n / 64 % 64 + 0x80)) = true := by
  have hcontinuation := isContinuation_byte (n := n / 64 % 64) (by omega)
  have hlead := toNat_byte (n := n / 4096 % 16 + 0xE0) (by omega)
  have hsecond := toNat_byte (n := n / 64 % 64 + 0x80) (by omega)
  simp only [isSecond, hcontinuation, Bool.true_and, ← UInt8.toNat_inj, UInt8.reduceToNat,
    UInt8.le_iff_toNat_le, UInt8.lt_iff_toNat_lt, hlead, hsecond]
  grind

/-- The second byte of a character of four bytes, which is no number past the last code point. -/
theorem isSecond_of_four (h₁ : 0x10000 ≤ n) (h₂ : n < 0x110000) :
    isSecond (UInt8.ofNat (n / 262144 % 8 + 0xF0)) (UInt8.ofNat (n / 4096 % 64 + 0x80)) = true := by
  have hcontinuation := isContinuation_byte (n := n / 4096 % 64) (by omega)
  have hlead := toNat_byte (n := n / 262144 % 8 + 0xF0) (by omega)
  have hsecond := toNat_byte (n := n / 4096 % 64 + 0x80) (by omega)
  simp only [isSecond, hcontinuation, Bool.true_and, ← UInt8.toNat_inj, UInt8.reduceToNat,
    UInt8.le_iff_toNat_le, UInt8.lt_iff_toNat_lt, hlead, hsecond]
  grind

end Writing

/-- The bytes of a character are cut into that character. -/
theorem segments_append (c : Char) (t : Bytes) :
    segments (String.utf8EncodeChar c ++ t) = .char c :: segments t := by
  have hvalid : c.toNat < 0xD800 ∨ 0xDFFF < c.toNat ∧ c.toNat < 0x110000 := c.valid
  have hc : Char.ofNat c.toNat = c := Char.ofNat_toNat c
  have hval : c.val.toNat = c.toNat := rfl
  unfold String.utf8EncodeChar
  simp only [hval]
  generalize c.toNat = n at hvalid hc
  -- one case for each number of bytes; the side goals are the bounds on the lead byte
  split
  · have hlead := toNat_byte (n := n) (by omega)
    rw [List.singleton_append, segments_one (by omega), hlead, hc]
  · split
    · have hlead := toNat_byte (n := n / 64 % 32 + 0xC0) (by omega)
      have hnumber : (n / 64 % 32 + 0xC0 - 0xC0) * 0x40 + n % 64 = n := by omega
      simp only [List.cons_append, List.nil_append]
      rw [segments_two (by omega) (by omega) (isContinuation_byte (by omega)), hlead,
        payload_byte (by omega), hnumber, hc]
    · split
      · have hlead := toNat_byte (n := n / 4096 % 16 + 0xE0) (by omega)
        have hnumber : (n / 4096 % 16 + 0xE0 - 0xE0) * 0x1000 + n / 64 % 64 * 0x40
            + n % 64 = n := by
          omega
        simp only [List.cons_append, List.nil_append]
        have hsecond := isSecond_of_three (n := n) (by omega) (by omega) (by omega)
        rw [segments_three (by omega) (by omega) hsecond (isContinuation_byte (by omega)), hlead,
          payload_byte (by omega), payload_byte (by omega), hnumber, hc]
      · have hlead := toNat_byte (n := n / 262144 % 8 + 0xF0) (by omega)
        have hnumber : (n / 262144 % 8 + 0xF0 - 0xF0) * 0x40000 + n / 4096 % 64 * 0x1000
            + n / 64 % 64 * 0x40 + n % 64 = n := by
          omega
        simp only [List.cons_append, List.nil_append]
        rw [segments_four (by omega) (by omega) (isSecond_of_four (by omega) (by omega))
          (isContinuation_byte (by omega)) (isContinuation_byte (by omega)), hlead,
          payload_byte (by omega), payload_byte (by omega), payload_byte (by omega), hnumber, hc]

/-! ### The bytes of a segment -/

section Bytes

variable {a b c d : UInt8} {t : Bytes}

theorem toNat_char {n : Nat} (h : n < 0xD800 ∨ 0xDFFF < n ∧ n < 0x110000) :
    (Char.ofNat n).val.toNat = n := by
  have hvalid : n.isValidChar := h
  rw [Char.ofNat, dif_pos hvalid]
  rfl

theorem utf8EncodeChar_one (h : a.toNat < 0x80) :
    String.utf8EncodeChar (Char.ofNat a.toNat) = [a] := by
  unfold String.utf8EncodeChar
  simp only [toNat_char (.inl (show a.toNat < 0xD800 by omega))]
  rw [if_pos (by omega)]
  exact congrArg (fun x => [x]) UInt8.ofNat_toNat

theorem payload_of_isContinuation (h : isContinuation b = true) : payload b + 0x80 = b.toNat := by
  simp only [isContinuation, Bool.and_eq_true, decide_eq_true_eq, UInt8.le_iff_toNat_le,
    UInt8.lt_iff_toNat_lt, UInt8.reduceToNat] at h
  unfold payload
  omega

theorem payload_lt (b : UInt8) : payload b < 0x40 := Nat.mod_lt _ (by decide)

theorem utf8EncodeChar_two (h₁ : 0xC2 ≤ a.toNat) (h₂ : a.toNat < 0xE0)
    (hb : isContinuation b = true) :
    String.utf8EncodeChar (Char.ofNat ((a.toNat - 0xC0) * 0x40 + payload b)) = [a, b] := by
  have hb' := payload_of_isContinuation hb
  have hlt := payload_lt b
  generalize payload b = x at hb' hlt
  generalize hn : (a.toNat - 0xC0) * 0x40 + x = n
  unfold String.utf8EncodeChar
  simp only [toNat_char (n := n) (.inl (by omega))]
  rw [if_neg (by omega), if_pos (by omega), ofNat_of_eq (a := a) (by omega),
    ofNat_of_eq (a := b) (by omega)]

theorem isContinuation_of_isSecond (h : isSecond a b = true) : isContinuation b = true := by
  rw [isSecond, Bool.and_eq_true] at h
  exact h.1

/-- Behind the first and the last of the lead bytes of their kinds, the second byte is bounded. -/
theorem bounds_of_isSecond (h : isSecond a b = true) :
    (a.toNat = 0xE0 → 0x20 ≤ payload b) ∧ (a.toNat = 0xED → payload b < 0x20) ∧
      (a.toNat = 0xF0 → 0x10 ≤ payload b) ∧ (a.toNat = 0xF4 → payload b < 0x10) := by
  have hb := payload_of_isContinuation (isContinuation_of_isSecond h)
  rw [isSecond, Bool.and_eq_true] at h
  have hrange := h.2
  simp only [← UInt8.toNat_inj, UInt8.reduceToNat, UInt8.le_iff_toNat_le,
    UInt8.lt_iff_toNat_lt] at hrange
  grind

theorem utf8EncodeChar_three (h₁ : 0xE0 ≤ a.toNat) (h₂ : a.toNat < 0xF0)
    (hb : isSecond a b = true) (hc : isContinuation c = true) :
    String.utf8EncodeChar
      (Char.ofNat ((a.toNat - 0xE0) * 0x1000 + payload b * 0x40 + payload c)) = [a, b, c] := by
  obtain ⟨hover, hsurrogate, -, -⟩ := bounds_of_isSecond hb
  have hb' := payload_of_isContinuation (isContinuation_of_isSecond hb)
  have hc' := payload_of_isContinuation hc
  have hxlt := payload_lt b
  have hylt := payload_lt c
  generalize payload b = x at *
  generalize payload c = y at *
  generalize hn : (a.toNat - 0xE0) * 0x1000 + x * 0x40 + y = n
  unfold String.utf8EncodeChar
  simp only [toNat_char (n := n) (by omega)]
  rw [if_neg (by omega), if_neg (by omega), if_pos (by omega), ofNat_of_eq (a := a) (by omega),
    ofNat_of_eq (a := b) (by omega), ofNat_of_eq (a := c) (by omega)]

theorem utf8EncodeChar_four (h₁ : 0xF0 ≤ a.toNat) (h₂ : a.toNat < 0xF5)
    (hb : isSecond a b = true) (hc : isContinuation c = true) (hd : isContinuation d = true) :
    String.utf8EncodeChar
      (Char.ofNat ((a.toNat - 0xF0) * 0x40000 + payload b * 0x1000 + payload c * 0x40
        + payload d)) = [a, b, c, d] := by
  obtain ⟨-, -, hover, hlast⟩ := bounds_of_isSecond hb
  have hb' := payload_of_isContinuation (isContinuation_of_isSecond hb)
  have hc' := payload_of_isContinuation hc
  have hd' := payload_of_isContinuation hd
  have hxlt := payload_lt b
  have hylt := payload_lt c
  have hzlt := payload_lt d
  generalize payload b = x at *
  generalize payload c = y at *
  generalize payload d = z at *
  generalize hn : (a.toNat - 0xF0) * 0x40000 + x * 0x1000 + y * 0x40 + z = n
  unfold String.utf8EncodeChar
  simp only [toNat_char (n := n) (by omega)]
  rw [if_neg (by omega), if_neg (by omega), if_neg (by omega), ofNat_of_eq (a := a) (by omega),
    ofNat_of_eq (a := b) (by omega), ofNat_of_eq (a := c) (by omega),
    ofNat_of_eq (a := d) (by omega)]

/-- A cut that begins with a character is that of the bytes of the character and what is behind. -/
theorem exists_of_segments_cons {bytes : Bytes} {ch : Char} {rest : List Segment}
    (h : segments bytes = .char ch :: rest) :
    ∃ t, bytes = String.utf8EncodeChar ch ++ t ∧ segments t = rest := by
  fun_cases segments bytes with
  | case2 a t ha =>
    rw [UInt8.lt_iff_toNat_lt] at ha
    rw [segments_one ha, List.cons.injEq, Segment.char.injEq] at h
    exact ⟨t, by rw [← h.1, utf8EncodeChar_one ha]; rfl, h.2⟩
  | case5 a _ h₁ h₂ b t hb =>
    rw [UInt8.lt_iff_toNat_lt] at h₁ h₂
    rw [segments_two (Nat.le_of_not_lt h₁) h₂ hb, List.cons.injEq, Segment.char.injEq] at h
    exact ⟨t, by rw [← h.1, utf8EncodeChar_two (Nat.le_of_not_lt h₁) h₂ hb]; rfl, h.2⟩
  | case10 a _ _ h₁ h₂ b hb c t hc =>
    rw [UInt8.lt_iff_toNat_lt] at h₁ h₂
    rw [Bool.not_eq_true, Bool.not_eq_false'] at hb
    rw [segments_three (Nat.le_of_not_lt h₁) h₂ hb hc, List.cons.injEq, Segment.char.injEq] at h
    exact ⟨t, by rw [← h.1, utf8EncodeChar_three (Nat.le_of_not_lt h₁) h₂ hb hc]; rfl, h.2⟩
  | case17 a _ _ _ h₁ h₂ b hb c hc d t hd =>
    rw [UInt8.lt_iff_toNat_lt] at h₁ h₂
    rw [Bool.not_eq_true, Bool.not_eq_false'] at hb hc
    rw [segments_four (Nat.le_of_not_lt h₁) h₂ hb hc hd, List.cons.injEq, Segment.char.injEq] at h
    exact ⟨t, by rw [← h.1, utf8EncodeChar_four (Nat.le_of_not_lt h₁) h₂ hb hc hd]; rfl, h.2⟩
  | _ =>
    -- every other cut is empty, or begins with a broken run
    rw [segments.eq_def] at h
    simp only [*, ↓reduceIte, reduceCtorEq, List.cons.injEq, false_and, Bool.false_eq_true] at h

theorem segments_ne_nil (a : UInt8) (t : Bytes) : segments (a :: t) ≠ [] := by
  intro h
  rw [segments.eq_def] at h
  repeat' split at h
  all_goals simp_all only [reduceCtorEq]

theorem eq_of_segments {bytes : Bytes} {s : List Char} (h : segments bytes = s.map .char) :
    bytes = s.flatMap String.utf8EncodeChar := by
  induction s generalizing bytes with
  | nil =>
    cases bytes with
    | nil => rfl
    | cons a t => exact absurd h (segments_ne_nil a t)
  | cons c s ih =>
    obtain ⟨t, rfl, ht⟩ := exists_of_segments_cons h
    rw [List.flatMap_cons, ih ht]

end Bytes

/-! ### Texts and their bytes -/

section Texts

variable {t : Text} {bytes : Bytes}

theorem encodeFrom_map_scalar (position : Nat) (s : List Char) :
    encodeFrom position (s.map .scalar) = .ok (s.flatMap String.utf8EncodeChar) := by
  induction s generalizing position with
  | nil => rfl
  | cons c s ih =>
    rw [List.map_cons, encodeFrom, ih]
    rfl

theorem segments_flatMap_append (s : List Char) (rest : Bytes) :
    segments (s.flatMap String.utf8EncodeChar ++ rest) = s.map .char ++ segments rest := by
  induction s with
  | nil => rfl
  | cons c s ih =>
    rw [List.flatMap_cons, List.append_assoc, segments_append, ih, List.map_cons,
      List.cons_append]

theorem segments_flatMap (s : List Char) :
    segments (s.flatMap String.utf8EncodeChar) = s.map .char := by
  have h := segments_flatMap_append s []
  rwa [List.append_nil, segments, List.append_nil] at h

theorem charactersFrom_map_char (position : Nat) (s : List Char) :
    charactersFrom position (s.map .char) = .ok (s.map .scalar) := by
  induction s generalizing position with
  | nil => rfl
  | cons c s ih =>
    rw [List.map_cons, charactersFrom, ih]
    rfl

theorem scalar_of_encodeFrom {position : Nat} (h : encodeFrom position t = .ok bytes) :
    t.Scalar := by
  induction t generalizing position bytes with
  | nil => simp [Text.Scalar]
  | cons c t ih =>
    cases c with
    | lone half => cases h
    | scalar c =>
      cases hrest : encodeFrom (position + 1) t with
      | error f =>
        rw [encodeFrom, hrest] at h
        cases h
      | ok rest =>
        intro d hd
        rcases List.mem_cons.mp hd with rfl | hd
        · rfl
        · exact ih hrest d hd

/-- The texts that have bytes are those without lone halves. -/
theorem encode_eq_ok_iff :
    encode t = .ok bytes ↔
      ∃ s : List Char, t = s.map .scalar ∧ bytes = s.flatMap String.utf8EncodeChar := by
  constructor
  · intro h
    obtain ⟨s, rfl⟩ := Text.scalar_iff.mp (scalar_of_encodeFrom h)
    rw [encode, encodeFrom_map_scalar] at h
    exact ⟨s, rfl, (Except.ok.inj h).symm⟩
  · rintro ⟨s, rfl, rfl⟩
    exact encodeFrom_map_scalar 0 s

theorem encode_of_scalar (h : t.Scalar) : ∃ bytes, encode t = .ok bytes := by
  obtain ⟨s, rfl⟩ := Text.scalar_iff.mp h
  exact ⟨_, encodeFrom_map_scalar 0 s⟩

/-- A text is read back from its bytes. -/
theorem decode_of_encode (h : encode t = .ok bytes) : decode bytes = .ok t := by
  obtain ⟨s, rfl, rfl⟩ := encode_eq_ok_iff.mp h
  rw [decode, segments_flatMap, charactersFrom_map_char]

theorem exists_of_charactersFrom {position : Nat} {segs : List Segment}
    (h : charactersFrom position segs = .ok t) :
    ∃ s : List Char, segs = s.map .char ∧ t = s.map .scalar := by
  induction segs generalizing position t with
  | nil => exact ⟨[], rfl, (Except.ok.inj h).symm⟩
  | cons seg segs ih =>
    cases seg with
    | broken => cases h
    | char c =>
      rw [charactersFrom] at h
      cases hrest : charactersFrom (position + c.utf8Size) segs with
      | error f =>
        rw [hrest] at h
        cases h
      | ok rest =>
        rw [hrest] at h
        obtain ⟨s, rfl, rfl⟩ := ih hrest
        exact ⟨c :: s, rfl, (Except.ok.inj h).symm⟩

/-- The byte strings that are read are the bytes of the texts that they are read as. -/
theorem decode_eq_ok_iff : decode bytes = .ok t ↔ encode t = .ok bytes := by
  refine ⟨fun h => ?_, decode_of_encode⟩
  obtain ⟨s, hs, rfl⟩ := exists_of_charactersFrom h
  exact encode_eq_ok_iff.mpr ⟨s, rfl, eq_of_segments hs⟩

/-- If the front of a byte string is read, so is what stands behind it. -/
theorem exists_of_decode_append {front rest : Bytes} {s : Text}
    (h : decode (front ++ rest) = .ok t) (hfront : decode front = .ok s) :
    ∃ u, t = s ++ u ∧ decode rest = .ok u := by
  obtain ⟨all, rfl, hall⟩ := encode_eq_ok_iff.mp (decode_eq_ok_iff.mp h)
  obtain ⟨start, rfl, rfl⟩ := encode_eq_ok_iff.mp (decode_eq_ok_iff.mp hfront)
  have hcut := segments_flatMap all
  rw [← hall, segments_flatMap_append] at hcut
  obtain ⟨start', behind, rfl, hstart, hbehind⟩ := List.map_eq_append_iff.mp hcut.symm
  obtain rfl := (List.map_inj_right fun _ _ => Segment.char.inj).mp hstart
  refine ⟨behind.map .scalar, List.map_append, decode_eq_ok_iff.mpr ?_⟩
  exact encode_eq_ok_iff.mpr ⟨behind, rfl, eq_of_segments hbehind.symm⟩

/-- The bytes of the characters of a string are those of the string. -/
theorem encode_ofString (s : String) : encode (.ofString s) = .ok s.toUTF8.data.toList := by
  have hbytes : s.toUTF8.data.toList = s.toList.flatMap String.utf8EncodeChar := by
    rw [String.toUTF8_eq_toByteArray, ← String.utf8Encode_toList, List.utf8Encode,
      List.toList_data_toByteArray]
  rw [hbytes]
  exact encode_eq_ok_iff.mpr ⟨s.toList, rfl, rfl⟩

/-- A text without bytes holds a lone half. -/
theorem exists_encode_eq_error_iff : (∃ cause, encode t = .error cause) ↔ ¬ t.Scalar := by
  constructor
  · rintro ⟨cause, hcause⟩ hscalar
    obtain ⟨bytes, hbytes⟩ := encode_of_scalar hscalar
    rw [hbytes] at hcause
    cases hcause
  · intro hlone
    cases h : encode t with
    | ok bytes => exact absurd (scalar_of_encodeFrom h) hlone
    | error cause => exact ⟨cause, rfl⟩

end Texts

/-! ### Bytes below `80` -/

/-- A byte below `80` stands for the character of its own number, and for no part of another. -/
theorem mem_utf8EncodeChar_iff {b : UInt8} (hb : b.toNat < 0x80) (c : Char) :
    b ∈ String.utf8EncodeChar c ↔ c.toNat = b.toNat := by
  have hvalid : c.toNat < 0xD800 ∨ 0xDFFF < c.toNat ∧ c.toNat < 0x110000 := c.valid
  have hval : c.val.toNat = c.toNat := rfl
  unfold String.utf8EncodeChar
  simp only [hval]
  generalize c.toNat = n at hvalid
  split
  · rw [List.mem_singleton, ← UInt8.toNat_inj, toNat_byte (by omega)]
    exact eq_comm
  · split
    · simp only [List.mem_cons, List.not_mem_nil, or_false, ← UInt8.toNat_inj, UInt8.toNat_ofNat']
      omega
    · split
      · simp only [List.mem_cons, List.not_mem_nil, or_false, ← UInt8.toNat_inj,
          UInt8.toNat_ofNat']
        omega
      · simp only [List.mem_cons, List.not_mem_nil, or_false, ← UInt8.toNat_inj,
          UInt8.toNat_ofNat']
        omega

end Utf8

end ParserClient
