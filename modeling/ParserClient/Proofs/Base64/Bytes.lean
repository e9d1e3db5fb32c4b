import Mathlib.Algebra.Group.Nat.Defs
import ParserClient.Proofs.Base64.Reading

/-!
# The bytes of base 64

The data characters of a text carry six bits each. Their bits are those of the bytes that are read,
with up to four bits behind them that are not looked at. What is written for bytes is such a text,
with the padding that completes the last quad and with zeros for the bits that are not looked at. So
bytes are read back, and the data characters that are read and those that are written for what has
been read differ in the last one at most, and only if it is in a quad that is not complete.

## Main definitions

* `Base64.bits`, `Base64.bitsOf`, `Base64.StandsFor` — the bytes that data characters stand for.
* `Base64.Accepts` — a text that is read, and its bytes.
* `Base64.Shaped` — the form of what is written.
* `Base64.dataOf`, `Base64.Agrees` — how what is written again differs from what has been read.

## Main results

* `Base64.standsFor_bytesOf`, `Base64.StandsFor.unique` — data characters stand for the bytes that
  they are read as, and for no others.
* `Base64.decode_eq_ok_iff` — the texts that are read, and their bytes.
* `Base64.decode_encode` — a byte string is read back.
* `Base64.shaped_encode`, `Base64.Accepts.agrees_encode` — what is written for bytes, and what is
  written again for the bytes of a text.
-/

namespace ParserClient

namespace Base64

/-! ### Bits -/

/-- The lowest bits of a number, the highest of them first. -/
def bits : (width : Nat) → (n : Nat) → List Bool
  | 0, _ => []
  | width + 1, n => n.testBit width :: bits width n

@[simp]
theorem length_bits (width n : Nat) : (bits width n).length = width := by
  induction width with
  | zero => rfl
  | succ width ih => rw [bits, List.length_cons, ih]

theorem bits_congr {width m n : Nat} (h : ∀ i < width, m.testBit i = n.testBit i) :
    bits width m = bits width n := by
  induction width with
  | zero => rfl
  | succ width ih =>
    rw [bits, bits, h width (Nat.lt_succ_self _), ih fun i hi => h i (Nat.lt_succ_of_lt hi)]

theorem testBit_of_bits {width m n : Nat} (h : bits width m = bits width n) :
    ∀ i < width, m.testBit i = n.testBit i := by
  induction width with
  | zero => exact nofun
  | succ width ih =>
    obtain ⟨hfirst, hrest⟩ := List.cons.inj h
    intro i hi
    rcases Nat.lt_succ_iff_lt_or_eq.mp hi with hi | rfl
    · exact ih hrest i hi
    · exact hfirst

/-- The bits of a number that is put together from two are those of the one and of the other. -/
theorem bits_mul_add {width size low : Nat} (hsize : size = 2 ^ width) (more high : Nat)
    (h : low < size) :
    bits (more + width) (high * size + low) = bits more high ++ bits width low := by
  subst hsize
  rw [Nat.mul_comm]
  induction more with
  | zero =>
    rw [Nat.zero_add]
    refine bits_congr fun i hi => ?_
    rw [Nat.testBit_two_pow_mul_add _ h, if_pos hi]
  | succ more ih =>
    rw [Nat.succ_add, bits, bits, ih, Nat.testBit_two_pow_mul_add _ h, if_neg (by omega),
      Nat.add_sub_cancel]
    rfl

theorem byte_of_bits {a b : UInt8} (h : bits 8 a.toNat = bits 8 b.toNat) : a = b := by
  refine UInt8.toNat_inj.mp (Nat.eq_of_testBit_eq fun i => ?_)
  rcases Nat.lt_or_ge i 8 with hi | hi
  · exact testBit_of_bits h i hi
  · have hle : 2 ^ 8 ≤ 2 ^ i := Nat.pow_le_pow_right (by decide) hi
    rw [Nat.testBit_lt_two_pow (Nat.lt_of_lt_of_le a.toNat_lt hle),
      Nat.testBit_lt_two_pow (Nat.lt_of_lt_of_le b.toNat_lt hle)]

/-- The bits of bytes, one after the other. -/
def bitsOf (bytes : Bytes) : List Bool := bytes.flatMap fun b => bits 8 b.toNat

/-- The six bits of each data character, one after the other, are the bits of the bytes, with fewer
than six behind them that stand for nothing. -/
def StandsFor (l : List Nat) (bytes : Bytes) : Prop :=
  ∃ spare : List Bool, spare.length < 6 ∧ l.flatMap (bits 6) = bitsOf bytes ++ spare

theorem bitsOf_cons (b : UInt8) (bytes : Bytes) :
    bitsOf (b :: bytes) = bits 8 b.toNat ++ bitsOf bytes := List.flatMap_cons

theorem le_length_bitsOf_cons (b : UInt8) (bytes : Bytes) (spare : List Bool) :
    8 ≤ (bitsOf (b :: bytes) ++ spare).length := by
  rw [bitsOf_cons, List.append_assoc, List.length_append, length_bits]
  exact Nat.le_add_right 8 _

/-- Bits that fill no byte aside, bytes are told apart by their bits. -/
theorem eq_of_bitsOf {bytes bytes' : Bytes} {spare spare' : List Bool} (hspare : spare.length < 8)
    (hspare' : spare'.length < 8) (h : bitsOf bytes ++ spare = bitsOf bytes' ++ spare') :
    bytes = bytes' := by
  induction bytes generalizing bytes' with
  | nil =>
    cases bytes' with
    | nil => rfl
    | cons b bytes' =>
      have hle := le_length_bitsOf_cons b bytes' spare'
      rw [← h] at hle
      exact absurd hle (Nat.not_le_of_lt hspare)
  | cons b bytes ih =>
    cases bytes' with
    | nil =>
      have hle := le_length_bitsOf_cons b bytes spare
      rw [h] at hle
      exact absurd hle (Nat.not_le_of_lt hspare')
    | cons b' bytes' =>
      rw [bitsOf_cons, bitsOf_cons, List.append_assoc, List.append_assoc] at h
      obtain ⟨hfirst, hrest⟩ := List.append_inj h (by rw [length_bits, length_bits])
      rw [byte_of_bits hfirst, ih hrest]

theorem StandsFor.unique {l : List Nat} {bytes bytes' : Bytes} (h : StandsFor l bytes)
    (h' : StandsFor l bytes') : bytes = bytes' := by
  obtain ⟨spare, hspare, hbits⟩ := h
  obtain ⟨spare', hspare', hbits'⟩ := h'
  exact eq_of_bitsOf (by omega) (by omega) (hbits.symm.trans hbits')

theorem bits_byte {n : Nat} (h : n < 256) : bits 8 (UInt8.ofNat n).toNat = bits 8 n := by
  rw [Utf8.toNat_byte h]

/-- Data characters that neither begin with a quad nor are one that is begun, and that are not one
alone, are none at all. -/
theorem eq_nil_of_no_quad {l : List Nat}
    (hfour : ∀ a b c d rest, l = a :: b :: c :: d :: rest → False)
    (hthree : ∀ a b c, l = [a, b, c] → False) (htwo : ∀ a b, l = [a, b] → False)
    (h : l.length % 4 ≠ 1) : l = [] := by
  match l with
  | [] => rfl
  | [_] => exact absurd rfl h
  | [a, b] => exact (htwo a b rfl).elim
  | [a, b, c] => exact (hthree a b c rfl).elim
  | a :: b :: c :: d :: rest => exact (hfour a b c d rest rfl).elim

/-- Data characters stand for the bytes that are read, unless one of them stands alone in its
quad. -/
theorem standsFor_bytesOf {l : List Nat} (hl : ∀ n ∈ l, n < 64) (h : l.length % 4 ≠ 1) :
    StandsFor l (bytesOf l) := by
  have h4 : 4 = 2 ^ 2 := rfl
  have h16 : 16 = 2 ^ 4 := rfl
  have h64 : 64 = 2 ^ 6 := rfl
  have h256 : 256 = 2 ^ 8 := rfl
  induction l using bytesOf.induct with
  | case1 a b c d rest ih =>
    obtain ⟨ha, hb, hc, hd, hrest⟩ : a < 64 ∧ b < 64 ∧ c < 64 ∧ d < 64 ∧ ∀ n ∈ rest, n < 64 := by
      simpa using hl
    simp only [List.length_cons, Nat.add_assoc, Nat.add_mod_right] at h
    obtain ⟨spare, hspare, hbits⟩ := ih hrest h
    refine ⟨spare, hspare, ?_⟩
    have hsix : bits 24 (((a * 64 + b) * 64 + c) * 64 + d) =
        bits 6 a ++ bits 6 b ++ bits 6 c ++ bits 6 d := by
      rw [bits_mul_add h64 18 _ hd, bits_mul_add h64 12 _ hc, bits_mul_add h64 6 _ hb]
    generalize hn : ((a * 64 + b) * 64 + c) * 64 + d = n at hsix
    have height : bits 24 n =
        bits 8 (n / 65536) ++ bits 8 (n / 256 % 256) ++ bits 8 (n % 256) := by
      have hparts : n = (n / 65536 * 256 + n / 256 % 256) * 256 + n % 256 := by omega
      rw [← bits_mul_add h256 8 _ (Nat.mod_lt _ (by decide)),
        ← bits_mul_add h256 16 _ (Nat.mod_lt _ (by decide)), ← hparts]
    simp only [bytesOf, hn, bitsOf_cons, bits_byte (show n / 65536 < 256 by omega),
      bits_byte (show n / 256 % 256 < 256 by omega), bits_byte (show n % 256 < 256 by omega),
      List.flatMap_cons, hbits]
    rw [← List.append_assoc, ← List.append_assoc, ← List.append_assoc, ← hsix, height]
    simp only [List.append_assoc]
  | case2 a b c =>
    obtain ⟨ha, hb, hc⟩ : a < 64 ∧ b < 64 ∧ c < 64 := by simpa using hl
    have hsix : bits 18 ((a * 64 + b) * 64 + c) = bits 6 a ++ bits 6 b ++ bits 6 c := by
      rw [bits_mul_add h64 12 _ hc, bits_mul_add h64 6 _ hb]
    generalize hn : (a * 64 + b) * 64 + c = n at hsix
    have height : bits 18 n = bits 8 (n / 4 / 256) ++ bits 8 (n / 4 % 256) ++ bits 2 (n % 4) := by
      have hparts : n = (n / 4 / 256 * 256 + n / 4 % 256) * 4 + n % 4 := by omega
      rw [← bits_mul_add h256 8 _ (Nat.mod_lt _ (by decide)),
        ← bits_mul_add h4 16 _ (Nat.mod_lt _ (by decide)), ← hparts]
    refine ⟨bits 2 (n % 4), by simp, ?_⟩
    simp only [bytesOf, hn, bitsOf_cons, bits_byte (show n / 4 / 256 < 256 by omega),
      bits_byte (show n / 4 % 256 < 256 by omega), List.flatMap_cons, List.flatMap_nil]
    rw [← List.append_assoc, ← List.append_assoc, ← hsix, height]
    simp [bitsOf]
  | case3 a b =>
    obtain ⟨ha, hb⟩ : a < 64 ∧ b < 64 := by simpa using hl
    have hsix : bits 12 (a * 64 + b) = bits 6 a ++ bits 6 b := bits_mul_add h64 6 a hb
    generalize hn : a * 64 + b = n at hsix
    have height : bits 12 n = bits 8 (n / 16) ++ bits 4 (n % 16) := by
      have hparts : n = n / 16 * 16 + n % 16 := by omega
      rw [← bits_mul_add h16 8 _ (Nat.mod_lt _ (by decide)), ← hparts]
    refine ⟨bits 4 (n % 16), by simp, ?_⟩
    simp only [bytesOf, hn, bitsOf_cons, bits_byte (show n / 16 < 256 by omega), List.flatMap_cons,
      List.flatMap_nil]
    rw [← List.append_assoc, ← hsix, height]
    simp [bitsOf]
  | case4 l h₁ h₂ h₃ =>
    obtain rfl := eq_nil_of_no_quad h₁ h₂ h₃ h
    exact ⟨[], by decide, rfl⟩

/-! ### What is written -/

/-- The data characters that are written for bytes, and the padding behind them. -/
theorem exists_encode (bytes : Bytes) :
    ∃ l : List Nat, (∀ n ∈ l, n < 64) ∧
      encode bytes = l.map letter ++ List.replicate ((3 - bytes.length % 3) % 3) pad ∧
      l.length + (3 - bytes.length % 3) % 3 = 4 * ((bytes.length + 2) / 3) ∧
      bytesOf l = bytes := by
  induction bytes using encode.induct with
  | case1 => exact ⟨[], nofun, rfl, rfl, rfl⟩
  | case2 a =>
    have ha := a.toNat_lt
    refine ⟨[a.toNat * 16 / 64, a.toNat * 16 % 64], ?_, rfl, by simp, ?_⟩
    · simp only [List.forall_mem_cons, List.not_mem_nil, false_imp_iff, implies_true, and_true]
      omega
    · rw [bytesOf, Utf8.ofNat_of_eq (a := a) (by omega)]
  | case3 a b =>
    have ha := a.toNat_lt
    have hb := b.toNat_lt
    generalize hn : (a.toNat * 256 + b.toNat) * 4 = n
    refine ⟨[n / 4096, n / 64 % 64, n % 64], ?_, ?_, by simp, ?_⟩
    · simp only [List.forall_mem_cons, List.not_mem_nil, false_imp_iff, implies_true, and_true]
      omega
    · simp only [encode, hn]
      rfl
    · simp only [bytesOf]
      rw [Utf8.ofNat_of_eq (a := a) (by omega), Utf8.ofNat_of_eq (a := b) (by omega)]
  | case4 a b c rest ih =>
    have ha := a.toNat_lt
    have hb := b.toNat_lt
    have hc := c.toNat_lt
    obtain ⟨l, hl, hrest, hlength, hbytes⟩ := ih
    generalize hn : (a.toNat * 256 + b.toNat) * 256 + c.toNat = n
    refine ⟨n / 262144 :: n / 4096 % 64 :: n / 64 % 64 :: n % 64 :: l, ?_, ?_, ?_, ?_⟩
    · simp only [List.forall_mem_cons]
      exact ⟨by omega, by omega, by omega, by omega, hl⟩
    · simp only [encode, hn, hrest, List.length_cons, List.map_cons, List.cons_append,
        Nat.add_assoc, Nat.add_mod_right]
    · simp only [List.length_cons, Nat.add_assoc, Nat.add_mod_right]
      omega
    · simp only [bytesOf, hbytes]
      rw [Utf8.ofNat_of_eq (a := a) (by omega), Utf8.ofNat_of_eq (a := b) (by omega),
        Utf8.ofNat_of_eq (a := c) (by omega)]

/-! ### The texts that are read -/

/-- The text is data characters, with padding behind them that closes them, and they stand for the
bytes. -/
def Accepts (t : Text) (bytes : Bytes) : Prop :=
  ∃ (l : List Nat) (p : Nat), (∀ n ∈ l, n < 64) ∧ t = l.map letter ++ List.replicate p pad ∧
    Closes l.length p ∧ StandsFor l bytes

section Texts

variable {t : Text} {bytes : Bytes} {l : List Nat} {p : Nat}

theorem Closes.mod_ne_one {length p : Nat} (h : Closes length p) : length % 4 ≠ 1 := by
  unfold Closes at h
  omega

theorem decode_of_sextets (h : sextets t = .ok l) : decode t = .ok (bytesOf l) := by
  rw [decode, h]
  rfl

/-- The texts that are read, and the bytes they are read as. -/
theorem decode_eq_ok_iff : decode t = .ok bytes ↔ Accepts t bytes := by
  constructor
  · intro h
    cases hl : sextets t with
    | error f =>
      rw [decode, hl] at h
      cases h
    | ok l =>
      rw [decode_of_sextets hl] at h
      obtain rfl := Except.ok.inj h
      obtain ⟨hl, p, ht, hp⟩ := sextets_eq_ok_iff.mp hl
      exact ⟨l, p, hl, ht, hp, standsFor_bytesOf hl hp.mod_ne_one⟩
  · rintro ⟨l, p, hl, ht, hp, hbytes⟩
    rw [decode_of_sextets (sextets_eq_ok_iff.mpr ⟨hl, p, ht, hp⟩),
      (standsFor_bytesOf hl hp.mod_ne_one).unique hbytes]

/-- What is written for bytes is a text of theirs. -/
theorem accepts_encode (bytes : Bytes) : Accepts (encode bytes) bytes := by
  obtain ⟨l, hl, htext, hlength, hbytes⟩ := exists_encode bytes
  have hcloses : Closes l.length ((3 - bytes.length % 3) % 3) := by
    unfold Closes
    omega
  refine ⟨l, _, hl, htext, hcloses, ?_⟩
  have hstands := standsFor_bytesOf hl hcloses.mod_ne_one
  rwa [hbytes] at hstands

/-- A byte string is read back. -/
theorem decode_encode (bytes : Bytes) : decode (encode bytes) = .ok bytes :=
  decode_eq_ok_iff.mpr (accepts_encode bytes)

theorem Accepts.scalar (h : Accepts t bytes) : t.Scalar := by
  obtain ⟨l, p, -, rfl, -⟩ := h
  intro c hc
  rcases List.mem_append.mp hc with hc | hc
  · obtain ⟨n, -, rfl⟩ := List.mem_map.mp hc
    rfl
  · rw [List.eq_of_mem_replicate hc]
    rfl

/-! ### The form of what is written -/

/-- The form of what is written for `n` bytes: quads, all of them of characters of the alphabet but
for the padding that completes the last one. -/
structure Shaped (n : Nat) (t : Text) : Prop where
  length : t.length = 4 * ((n + 2) / 3)
  text : ∃ data : Text, t = data ++ List.replicate ((3 - n % 3) % 3) pad ∧
    ∀ c ∈ data, ∃ a ∈ alphabet, c = .scalar a

theorem shaped_encode (bytes : Bytes) : Shaped bytes.length (encode bytes) := by
  obtain ⟨l, -, htext, hlength, -⟩ := exists_encode bytes
  refine ⟨?_, l.map letter, htext, fun c hc => ?_⟩
  · rw [htext, List.length_append, List.length_map, List.length_replicate, hlength]
  · obtain ⟨n, -, rfl⟩ := List.mem_map.mp hc
    exact ⟨_, mem_alphabet n, rfl⟩

/-! ### What is written again -/

/-- The characters of a text that are no padding. -/
def dataOf (t : Text) : Text := t.filter (· ≠ pad)

/-- A text has as many data characters as another, and the same ones but possibly for the last,
which is the same too if the quads are complete. -/
structure Agrees (t again : Text) : Prop where
  length : (dataOf again).length = (dataOf t).length
  front : (dataOf again).dropLast = (dataOf t).dropLast
  last : (dataOf t).length % 4 = 0 → dataOf again = dataOf t

theorem dataOf_padded (l : List Nat) (p : Nat) :
    dataOf (l.map letter ++ List.replicate p pad) = l.map letter := by
  have hdata : (l.map letter).filter (· ≠ pad) = l.map letter := by
    refine List.filter_eq_self.mpr fun c hc => ?_
    obtain ⟨n, -, rfl⟩ := List.mem_map.mp hc
    exact decide_eq_true (letter_ne_pad n)
  rw [dataOf, List.filter_append, hdata, List.filter_replicate_of_neg (by simp), List.append_nil]

/-- The data characters that are written for what data characters are read as: all of them but
possibly the last. -/
theorem exists_encode_bytesOf (hl : ∀ n ∈ l, n < 64) (h : l.length % 4 ≠ 1) :
    ∃ front last again p, l = front ++ last ∧ last.length ≤ 1 ∧ again.length = last.length ∧
      (l.length % 4 = 0 → again = last) ∧
      encode (bytesOf l) = (front ++ again).map letter ++ List.replicate p pad := by
  induction l using bytesOf.induct with
  | case1 a b c d rest ih =>
    obtain ⟨ha, hb, hc, hd, hrest⟩ : a < 64 ∧ b < 64 ∧ c < 64 ∧ d < 64 ∧ ∀ n ∈ rest, n < 64 := by
      simpa using hl
    simp only [List.length_cons, Nat.add_assoc, Nat.add_mod_right] at h ⊢
    obtain ⟨front, last, again, p, rfl, hlast, hagain, hsame, htext⟩ := ih hrest h
    refine ⟨a :: b :: c :: d :: front, last, again, p, rfl, hlast, hagain, hsame, ?_⟩
    generalize hn : ((a * 64 + b) * 64 + c) * 64 + d = n
    have hwhole : (n / 65536 * 256 + n / 256 % 256) * 256 + n % 256 = n := by omega
    simp only [bytesOf, hn, encode, Utf8.toNat_byte (show n / 65536 < 256 by omega),
      Utf8.toNat_byte (show n / 256 % 256 < 256 by omega),
      Utf8.toNat_byte (show n % 256 < 256 by omega), hwhole, htext, List.cons_append, List.map_cons]
    rw [show n / 262144 = a by omega, show n / 4096 % 64 = b by omega,
      show n / 64 % 64 = c by omega, show n % 64 = d by omega]
  | case2 a b c =>
    obtain ⟨ha, hb, hc⟩ : a < 64 ∧ b < 64 ∧ c < 64 := by simpa using hl
    refine ⟨[a, b], [c], [c / 4 * 4], 1, rfl, Nat.le_refl 1, rfl, fun h0 => by simp at h0, ?_⟩
    generalize hn : ((a * 64 + b) * 64 + c) / 4 = n
    have hwhole : n / 256 * 256 + n % 256 = n := by omega
    simp only [bytesOf, hn, encode, Utf8.toNat_byte (show n / 256 < 256 by omega),
      Utf8.toNat_byte (show n % 256 < 256 by omega), hwhole]
    rw [show n * 4 / 4096 = a by omega, show n * 4 / 64 % 64 = b by omega,
      show n * 4 % 64 = c / 4 * 4 by omega]
    rfl
  | case3 a b =>
    obtain ⟨ha, hb⟩ : a < 64 ∧ b < 64 := by simpa using hl
    refine ⟨[a], [b], [b / 16 * 16], 2, rfl, Nat.le_refl 1, rfl, fun h0 => by simp at h0, ?_⟩
    generalize hn : (a * 64 + b) / 16 = n
    simp only [bytesOf, hn, encode, Utf8.toNat_byte (show n < 256 by omega)]
    rw [show n * 16 / 64 = a by omega, show n * 16 % 64 = b / 16 * 16 by omega]
    rfl
  | case4 l h₁ h₂ h₃ =>
    obtain rfl := eq_nil_of_no_quad h₁ h₂ h₃ h
    exact ⟨[], [], [], 0, rfl, Nat.zero_le 1, rfl, fun _ => rfl, rfl⟩

/-- What is read is written again up to its last data character. -/
theorem Accepts.agrees_encode (h : Accepts t bytes) : Agrees t (encode bytes) := by
  have hread := decode_eq_ok_iff.mpr h
  obtain ⟨l, p, hl, rfl, hp, -⟩ := h
  rw [decode_of_sextets (sextets_eq_ok_iff.mpr ⟨hl, p, rfl, hp⟩)] at hread
  obtain rfl := Except.ok.inj hread
  obtain ⟨front, last, again, q, rfl, hlast, hagain, hsame, htext⟩ :=
    exists_encode_bytesOf hl hp.mod_ne_one
  rw [htext]
  refine ⟨?_, ?_, fun hfull => ?_⟩
  · simp only [dataOf_padded, List.length_map, List.length_append, hagain]
  · rw [dataOf_padded, dataOf_padded]
    cases last with
    | nil => rw [List.length_eq_zero_iff.mp hagain]
    | cons x last =>
      obtain rfl : last = [] := by simpa using hlast
      obtain ⟨y, rfl⟩ := List.length_eq_one_iff.mp hagain
      simp only [List.map_append, List.map_singleton, List.dropLast_concat]
  · rw [dataOf_padded, dataOf_padded]
    rw [dataOf_padded, List.length_map] at hfull
    rw [hsame hfull]

end Texts

end Base64

end ParserClient
