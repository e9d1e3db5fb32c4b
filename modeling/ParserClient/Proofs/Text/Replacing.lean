import Mathlib.Tactic.ByContra
import ParserClient.Proofs.Text.Utf8

/-!
# Reading with replacement

A byte string is made up of the bytes of its segments. A broken run holds no byte below `80`: the
cut goes on at the first byte that does not continue a character, so no such byte is swallowed by
what stands in front of it. The replacing reader therefore keeps all of ASCII, in order and with
nothing added, whatever else is broken. Where nothing is broken it reads what the strict reader
does.

## Main definitions

* `Utf8.Segment.bytes`, `Utf8.Segment.IsCut` — the bytes of a segment, and what is known of them.
* `Text.ascii`, `Bytes.ascii` — the part of a text and of a byte string below `80`.

## Main results

* `Utf8.flatMap_segments` — a byte string is the bytes of its segments.
* `Utf8.ascii_replaced`, `Utf8.decodeReplacing_of_encode`, `Utf8.scalar_replaced` — what the
  replacing reader keeps, and what it adds.
-/

namespace ParserClient

/-- The numbers of the code points below `80`, in order. -/
def Text.ascii (t : Text) : List Nat := (t.map CodePoint.toNat).filter (· < 0x80)

/-- The bytes below `80`, in order. -/
def Bytes.ascii (bytes : Bytes) : List Nat := (bytes.map UInt8.toNat).filter (· < 0x80)

theorem Text.ascii_append (s t : Text) : ascii (s ++ t) = ascii s ++ ascii t := by
  simp [ascii]

theorem Bytes.ascii_append (s t : Bytes) : ascii (s ++ t) = ascii s ++ ascii t := by
  simp [ascii]

theorem Bytes.ascii_eq_nil {bytes : Bytes} (h : ∀ b ∈ bytes, 0x80 ≤ b.toNat) :
    ascii bytes = [] := by
  simpa [ascii] using h

namespace Utf8

/-! ### The bytes of a cut -/

/-- The bytes that a segment is cut from. -/
def Segment.bytes : Segment → Bytes
  | .char c => String.utf8EncodeChar c
  | .broken _ run => run

/-- A broken run is not empty, and holds no byte below `80`. -/
def Segment.IsCut : Segment → Prop
  | .char _ => True
  | .broken _ run => run ≠ [] ∧ ∀ b ∈ run, 0x80 ≤ b.toNat

theorem Segment.IsCut.bytes_ne_nil {s : Segment} (h : s.IsCut) : s.bytes ≠ [] := by
  cases s with
  | char c => exact String.utf8EncodeChar_ne_nil
  | broken reason run => exact h.1

theorem le_of_not_lt {a : UInt8} (h : ¬ a < 0x80) : 0x80 ≤ a.toNat := by
  rw [UInt8.lt_iff_toNat_lt] at h
  exact Nat.le_of_not_lt h

theorem le_of_isContinuation {b : UInt8} (h : isContinuation b = true) : 0x80 ≤ b.toNat := by
  have hb := payload_of_isContinuation h
  omega

/-- A cut that begins with a broken run is that of the run and what is behind it. -/
theorem exists_of_segments_broken {bytes run : Bytes} {reason : Reason} {rest : List Segment}
    (h : segments bytes = .broken reason run :: rest) :
    ∃ t, bytes = run ++ t ∧ segments t = rest ∧ run ≠ [] ∧ ∀ b ∈ run, 0x80 ≤ b.toNat := by
  fun_cases segments bytes
  all_goals
    rw [segments.eq_def] at h
    simp only [*, ↓reduceIte, reduceCtorEq, List.cons.injEq, false_and, Bool.false_eq_true,
      Segment.broken.injEq] at h
  -- what is left are the broken cuts: the run is the lead byte and the bytes that continue it
  all_goals
    obtain ⟨⟨-, rfl⟩, rfl⟩ := h
    refine ⟨_, rfl, rfl, List.cons_ne_nil _ _, ?_⟩
    grind [le_of_not_lt, le_of_isContinuation, isContinuation_of_isSecond]

theorem exists_of_segments {bytes : Bytes} {s : Segment} {rest : List Segment}
    (h : segments bytes = s :: rest) :
    ∃ t, bytes = s.bytes ++ t ∧ segments t = rest ∧ s.IsCut := by
  cases s with
  | char c =>
    obtain ⟨t, hbytes, ht⟩ := exists_of_segments_cons h
    exact ⟨t, hbytes, ht, trivial⟩
  | broken reason run => exact exists_of_segments_broken h

/-- A byte string is the bytes of its segments. -/
theorem flatMap_segments (bytes : Bytes) :
    (segments bytes).flatMap Segment.bytes = bytes ∧ ∀ s ∈ segments bytes, s.IsCut := by
  generalize hsegs : segments bytes = segs
  induction segs generalizing bytes with
  | nil =>
    cases bytes with
    | nil => exact ⟨rfl, nofun⟩
    | cons a t => exact absurd hsegs (segments_ne_nil a t)
  | cons s rest ih =>
    obtain ⟨t, rfl, ht, hcut⟩ := exists_of_segments hsegs
    obtain ⟨hbytes, hrest⟩ := ih t ht
    exact ⟨by rw [List.flatMap_cons, hbytes], List.forall_mem_cons.mpr ⟨hcut, hrest⟩⟩

/-! ### What is kept -/

/-- A character below `80` is one byte, and no byte of any other is below `80`. -/
theorem ascii_utf8EncodeChar (c : Char) :
    Bytes.ascii (String.utf8EncodeChar c) = Text.ascii [.scalar c] := by
  by_cases hc : c.toNat < 0x80
  · have hbyte : (UInt8.ofNat c.toNat).toNat = c.toNat := toNat_byte (by omega)
    have hone := utf8EncodeChar_one (a := UInt8.ofNat c.toNat) (by omega)
    rw [hbyte, Char.ofNat_toNat] at hone
    simp [Bytes.ascii, Text.ascii, hone, hbyte, CodePoint.toNat]
  · have hhigh : ∀ b ∈ String.utf8EncodeChar c, 0x80 ≤ b.toNat := by
      intro b hb
      by_contra hlow
      have heq := (mem_utf8EncodeChar_iff (by omega) c).mp hb
      omega
    simp [Bytes.ascii_eq_nil hhigh, Text.ascii, CodePoint.toNat, hc]

theorem Segment.IsCut.ascii {s : Segment} (h : s.IsCut) :
    Text.ascii [s.replaced] = Bytes.ascii s.bytes := by
  cases s with
  | char c => exact (ascii_utf8EncodeChar c).symm
  | broken reason run =>
    have hrun : Bytes.ascii run = [] := Bytes.ascii_eq_nil h.2
    exact hrun.symm

/-- The replacing reader keeps what is below `80`, and adds nothing below `80`. -/
theorem ascii_replaced {segs : List Segment} (h : ∀ s ∈ segs, s.IsCut) :
    Text.ascii (segs.map Segment.replaced) = Bytes.ascii (segs.flatMap Segment.bytes) := by
  induction segs with
  | nil => rfl
  | cons s rest ih =>
    obtain ⟨hs, hrest⟩ := List.forall_mem_cons.mp h
    rw [List.flatMap_cons, Bytes.ascii_append, ← ih hrest, ← hs.ascii, ← Text.ascii_append]
    rfl

/-- The bytes of a text are read as it. -/
theorem decodeReplacing_of_encode {t : Text} {bytes : Bytes} (h : encode t = .ok bytes) :
    decodeReplacing bytes = t := by
  obtain ⟨s, rfl, rfl⟩ := encode_eq_ok_iff.mp h
  rw [decodeReplacing, segments_flatMap, List.map_map]
  rfl

theorem scalar_replaced (segs : List Segment) : Text.Scalar (segs.map Segment.replaced) := by
  intro c hc
  obtain ⟨s, -, rfl⟩ := List.mem_map.mp hc
  cases s <;> rfl

end Utf8

end ParserClient
