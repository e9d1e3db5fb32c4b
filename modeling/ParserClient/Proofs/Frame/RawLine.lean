import Mathlib.Data.List.DropRight
import ParserClient.Frame.Calls
import ParserClient.Proofs.Text.Replacing

/-!
# Lines as they stand

A line that is taken raw may hold any bytes: it is the notice that a child leaves when it crashes.
Its text is cut segment by segment, and carriage returns and line feeds are segments of their own.
So the run of them at the end of the text is the run of them at the end of the line, and what is in
front of it keeps all of ASCII.

## Main definitions

* `Frame.isLineEndByte` — a carriage return or a line feed as a byte.
* `Frame.Keeps` — what the text of a line keeps of it.

## Main results

* `Frame.flatMap_rdropWhile`, `Frame.map_rdropWhile` — the ends of line and text are the same
  segments.
* `raw_line_kept` — a raw call takes any line and keeps this of it.
-/

namespace ParserClient

namespace Frame

open Utf8

/-! ### The end of a line -/

/-- A carriage return or a line feed. -/
def isLineEndByte (b : UInt8) : Bool := b = 13 || b = 10

/-- The segment is a carriage return or a line feed. -/
def endsLine (s : Segment) : Bool := isLineEnd s.replaced

theorem endsLine_iff {s : Segment} : endsLine s = true ↔ s = .char '\r' ∨ s = .char '\n' := by
  cases s with
  | char c => simp [endsLine, isLineEnd, Segment.replaced]
  | broken reason run =>
    simp only [endsLine, Segment.replaced, reduceCtorEq, or_self, iff_false, Bool.not_eq_true]
    decide

/-- The run at the end of a text. -/
theorem map_rdropWhile (segs : List Segment) :
    (segs.map Segment.replaced).rdropWhile isLineEnd =
      (segs.rdropWhile endsLine).map Segment.replaced := by
  rw [List.rdropWhile, List.rdropWhile, ← List.map_reverse, List.dropWhile_map, List.map_reverse]
  rfl

/-- Only a carriage return or a line feed has the byte of one. -/
theorem isLineEndByte_of_not_endsLine {s : Segment} (h : s.IsCut) (hs : endsLine s = false)
    {b : UInt8} (hb : b ∈ s.bytes) : isLineEndByte b = false := by
  by_contra hend
  simp only [isLineEndByte, Bool.not_eq_false, Bool.or_eq_true, decide_eq_true_eq] at hend
  have hlow : b.toNat < 0x80 := by rcases hend with rfl | rfl <;> decide
  cases s with
  | broken reason run =>
    have hhigh : 0x80 ≤ b.toNat := h.2 b hb
    omega
  | char c =>
    have hc : c.toNat = b.toNat := (mem_utf8EncodeChar_iff hlow c).mp hb
    have hchar : c = Char.ofNat b.toNat := by rw [← hc, Char.ofNat_toNat]
    have hends : endsLine (.char c) = true := by
      rw [endsLine_iff, hchar]
      rcases hend with rfl | rfl
      · exact .inl rfl
      · exact .inr rfl
    rw [hs] at hends
    cases hends

/-- The run at the end of a line. -/
theorem flatMap_rdropWhile {segs : List Segment} (h : ∀ s ∈ segs, s.IsCut) :
    (segs.flatMap Segment.bytes).rdropWhile isLineEndByte =
      (segs.rdropWhile endsLine).flatMap Segment.bytes := by
  induction segs using List.reverseRecOn with
  | nil => rfl
  | append_singleton segs s ih =>
    obtain ⟨hsegs, hs⟩ := List.forall_mem_append.mp h
    rw [List.flatMap_append, List.flatMap_singleton, List.rdropWhile_concat]
    cases hends : endsLine s with
    | true =>
      obtain ⟨b, hbytes, hb⟩ : ∃ b, s.bytes = [b] ∧ isLineEndByte b = true := by
        rcases endsLine_iff.mp hends with rfl | rfl
        · exact ⟨13, rfl, rfl⟩
        · exact ⟨10, rfl, rfl⟩
      rw [hbytes, List.rdropWhile_concat_pos _ _ _ hb, if_pos rfl, ih hsegs]
    | false =>
      have hcut := hs s (List.mem_singleton_self s)
      rw [if_neg Bool.false_ne_true, List.flatMap_append, List.flatMap_singleton,
        List.rdropWhile_eq_self_iff]
      intro hne
      rw [List.getLast_append_of_ne_nil _ hcut.bytes_ne_nil, Bool.not_eq_true]
      exact isLineEndByte_of_not_endsLine hcut hends (List.getLast_mem _)

/-! ### What is kept -/

/-- The text is what is kept of a line that is taken as it stands. It does not end with a carriage
return or a line feed. Its ASCII is that of the line without the run of carriage returns and line
feeds at its end. If the line is the bytes of a text, it is that text without such a run. It holds
characters only. -/
structure Keeps (line : Bytes) (text : Text) : Prop where
  last : ∀ c, text.getLast? = some c → isLineEnd c = false
  ascii : text.ascii = Bytes.ascii (line.rdropWhile isLineEndByte)
  read : ∀ t, Utf8.encode t = .ok line → text = t.rdropWhile isLineEnd
  scalar : text.Scalar

theorem keeps_rawText (line : Bytes) : Keeps line (rawText line) := by
  obtain ⟨hline, hcut⟩ := flatMap_segments line
  have htext : rawText line = ((segments line).rdropWhile endsLine).map Segment.replaced :=
    map_rdropWhile (segments line)
  refine ⟨fun c hc => ?_, ?_, fun t ht => ?_, ?_⟩
  · obtain ⟨hne, rfl⟩ := List.mem_getLast?_eq_getLast hc
    exact Bool.not_eq_true _ ▸ List.rdropWhile_last_not isLineEnd (decodeReplacing line) hne
  · rw [htext, ascii_replaced fun s hs => hcut s ((List.rdropWhile_prefix _ _).subset hs),
      ← flatMap_rdropWhile hcut, hline]
  · rw [← decodeReplacing_of_encode ht]
    rfl
  · rw [htext]
    exact scalar_replaced _

end Frame

/-- A raw call takes the next line, whatever bytes it holds, and the text that it gives keeps what
is to be kept of it. -/
theorem raw_line_kept {line : Bytes} (hne : line ≠ []) (room : Room) (isOpen : Gate → Bool)
    (left : List Delivery) :
    ∃ text, ReadCall.raw.perform room isOpen (.bytes line :: left) =
        some ⟨1, .ok (.raw text), left⟩ ∧
      Frame.Keeps line text := by
  refine ⟨Frame.rawText line, ?_, Frame.keeps_rawText line⟩
  have hline : Inlet.lineOf line = .ok line := if_neg (by simpa using hne)
  simp only [ReadCall.perform, ReadCall.pull, Inlet.pull, hline, Option.map_some]
  rfl

/-- A line with a character cut short in front of a line feed in its middle, an overlong form and
half of a surrogate pair in front of letters, and a run of ends with one more behind it. -/
def Frame.garbled : Bytes :=
  [115, 0xE2, 0x82, 10, 0xC0, 0x80, 101, 0xED, 0xA0, 0x80, 103, 0xFF, 13, 10, 13, 10]

theorem garbled_kept :
    ∃ text, ReadCall.raw.perform .standard (fun _ => false)
        [.bytes Frame.garbled, .mishap (.misused [])] =
          some ⟨1, .ok (.raw text), [.mishap (.misused [])]⟩ ∧
      text.ascii = [115, 10, 101, 103] ∧ text.Scalar := by
  have hne : Frame.garbled ≠ [] := nofun
  obtain ⟨text, hcall, hkeeps⟩ :=
    raw_line_kept hne .standard (fun _ => false) [.mishap (.misused [])]
  exact ⟨text, hcall, hkeeps.ascii, hkeeps.scalar⟩

end ParserClient
