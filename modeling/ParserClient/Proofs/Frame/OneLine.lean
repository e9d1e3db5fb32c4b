import ParserClient.Proofs.Frame.Stream
import ParserClient.Proofs.Json.Controls

/-!
# A frame is one line of text

The frame of any message that has one is valid UTF-8, and its line feed at the end is its only
control character, however the message nests and whatever its texts, keys and numbers are. It is
not blank, so a call for a message takes the frame off a stream and nothing else.

Nothing is said about what the frame is read as: keys that fall together, floats and containers
that nest too deep need not come back.

## Main definitions

* `Frame.IsTextLine` — a line that is valid UTF-8 and holds no further control character.

## Main results

* `Frame.isTextLine_ofValue` — the frame of a message.
* `Frame.IsTextLine.pullMessage` — a frame is taken whole.
* `frame_is_one_line` — the two together, for messages and for requests.
-/

namespace ParserClient

namespace Frame

/-- The bytes are valid UTF-8 and one line, not a blank one, without a control character but the
line feed at its end. -/
structure IsTextLine (frame : Bytes) : Prop extends IsLine frame where
  text : ∃ t, Utf8.decode frame = .ok t
  clear : ∀ b ∈ frame, b < 0x20 → b = 10

/-- The bytes of a text without control characters are none either: a byte below `80` stands for the
code point of the same number. -/
theorem clear_encode {t : Text} {bytes : Bytes} (h : Utf8.encode t = .ok bytes) (ht : t.Clear) :
    ∀ b ∈ bytes, ¬ b < 0x20 := by
  obtain ⟨s, rfl, rfl⟩ := Utf8.encode_eq_ok_iff.mp h
  intro b hmem hb
  obtain ⟨c, hc, hbyte⟩ := List.mem_flatMap.mp hmem
  have hb : b.toNat < 0x20 := UInt8.lt_iff_toNat_lt.mp hb
  have hnumber : c.toNat = b.toNat := (Utf8.mem_utf8EncodeChar_iff (by omega) c).mp hbyte
  have hclear : 0x20 ≤ (CodePoint.scalar c).toNat := ht _ (List.mem_map_of_mem hc)
  simp only [CodePoint.toNat] at hclear
  omega

/-- A text that has bytes with a line feed behind it has bytes. -/
theorem encode_of_append_feed {t : Text} {frame : Bytes}
    (h : Utf8.encode (t ++ ("\n" : Text)) = .ok frame) :
    ∃ body, Utf8.encode t = .ok body ∧ frame = body ++ [10] := by
  have hscalar : t.Scalar := fun c hc =>
    Utf8.scalar_of_encodeFrom h c (List.mem_append_left _ hc)
  obtain ⟨body, hbody⟩ := Utf8.encode_of_scalar hscalar
  rw [encode_append_feed hbody] at h
  exact ⟨body, hbody, (Except.ok.inj h).symm⟩

theorem ofValue_eq_ok {message : Value} {frame : Bytes} (h : ofValue message = .ok frame) :
    ∃ t, Json.write message = .ok t ∧ Utf8.encode (t ++ ("\n" : Text)) = .ok frame := by
  unfold ofValue at h
  split at h
  · cases h
  · next t hwrite =>
    split at h
    · cases h
    · next bytes hbytes => exact ⟨t, hwrite, Except.ok.inj h ▸ hbytes⟩

/-- The frame of a message is one line of text. -/
theorem isTextLine_ofValue {message : Value} {frame : Bytes} (h : ofValue message = .ok frame) :
    IsTextLine frame := by
  obtain ⟨t, hwrite, hframe⟩ := ofValue_eq_ok h
  have htext : ∃ t, Utf8.decode frame = .ok t := ⟨_, Utf8.decode_of_encode hframe⟩
  obtain ⟨body, hbody, rfl⟩ := encode_of_append_feed hframe
  have hclear := clear_encode hbody (Json.clear_write hwrite)
  have hshown : isBlank body = false := not_isBlank hbody (Json.begins_write hwrite)
  refine ⟨⟨⟨body, rfl, fun hfeed => hclear 10 hfeed (by decide)⟩, ?_⟩, htext, ?_⟩
  · rw [isBlank, List.all_append, ← isBlank, hshown, Bool.false_and]
  · intro b hb hlow
    rcases List.mem_append.mp hb with hb | hb
    · exact absurd hlow (hclear b hb)
    · exact List.mem_singleton.mp hb

/-- A call for a message takes a line off a stream that begins with it, and leaves the rest. -/
theorem IsLine.pullMessage {line : Bytes} (h : IsLine line) (isOpen : Gate → Bool) (rest : Bytes) :
    Inlet.pullMessage isOpen (Delivery.ofBytes (line ++ rest)) =
      some (1, .ok line, Delivery.ofBytes rest) := by
  have hsome : line.isEmpty = false := by
    obtain ⟨body, rfl, -⟩ := h.ends
    simp
  rw [Delivery.ofBytes, h.linesOf_append, List.map_cons, Inlet.pullMessage,
    if_neg (by simp [hsome]), if_neg (by simp [h.shown])]
  rfl

end Frame

/-- The frame of a message, or of a request, is one line of text. A call for a message on a stream
that begins with the frame takes the frame by one reading call, and leaves what stands behind it. -/
theorem frame_is_one_line {frame : Bytes}
    (h : (∃ message, Frame.ofValue message = .ok frame) ∨
      ∃ request, Frame.ofRequest request = .ok frame) :
    Frame.IsTextLine frame ∧ ∀ (isOpen : Gate → Bool) (rest : Bytes),
      Inlet.pullMessage isOpen (Delivery.ofBytes (frame ++ rest)) =
        some (1, .ok frame, Delivery.ofBytes rest) := by
  obtain ⟨message, h⟩ : ∃ message, Frame.ofValue message = .ok frame := by
    rcases h with h | ⟨request, h⟩
    · exact h
    · exact ⟨request.toValue, h⟩
  have hline := Frame.isTextLine_ofValue h
  exact ⟨hline, hline.toIsLine.pullMessage⟩

/-- A message with keys of all kinds and with line ends, a null character, quotes and numbers
without digits in it. -/
def Value.oddMessage : Value :=
  .mapping
    [(.text "", .list [.text "\r\n\x00", .tuple [.text "\u2028\"\\😀"]]),
      (.text "\n\x1b", .float .nan), (.null, .float (.infinity true)),
      (.bool false, .mapping [(.int (-7), .int 10)]), (.float (.zero true), .null)]

/-- The text of this message. -/
def Value.oddLine : Text :=
  ("\x7b\"\":[\"\\r\\n\\u0000\",[\"\u2028\\\"\\\\😀\"]],\"\\n\\u001b\":NaN," : Text)
    ++ ("\"null\":-Infinity,\"false\":\x7b\"-7\":10\x7d,\"-0.0\":null\x7d\n" : Text)

theorem odd_message_is_one_line :
    (∃ frame, Utf8.encode Value.oddLine = .ok frame ∧ Frame.ofValue Value.oddMessage = .ok frame ∧
      Frame.IsTextLine frame) ∧
    ∃ frame, Frame.ofRequest ⟨"a\n", .utf8⟩ = .ok frame ∧ Frame.IsTextLine frame := by
  obtain ⟨frame, hframe⟩ : ∃ frame, Utf8.encode Value.oddLine = .ok frame :=
    Utf8.encode_of_scalar ((Text.scalar_ofString _).append (Text.scalar_ofString _))
  have hmessage : Frame.ofValue Value.oddMessage = .ok frame := by
    have hwrite : Frame.ofValue Value.oddMessage =
        (Utf8.encode Value.oddLine).mapError fun f => .unencodable (.bytes f) := by
      decide +kernel
    rw [hwrite, hframe]
    rfl
  obtain ⟨line, hline⟩ : ∃ line, Frame.ofRequest ⟨"a\n", .utf8⟩ = .ok line := ⟨_, rfl⟩
  exact ⟨⟨frame, hframe, hmessage, (frame_is_one_line (.inl ⟨_, hmessage⟩)).1⟩, line, hline,
    (frame_is_one_line (.inr ⟨_, hline⟩)).1⟩

end ParserClient
