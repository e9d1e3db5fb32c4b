import ParserClient.Text

/-!
# UTF-8

Writing refuses a text at its first lone surrogate half and says where the run of such halves
begins and ends. Reading cuts a byte string into *segments*: one character each, or a maximal
broken run that no character continues. The strict reader stops at the first broken segment; the
replacing reader puts the replacement character in its place. Both are read off the same cut.

## Main definitions

* `Utf8.encode` and `Utf8.Unencodable` — bytes of a text, or the first run without any.
* `Utf8.segments` — the cut of a byte string.
* `Utf8.decode`, `Utf8.Undecodable` and `Utf8.decodeReplacing` — the two readers.
-/

namespace ParserClient

namespace Utf8

/-! ### Writing -/

/-- The first run of lone surrogate halves of a text: its position, its length and its first
half. -/
structure Unencodable where
  position : Nat
  length : Nat
  half : Fin 0x800
  deriving DecidableEq, Repr

/-- The number of lone halves that a text begins with. -/
def loneRun : Text → Nat
  | .lone _ :: t => loneRun t + 1
  | _ => 0

/-- The bytes of a text that stands at the given position of a longer one. -/
def encodeFrom (position : Nat) : Text → Except Unencodable Bytes
  | [] => .ok []
  | .scalar c :: t => (encodeFrom (position + 1) t).map (String.utf8EncodeChar c ++ ·)
  | .lone h :: t => .error ⟨position, loneRun t + 1, h⟩

/-- The bytes of a text. -/
def encode (t : Text) : Except Unencodable Bytes := encodeFrom 0 t

/-! ### Reading -/

/-- Why a run of bytes is no character. -/
inductive Reason where
  | start
  | continuation
  | truncated
  deriving DecidableEq, Repr

/-- A piece of a byte string: a character or a run that begins none. -/
inductive Segment where
  | char (c : Char)
  | broken (reason : Reason) (run : Bytes)
  deriving DecidableEq, Repr

/-- The byte continues a character: `10xxxxxx`. -/
def isContinuation (b : UInt8) : Bool := 0x80 ≤ b && b < 0xC0

/-- The six bits that a continuation byte carries. -/
def payload (b : UInt8) : Nat := b.toNat % 0x40

/-- The byte may follow the lead byte of a character of three or four bytes: neither an overlong
form nor a surrogate nor a number past the last code point begins so. -/
def isSecond (lead b : UInt8) : Bool :=
  isContinuation b &&
    (if lead = 0xE0 then 0xA0 ≤ b
     else if lead = 0xED then b < 0xA0
     else if lead = 0xF0 then 0x90 ≤ b
     else if lead = 0xF4 then b < 0x90
     else true)

/-- Cuts a byte string into characters and broken runs. A lead byte whose continuation is wrong
is broken together with the continuation bytes that were right, and the cut goes on at the wrong
one; a character that the end of the string cuts short is broken as a whole. -/
def segments : Bytes → List Segment
  | [] => []
  | a :: t =>
    if a < 0x80 then .char (Char.ofNat a.toNat) :: segments t
    else if a < 0xC2 then .broken .start [a] :: segments t
    else if a < 0xE0 then
      match t with
      | [] => [.broken .truncated [a]]
      | b :: t' =>
        if isContinuation b then
          .char (Char.ofNat ((a.toNat - 0xC0) * 0x40 + payload b)) :: segments t'
        else .broken .continuation [a] :: segments (b :: t')
    else if a < 0xF0 then
      match t with
      | [] => [.broken .truncated [a]]
      | b :: t' =>
        if !isSecond a b then .broken .continuation [a] :: segments (b :: t')
        else match t' with
          | [] => [.broken .truncated [a, b]]
          | c :: t'' =>
            if isContinuation c then
              .char (Char.ofNat ((a.toNat - 0xE0) * 0x1000 + payload b * 0x40 + payload c))
                :: segments t''
            else .broken .continuation [a, b] :: segments (c :: t'')
    else if a < 0xF5 then
      match t with
      | [] => [.broken .truncated [a]]
      | b :: t' =>
        if !isSecond a b then .broken .continuation [a] :: segments (b :: t')
        else match t' with
          | [] => [.broken .truncated [a, b]]
          | c :: t'' =>
            if !isContinuation c then .broken .continuation [a, b] :: segments (c :: t'')
            else match t'' with
              | [] => [.broken .truncated [a, b, c]]
              | d :: t''' =>
                if isContinuation d then
                  .char (Char.ofNat ((a.toNat - 0xF0) * 0x40000 + payload b * 0x1000
                    + payload c * 0x40 + payload d)) :: segments t'''
                else .broken .continuation [a, b, c] :: segments (d :: t''')
    else .broken .start [a] :: segments t

namespace Segment

/-- The character of a segment, the replacement character for a broken one. -/
def replaced : Segment → CodePoint
  | .char c => .scalar c
  | .broken _ _ => .scalar (Char.ofNat 0xFFFD)

end Segment

/-- The first broken run of a byte string, its position and the reason. -/
structure Undecodable where
  position : Nat
  run : Bytes
  reason : Reason
  deriving DecidableEq, Repr

/-- The characters of a list of segments that begins at the given byte position. -/
def charactersFrom (position : Nat) : List Segment → Except Undecodable Text
  | [] => .ok []
  | .char c :: rest =>
    (charactersFrom (position + c.utf8Size) rest).map (CodePoint.scalar c :: ·)
  | .broken reason run :: _ => .error ⟨position, run, reason⟩

/-- The text that a byte string encodes. -/
def decode (bytes : Bytes) : Except Undecodable Text := charactersFrom 0 (segments bytes)

/-- The text of a byte string, each broken run read as one replacement character. -/
def decodeReplacing (bytes : Bytes) : Text := (segments bytes).map Segment.replaced

/-! ### Wording -/

/-- The lower case hexadecimal digits of a number, padded with zeros to a width. -/
def hex (width n : Nat) : Text :=
  let digits := Nat.toDigits 16 n
  (List.replicate (width - digits.length) '0' ++ digits).map .scalar

/-- A span of positions as the two errors name it: one position, or first and last. -/
def span (position length : Nat) : Text :=
  if length = 1 then Text.ofString s!" in position {position}: "
  else Text.ofString s!"s in position {position}-{position + length - 1}: "

/-- The wording of a reason. -/
def Reason.message : Reason → Text
  | .start => "invalid start byte"
  | .continuation => "invalid continuation byte"
  | .truncated => "unexpected end of data"

/-- Names the run of lone halves; a single one is shown by its number. -/
def Unencodable.message (e : Unencodable) : Text :=
  Text.ofString "'utf-8' codec can't encode character"
    ++ (if e.length = 1 then
          Text.ofString " '\\u" ++ hex 4 (0xD800 + e.half.val) ++ Text.ofString "'"
        else [])
    ++ span e.position e.length ++ Text.ofString "surrogates not allowed"

/-- Names the broken run; a single byte is shown by its number. -/
def Undecodable.message (e : Undecodable) : Text :=
  Text.ofString "'utf-8' codec can't decode byte"
    ++ (match e.run with
        | [b] => Text.ofString " 0x" ++ hex 2 b.toNat
        | _ => [])
    ++ span e.position e.run.length ++ e.reason.message

end Utf8

end ParserClient
