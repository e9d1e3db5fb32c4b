import ParserClient.Number.Integer

/-!
# Base 64

Bytes as characters of the standard alphabet, in quads of four for three bytes, the last quad
padded with equals signs. Reading is strict: no character outside the alphabet, no padding in
front of the data or between them, nothing behind a complete padding. It asks for the padding that
completes a quad that is begun, and lets equals signs stand behind complete quads.

## Main definitions

* `Base64.encode`.
* `Base64.sextets` — the data characters of a text, or the first fault.
* `Base64.decode`, `Base64.Fault`.
-/

namespace ParserClient

namespace Base64

/-- The characters of the alphabet, each for its place. -/
def alphabet : List Char :=
  "ABCDEFGHIJKLMNOPQRSTUVWXYZabcdefghijklmnopqrstuvwxyz0123456789+/".toList

/-- The character for six bits. -/
def letter (sextet : Nat) : CodePoint := .scalar (alphabet.getD sextet 'A')

/-- The padding. -/
def pad : CodePoint := .scalar '='

/-- The six bits that a character of the alphabet stands for. -/
def sextet? : CodePoint → Option Nat
  | .lone _ => none
  | .scalar c =>
    if 'A' ≤ c ∧ c ≤ 'Z' then some (c.toNat - 'A'.toNat)
    else if 'a' ≤ c ∧ c ≤ 'z' then some (c.toNat - 'a'.toNat + 26)
    else if '0' ≤ c ∧ c ≤ '9' then some (c.toNat - '0'.toNat + 52)
    else if c = '+' then some 62
    else if c = '/' then some 63
    else none

/-- The text of a byte string. -/
def encode : Bytes → Text
  | [] => []
  | [a] =>
    let n := a.toNat * 16
    [letter (n / 64), letter (n % 64), pad, pad]
  | [a, b] =>
    let n := (a.toNat * 256 + b.toNat) * 4
    [letter (n / 4096), letter (n / 64 % 64), letter (n % 64), pad]
  | a :: b :: c :: rest =>
    let n := (a.toNat * 256 + b.toNat) * 256 + c.toNat
    letter (n / 262144) :: letter (n / 4096 % 64) :: letter (n / 64 % 64) :: letter (n % 64)
      :: encode rest

/-- Why a text is not read. -/
inductive Fault where
  | notAscii
  | leadingPadding
  | excess
  | foreign
  | discontinuous
  | single (count : Nat)
  | padding
  deriving DecidableEq, Repr

/-- The wording of a fault. -/
def Fault.message : Fault → Text
  | .notAscii => "string argument should contain only ASCII characters"
  | .leadingPadding => "Leading padding not allowed"
  | .excess => "Excess data after padding"
  | .foreign => "Only base64 data is allowed"
  | .discontinuous => "Discontinuous padding not allowed"
  | .single count =>
    ("Invalid base64-encoded string: number of data characters (" : Text) ++ Natural.text count
      ++ (") cannot be 1 more than a multiple of 4" : Text)
  | .padding => "Incorrect padding"

/-- The data characters of a text that stands behind `count` others and, if `padded`, behind
padding; `pads` counts the equals signs behind the last data character that help to complete its
quad. -/
def sextetsFrom (count pads : Nat) (padded : Bool) : Text → Except Fault (List Nat)
  | [] =>
    match count % 4 with
    | 0 => .ok []
    | 1 => .error (.single count)
    | _ => .error .padding
  | c :: t =>
    if c = pad then
      if 2 ≤ count % 4 then
        if 4 ≤ count % 4 + pads + 1 then
          if t.isEmpty then .ok [] else .error .excess
        else sextetsFrom count (pads + 1) true t
      else sextetsFrom count pads true t
    else
      match sextet? c with
      | none => .error .foreign
      | some s =>
        if padded then .error .discontinuous
        else (sextetsFrom (count + 1) 0 false t).map (s :: ·)

/-- The data characters of a text. -/
def sextets (t : Text) : Except Fault (List Nat) :=
  if t.all fun c => c.toNat < 0x80 then
    if t.head? = some pad then .error .leadingPadding else sextetsFrom 0 0 false t
  else .error .notAscii

/-- The bytes that data characters stand for; bits that fill no byte are left out. -/
def bytesOf : List Nat → Bytes
  | a :: b :: c :: d :: rest =>
    let n := ((a * 64 + b) * 64 + c) * 64 + d
    UInt8.ofNat (n / 65536) :: UInt8.ofNat (n / 256 % 256) :: UInt8.ofNat (n % 256) :: bytesOf rest
  | [a, b, c] =>
    let n := ((a * 64 + b) * 64 + c) / 4
    [UInt8.ofNat (n / 256), UInt8.ofNat (n % 256)]
  | [a, b] => [UInt8.ofNat ((a * 64 + b) / 16)]
  | _ => []

/-- The byte string of a text. -/
def decode (t : Text) : Except Fault Bytes := (sextets t).map bytesOf

end Base64

end ParserClient
