import ParserClient.Tree

/-!
# Reading JSON

A reader for JSON texts. It works on what is left of the text, so an offence is a suffix of the
text, from which its position is counted. Containers nest up to a limit; integers have a limited
number of digits. The words for infinities and for no number are read as numbers, and a backslash
may stand before the number of one half of a surrogate pair: two halves that follow each other are
one character, a lone half stays alone.

## Main definitions

* `Json.Complaint`, `Json.Stop` — what a reader stops at.
* `Json.number`, `Json.string`, `Json.value` — readers for a piece of a text.
* `Json.read` and `Json.Fault` — the tree of a whole text.
-/

namespace ParserClient

namespace Json

/-- What is wrong with a text. -/
inductive Complaint where
  | byteOrderMark
  | value
  | propertyName
  | colon
  | comma
  | control
  | escape
  | unicodeEscape
  | unterminated
  | extra
  deriving DecidableEq, Repr

/-- Why a reader stops: a complaint about what is left of the text, containers that nest too
deep, or an integer with too many digits. -/
inductive Stop where
  | complaint (c : Complaint) (left : Text)
  | tooDeep
  | oversized (o : Oversized)
  deriving DecidableEq, Repr

/-- A reader gives a result and what is left of the text. -/
abbrev Reading (α : Type) := Except Stop (α × Text)

/-- Space, tab, line feed and carriage return. -/
def isSpace (c : CodePoint) : Bool :=
  c = .scalar ' ' || c = .scalar '\t' || c = .scalar '\n' || c = .scalar '\r'

/-- The text without the space it begins with. -/
def skipSpace (t : Text) : Text := t.dropWhile isSpace

/-! ### Numbers -/

/-- The minus sign that a text may begin with, and the rest. -/
def takeMinus : Text → Bool × Text
  | .scalar '-' :: t => (true, t)
  | t => (false, t)

/-- The digits behind the point that a text begins with, and the rest. A point without a digit
behind it is left. -/
def takeFraction (t : Text) : List Nat × Text :=
  match t with
  | .scalar '.' :: r =>
    match Text.spanDigits r with
    | ([], _) => ([], t)
    | (digits, rest) => (digits, rest)
  | _ => ([], t)

/-- The exponent that a text begins with, and the rest. An exponent without digits is left. -/
def takeExponent (t : Text) : Option Int × Text :=
  match t with
  | .scalar e :: r =>
    if e = 'e' ∨ e = 'E' then
      let (negative, r') := Text.takeSign r
      match Text.spanDigits r' with
      | ([], _) => (none, t)
      | (digits, rest) =>
        let n : Int := Natural.ofDigits digits
        (some (if negative then -n else n), rest)
    else (none, t)
  | _ => (none, t)

/-- The digits before the point: a zero alone, or digits of which the first is not zero. -/
def takeWhole : Text → List Nat × Text
  | [] => ([], [])
  | c :: t =>
    match c.digit? with
    | none => ([], c :: t)
    | some 0 => ([0], t)
    | some _ => Text.spanDigits (c :: t)

/-- The number with the given digits before the point; without a fraction and an exponent it is
an integer. -/
def numberOf (negative : Bool) (whole fraction : List Nat) (exponent : Option Int) :
    Except Stop Tree :=
  if fraction.isEmpty && exponent.isNone then
    if digitLimit < whole.length then .error (.oversized (.read whole.length))
    else
      let n : Int := Natural.ofDigits whole
      .ok (.int (if negative then -n else n))
  else
    .ok (.float (Double.ofDecimal negative (Natural.ofDigits (whole ++ fraction))
      (exponent.getD 0 - fraction.length)))

/-- Reads a number. -/
def number (t : Text) : Reading Tree :=
  let (negative, t₁) := takeMinus t
  match takeWhole t₁ with
  | ([], _) => .error (.complaint .value t)
  | (whole, t₂) =>
    let (fraction, t₃) := takeFraction t₂
    let (exponent, t₄) := takeExponent t₃
    (numberOf negative whole fraction exponent).map fun tree => (tree, t₄)

/-! ### Strings -/

/-- The value of a hexadecimal digit. -/
def hexDigit? : CodePoint → Option Nat
  | .lone _ => none
  | .scalar c =>
    if '0' ≤ c ∧ c ≤ '9' then some (c.toNat - '0'.toNat)
    else if 'a' ≤ c ∧ c ≤ 'f' then some (c.toNat - 'a'.toNat + 10)
    else if 'A' ≤ c ∧ c ≤ 'F' then some (c.toNat - 'A'.toNat + 10)
    else none

/-- The code point with the number of four hexadecimal digits. -/
def hexPoint? (a b c d : CodePoint) : Option CodePoint := do
  let a ← hexDigit? a
  let b ← hexDigit? b
  let c ← hexDigit? c
  let d ← hexDigit? d
  return .ofNat (((a * 16 + b) * 16 + c) * 16 + d)

/-- What a letter behind a backslash stands for. -/
def escaped? (c : CodePoint) : Option CodePoint :=
  if c = .scalar '"' then some (.scalar '"')
  else if c = .scalar '\\' then some (.scalar '\\')
  else if c = .scalar '/' then some (.scalar '/')
  else if c = .scalar 'b' then some (.scalar '\x08')
  else if c = .scalar 'f' then some (.scalar '\x0c')
  else if c = .scalar 'n' then some (.scalar '\n')
  else if c = .scalar 'r' then some (.scalar '\r')
  else if c = .scalar 't' then some (.scalar '\t')
  else none

/-- A code point in front of a text that is read. -/
def prepend (c : CodePoint) (r : Reading Text) : Reading Text :=
  r.map fun (t, left) => (c :: t, left)

/-- Reads a string whose opening quote, which `opening` begins with, has been read. The number of
a code point stands in four digits with something behind them; a second number joins the first
only if there is something behind its digits too. -/
def string (opening : Text) : Text → Reading Text
  | [] => .error (.complaint .unterminated opening)
  | c :: t =>
    if c = .scalar '"' then .ok ([], t)
    else if c = .scalar '\\' then
      match t with
      | [] => .error (.complaint .unterminated opening)
      | e :: t =>
        if e = .scalar 'u' then
          match t with
          | d₁ :: d₂ :: d₃ :: d₄ :: next :: t =>
            match hexPoint? d₁ d₂ d₃ d₄ with
            | none => .error (.complaint .unicodeEscape (e :: d₁ :: d₂ :: d₃ :: d₄ :: next :: t))
            | some half =>
              match t with
              | u :: e₁ :: e₂ :: e₃ :: e₄ :: next' :: t' =>
                if half.isLeading && next = .scalar '\\' && u = .scalar 'u' then
                  match hexPoint? e₁ e₂ e₃ e₄ with
                  | none =>
                    .error (.complaint .unicodeEscape (u :: e₁ :: e₂ :: e₃ :: e₄ :: next' :: t'))
                  | some half' =>
                    if half'.isTrailing then
                      prepend (.join half half') (string opening (next' :: t'))
                    else
                      prepend half
                        (string opening (next :: u :: e₁ :: e₂ :: e₃ :: e₄ :: next' :: t'))
                else
                  prepend half (string opening (next :: u :: e₁ :: e₂ :: e₃ :: e₄ :: next' :: t'))
              | other => prepend half (string opening (next :: other))
          | other => .error (.complaint .unicodeEscape (e :: other))
        else
          match escaped? e with
          | some d => prepend d (string opening t)
          | none => .error (.complaint .escape (c :: e :: t))
    else if c.toNat < 0x20 then .error (.complaint .control (c :: t))
    else prepend c (string opening t)

/-! ### Containers -/

/-- The fields of an object: an old key keeps its place and takes the new value. -/
def putField : List (Text × Tree) → Text → Tree → List (Text × Tree)
  | [], key, value => [(key, value)]
  | (k, v) :: rest, key, value =>
    if k = key then (k, value) :: rest else (k, v) :: putField rest key value

/-- The fields that are left when they are written one after the other. -/
def fieldsOf (fields : List (Text × Tree)) : List (Text × Tree) :=
  fields.foldl (fun all f => putField all f.1 f.2) []

/-- Reads the elements of an array and the closing bracket. Each element takes up some text, so
`bound` is the length of the text. -/
def items (element : Text → Reading Tree) : Nat → Text → Reading (List Tree)
  | 0, t => .error (.complaint .value t)
  | bound + 1, t =>
    match element t with
    | .error stop => .error stop
    | .ok (head, left) =>
      match skipSpace left with
      | .scalar ']' :: left => .ok ([head], left)
      | .scalar ',' :: left =>
        (items element bound (skipSpace left)).map fun (tail, left) => (head :: tail, left)
      | left => .error (.complaint .comma left)

/-- Reads an array whose opening bracket has been read. -/
def array (element : Text → Reading Tree) (t : Text) : Reading Tree :=
  match skipSpace t with
  | .scalar ']' :: left => .ok (.array [], left)
  | t => (items element (t.length + 1) t).map fun (all, t) => (.array all, t)

/-- Reads a key and the colon behind it. -/
def key (t : Text) : Reading Text :=
  match t with
  | .scalar '"' :: r =>
    match string t r with
    | .error stop => .error stop
    | .ok (name, left) =>
      match skipSpace left with
      | .scalar ':' :: left => .ok (name, skipSpace left)
      | left => .error (.complaint .colon left)
  | _ => .error (.complaint .propertyName t)

/-- Reads the fields of an object and the closing brace. Each field takes up some text, so `bound`
is the length of the text. -/
def fields (element : Text → Reading Tree) : Nat → Text → Reading (List (Text × Tree))
  | 0, t => .error (.complaint .propertyName t)
  | bound + 1, t =>
    match key t with
    | .error stop => .error stop
    | .ok (name, left) =>
      match element left with
      | .error stop => .error stop
      | .ok (head, left) =>
        match skipSpace left with
        | .scalar '\x7d' :: left => .ok ([(name, head)], left)
        | .scalar ',' :: left =>
          (fields element bound (skipSpace left)).map fun (tail, left) =>
            ((name, head) :: tail, left)
        | left => .error (.complaint .comma left)

/-- Reads an object whose opening brace has been read. -/
def object (element : Text → Reading Tree) (t : Text) : Reading Tree :=
  match skipSpace t with
  | .scalar '\x7d' :: left => .ok (.object [], left)
  | t => (fields element (t.length + 1) t).map fun (all, t) => (.object (fieldsOf all), t)

/-! ### Values -/

/-- What is left of a text behind a word that it begins with. -/
def behind? (word : Text) (t : Text) : Option Text :=
  if word.isPrefixOf t then some (t.drop word.length) else none

/-- The words that are values. -/
def words : List (Text × Tree) :=
  [("null", .null), ("true", .bool true), ("false", .bool false), ("NaN", .float .nan),
   ("Infinity", .float (.infinity false)), ("-Infinity", .float (.infinity true))]

/-- Reads a word, a string or a number. -/
def scalar (t : Text) : Reading Tree :=
  match words.findSome? fun w => (behind? w.1 t).map (w.2, ·) with
  | some result => .ok result
  | none =>
    match t with
    | .scalar '"' :: r => (string t r).map fun (s, left) => (.text s, left)
    | _ => number t

/-- Reads a value whose containers nest no deeper than `depth`. -/
def value : (depth : Nat) → Text → Reading Tree
  | 0, t =>
    match t with
    | .scalar '[' :: _ => .error .tooDeep
    | .scalar '\x7b' :: _ => .error .tooDeep
    | _ => scalar t
  | depth + 1, t =>
    match t with
    | .scalar '[' :: r => array (value depth) r
    | .scalar '\x7b' :: r => object (value depth) r
    | _ => scalar t

/-- Reads a whole text: a value between spaces, whose containers nest no deeper than `depth`. -/
def document (depth : Nat) (t : Text) : Except Stop Tree :=
  if t.head? = some (.ofNat 0xFEFF) then .error (.complaint .byteOrderMark t)
  else
    match value depth (skipSpace t) with
    | .error stop => .error stop
    | .ok (tree, left) =>
      match skipSpace left with
      | [] => .ok tree
      | left => .error (.complaint .extra left)

/-! ### Offences with their place -/

/-- A place in a text: the number of code points before it, its line and its column. -/
structure Place where
  position : Nat
  line : Nat
  column : Nat
  deriving DecidableEq, Repr

/-- The place of what is left of a text. -/
def placeOf (whole left : Text) : Place :=
  let before := whole.take (whole.length - left.length)
  { position := before.length
    line := before.count (.scalar '\n') + 1
    column := (before.reverse.takeWhile (· != .scalar '\n')).length + 1 }

/-- Why a text is no JSON text. -/
inductive Fault where
  | malformed (c : Complaint) (place : Place)
  | tooDeep
  | oversized (o : Oversized)
  deriving DecidableEq, Repr

/-- The tree of a JSON text whose containers nest no deeper than `depth`. -/
def read (depth : Nat) (t : Text) : Except Fault Tree :=
  match document depth t with
  | .ok tree => .ok tree
  | .error (.complaint c left) => .error (.malformed c (placeOf t left))
  | .error .tooDeep => .error .tooDeep
  | .error (.oversized o) => .error (.oversized o)

/-- The wording of a complaint. -/
def Complaint.message : Complaint → Text
  | .byteOrderMark => "Unexpected UTF-8 BOM (decode using utf-8-sig)"
  | .value => "Expecting value"
  | .propertyName => "Expecting property name enclosed in double quotes"
  | .colon => "Expecting ':' delimiter"
  | .comma => "Expecting ',' delimiter"
  | .control => "Invalid control character at"
  | .escape => "Invalid \\escape"
  | .unicodeEscape => "Invalid \\uXXXX escape"
  | .unterminated => "Unterminated string starting at"
  | .extra => "Extra data"

/-- A complaint with its place. -/
def malformedMessage (c : Complaint) (place : Place) : Text :=
  c.message
    ++ Text.ofString s!": line {place.line} column {place.column} (char {place.position})"

end Json

end ParserClient
