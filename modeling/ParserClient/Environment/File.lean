import ParserClient.Environment
import ParserClient.Text.Blank

/-!
# Environment files

The text of an environment file is a sequence of bindings and comments. A binding is a name and
possibly a value behind an equals sign; the word `export` may stand in front. A value may be
quoted with single or with double marks, may then run over several lines, and may hold escapes. A
value that is not quoted ends with its line or with a comment that has a blank in front. A line
that holds anything else is passed over. The text may begin with a byte order mark. No name of a
variable in a value is replaced.

This is one reader of environment files, for files of simple lines; what is proved of environments
holds for others too.

## Main definitions

* `EnvironmentFile.readKey`, `EnvironmentFile.readValue`, `EnvironmentFile.readBinding` — the
  parts of a binding; each gives back the text that it leaves, also when it fails.
* `EnvironmentFile.read` — the bindings of a text, in order.
* `Variables.loadAll` — loading bindings one after the other.
* `EnvironmentReader.plain` — the reader.
-/

namespace ParserClient

namespace EnvironmentFile

/-- A part that is read, with the text left behind it; a failure keeps the text at which it
happens. -/
abbrev Reading (α : Type) := Except Text (α × Text)

/-- The end of a line. -/
def lineFeed : CodePoint := .scalar '\n'

/-- What begins a comment. -/
def commentMark : CodePoint := .scalar '#'

/-- The text without the byte order mark that it may begin with. A second one, or one elsewhere, is
part of the text. -/
def withoutByteOrderMark : Text → Text
  | [] => []
  | c :: t => if c = .ofNat 0xFEFF then t else c :: t

/-- Every end of a line is made a line feed. -/
def withLineFeeds : Text → Text
  | .scalar '\r' :: .scalar '\n' :: t => lineFeed :: withLineFeeds t
  | .scalar '\r' :: t => lineFeed :: withLineFeeds t
  | c :: t => c :: withLineFeeds t
  | [] => []

/-- A blank within a line. -/
def isSpace (c : CodePoint) : Bool := c.isBlank && c ≠ lineFeed

/-- The text behind the blanks of a line. -/
def skipSpaces (t : Text) : Text := t.dropWhile isSpace

/-- The text behind the current line. -/
def skipLine (t : Text) : Text := (t.dropWhile (· ≠ lineFeed)).tail

/-- The text behind the word `export` and the blanks that follow it, if it begins so. -/
def skipExport (t : Text) : Text :=
  let word : Text := "export"
  if word.isPrefixOf t && (t.drop word.length).head?.any isSpace then
    skipSpaces (t.drop word.length)
  else t

/-! ### Names -/

/-- A code point of a name that is not quoted. -/
def isNamePoint (c : CodePoint) : Bool := !c.isBlank && c ≠ commentMark && c ≠ .scalar '='

/-- The name of a binding; a comment has none. -/
def readKey (t : Text) : Reading (Option Text) :=
  match t with
  | .scalar '#' :: _ => .ok (none, t)
  | .scalar '\'' :: body =>
    match body.span (· ≠ .scalar '\'') with
    | (_ :: _, []) => .error t
    | ([], _) => .error t
    | (name, _ :: rest) => .ok (some name, rest)
  | _ =>
    match t.span isNamePoint with
    | ([], _) => .error t
    | (name, rest) => .ok (some name, rest)

/-! ### Values -/

/-- The body of a quoted value, up to the closing mark, and what follows that. A backslash and
the code point behind it belong to the body together. -/
def readBody (mark : CodePoint) : Text → Option (Text × Text)
  | [] => none
  | .scalar '\\' :: d :: t =>
    (readBody mark t).map fun (body, rest) => (.scalar '\\' :: d :: body, rest)
  | c :: t =>
    if c = mark then some ([], t)
    else (readBody mark t).map fun (body, rest) => (c :: body, rest)

/-- What a code point behind a backslash stands for between single marks. -/
def singleEscape? : CodePoint → Option CodePoint
  | .scalar '\\' => some (.scalar '\\')
  | .scalar '\'' => some (.scalar '\'')
  | _ => none

/-- What a code point behind a backslash stands for between double marks. -/
def doubleEscape? : CodePoint → Option CodePoint
  | .scalar '\\' => some (.scalar '\\')
  | .scalar '\'' => some (.scalar '\'')
  | .scalar '"' => some (.scalar '"')
  | .scalar 'a' => some (.ofNat 7)
  | .scalar 'b' => some (.ofNat 8)
  | .scalar 't' => some (.ofNat 9)
  | .scalar 'n' => some (.ofNat 10)
  | .scalar 'v' => some (.ofNat 11)
  | .scalar 'f' => some (.ofNat 12)
  | .scalar 'r' => some (.ofNat 13)
  | _ => none

/-- The text with its escapes replaced by what they stand for. A backslash that begins none is
kept. -/
def unescape (escape? : CodePoint → Option CodePoint) : Text → Text
  | .scalar '\\' :: d :: t =>
    match escape? d with
    | some e => e :: unescape escape? t
    | none => .scalar '\\' :: unescape escape? (d :: t)
  | c :: t => c :: unescape escape? t
  | [] => []

/-- The part of a text in front of the first comment that has a blank in front. -/
def beforeComment : Text → Text
  | [] => []
  | c :: t =>
    if c.isBlank && (t.dropWhile CodePoint.isBlank).head? = some commentMark then []
    else c :: beforeComment t

/-- The value behind an equals sign. -/
def readValue (t : Text) : Reading Text :=
  match skipSpaces t with
  | .scalar '\'' :: body =>
    match readBody (.scalar '\'') body with
    | some (body, rest) => .ok (unescape singleEscape? body, rest)
    | none => .error body
  | .scalar '"' :: body =>
    match readBody (.scalar '"') body with
    | some (body, rest) => .ok (unescape doubleEscape? body, rest)
    | none => .error body
  | _ =>
    let (line, rest) := t.span (· ≠ lineFeed)
    .ok ((beforeComment line).trim CodePoint.isBlank, rest)

/-- The equals sign and the value behind it, or nothing. -/
def readAssignment (t : Text) : Reading (Option Text) :=
  match t with
  | .scalar '=' :: t => (readValue t).map fun (value, rest) => (some value, rest)
  | _ => .ok (none, t)

/-- The end of a line, with blanks and a comment in front of it. -/
def readEnd (t : Text) : Reading Unit :=
  match skipSpaces t with
  | [] => .ok ((), [])
  | .scalar '\n' :: rest => .ok ((), rest)
  | .scalar '#' :: rest => .ok ((), skipLine rest)
  | _ => .error t

/-! ### Bindings -/

/-- The binding at the beginning of a text, if there is a name. -/
def readBinding (t : Text) : Reading (Option Binding) :=
  match readKey (skipExport t) with
  | .error t => .error t
  | .ok (key, t) =>
    match readAssignment (skipSpaces t) with
    | .error t => .error t
    | .ok (value, t) => (readEnd t).map fun (_, t) => (key.map (·, value), t)

/-- The bindings of a text, of at most `bound` bindings, comments and lines that are neither. -/
def readAll : (bound : Nat) → Text → List Binding
  | 0, _ => []
  | bound + 1, t =>
    match t.dropWhile CodePoint.isBlank with
    | [] => []
    | c :: t =>
      match readBinding (c :: t) with
      | .ok (some b, rest) => b :: readAll bound rest
      | .ok (none, rest) => readAll bound rest
      | .error rest => readAll bound (skipLine rest)

/-- The bindings of a text in order. Each takes up a code point at least, so there are no more of
them than code points. -/
def read (t : Text) : List Binding := readAll t.length (withLineFeeds (withoutByteOrderMark t))

end EnvironmentFile

/-! ### Loading -/

namespace Variables

/-- Why a process does not take a variable: its name is empty or holds an equals sign, or there is
the null character in its name or value. -/
def refusal? (name value : Text) : Option Mishap :=
  if .scalar '\x00' ∈ name ++ value then some (.misused "embedded null byte")
  else if .scalar '=' ∈ name then some (.misused "illegal environment variable name")
  else if name = [] then some (.refused ⟨22, "Invalid argument", none⟩)
  else none

/-- Loads bindings one after the other, up to the first that the process does not take. Only
bindings with a value are loaded; one of a variable that is set already is loaded only if the
override is forced. -/
def loadAll (vars : Variables) (forced : Bool) : Bindings → Except Fault Unit × Variables
  | [] => (.ok (), vars)
  | (_, none) :: rest => loadAll vars forced rest
  | (name, some value) :: rest =>
    if (vars.get? name).isSome && !forced then loadAll vars forced rest
    else
      match refusal? name value with
      | some m => (.error (.mishap m), vars)
      | none => loadAll (vars.put name value) forced rest

end Variables

/-- The reader of files of simple lines. -/
def EnvironmentReader.plain : EnvironmentReader where
  values _ text := Table.collect (EnvironmentFile.read text)
  load vars text forced := vars.loadAll forced (Table.collect (EnvironmentFile.read text))

end ParserClient
