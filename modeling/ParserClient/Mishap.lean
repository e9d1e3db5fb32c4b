import ParserClient.Number.Integer
import ParserClient.Text.Quoted

/-!
# Mishaps

An operation on a pipe or a process goes wrong in one of two ways: the system refuses it, with a
number, a text and sometimes the name of the file concerned, or the operation does not apply to
the thing it is called on, as when a pipe is closed already.

## Main definitions

* `Refusal`, `Mishap` and their wording.
-/

namespace ParserClient

/-- A refusal of the system. -/
structure Refusal where
  number : Int
  text : Text
  file : Option Text
  deriving DecidableEq, Repr

/-- The wording of a refusal: the number, the text and the quoted name of the file. -/
def Refusal.message (r : Refusal) : Text :=
  ("[Errno " : Text) ++ Integer.text r.number ++ ("] " : Text) ++ r.text
    ++ (match r.file with
        | none => []
        | some file => (": " : Text) ++ file.quoted)

/-- An operation on a pipe or a process goes wrong. -/
inductive Mishap where
  | refused (r : Refusal)
  | misused (text : Text)
  deriving DecidableEq, Repr

/-- The wording of a mishap. -/
def Mishap.message : Mishap → Text
  | .refused r => r.message
  | .misused text => text

end ParserClient
