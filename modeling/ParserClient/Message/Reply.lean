import ParserClient.Message.Issue
import ParserClient.Text.Lowercase
import ParserClient.Tree

/-!
# Replies

A reply to a request says how the parse went, with errors and a tree. The status is folded to
lower case; three of them are known, any other is kept as it is. Each of the three fields may be
absent or nothing.

## Main definitions

* `Status`, `Status.ofText`, `Status.name`.
* `Reply`, `Reply.ofValue`.
-/

namespace ParserClient

/-- How a parse went. -/
inductive Status where
  | ok
  | error
  | fatal
  | other (name : Text)
  deriving DecidableEq, Repr

namespace Status

/-- The status with exactly the given name. -/
def ofText (t : Text) : Status :=
  if t = Text.ofString "ok" then .ok
  else if t = Text.ofString "error" then .error
  else if t = Text.ofString "fatal" then .fatal
  else .other t

/-- The name of a status. -/
def name : Status → Text
  | .ok => "ok"
  | .error => "error"
  | .fatal => "fatal"
  | .other name => name

/-- The status is one of the three known ones. -/
def isKnown : Status → Bool
  | .other _ => false
  | _ => true

theorem name_ofText (t : Text) : (ofText t).name = t := by
  unfold ofText
  split
  · next h => exact h.symm
  · split
    · next h => exact h.symm
    · split
      · next h => exact h.symm
      · rfl

end Status

/-- A reply to a request. -/
structure Reply where
  status : Status
  errors : List Text
  tree : Tree

namespace Reply

/-- The status of a reply. A text is folded to lower case; what is no text is wanted to be one of
the known names or any text. -/
def readStatus : Option Value → Except (List Issue) Status
  | none => .ok (.other [])
  | some .null => .ok (.other [])
  | some (.text t) => .ok (Status.ofText t.lower)
  | some v =>
    match v.asText with
    | .ok t => .ok (Status.ofText t)
    | .error want =>
      .error [⟨[.field "status", .field "str-enum[Status]"], .status⟩,
        ⟨[.field "status", .field "str"], want⟩]

/-- The texts of a list of errors that begins at the given index, or all issues in it. -/
def readErrorsFrom (index : Nat) : List Value → Except (List Issue) (List Text)
  | [] => .ok []
  | v :: rest =>
    match v.asText, readErrorsFrom (index + 1) rest with
    | .ok t, .ok ts => .ok (t :: ts)
    | .ok _, .error is => .error is
    | .error want, .ok _ => .error [⟨[.field "errors", .index index], want⟩]
    | .error want, .error is => .error (⟨[.field "errors", .index index], want⟩ :: is)

/-- The errors of a reply. -/
def readErrors : Option Value → Except (List Issue) (List Text)
  | none => .ok []
  | some .null => .ok []
  | some (.list items) => readErrorsFrom 0 items
  | some (.tuple items) => readErrorsFrom 0 items
  | some (.set items) => readErrorsFrom 0 items
  | some _ => .error [⟨[.field "errors"], .list⟩]

/-- The tree of a reply. -/
def readTree : Option Value → Except (List Issue) Tree
  | none => .ok .null
  | some v => (Tree.ofValue v).mapError fun fault => [⟨[.field "ast"], .other fault.message⟩]

/-- The reply that a value is. -/
def ofValue : Value → Except (List Issue) Reply
  | .mapping entries =>
    let status := readStatus (Entries.get? entries "status")
    let errors := readErrors (Entries.get? entries "errors")
    let tree := readTree (Entries.get? entries "ast")
    match status, errors, tree with
    | .ok status, .ok errors, .ok tree => .ok ⟨status, errors, tree⟩
    | _, _, _ => .error (issuesIn status ++ issuesIn errors ++ issuesIn tree)
  | _ => .error [⟨[], .shape .reply⟩]

end Reply

end ParserClient
