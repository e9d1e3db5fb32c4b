import ParserClient.Fault
import ParserClient.Message.Reply
import ParserClient.Message.Request
import ParserClient.Message.Settings
import ParserClient.Pipe

/-!
# Reading frames

A line is read as a message: it is decoded from UTF-8, read as JSON and, if a shape is asked for,
read as a message of that shape. The stack of the reader must have room for the containers of the
line, once more for the tree of a reply, and for the tag in settings to be shown. Blank lines in
front of a message are skipped. A line can also be taken raw, whatever it holds. A reading call
waits at a gate that is not open.

## Main definitions

* `Frame.isBlank`, `Frame.readTree`, `Frame.readReply`, `Frame.readRequest`, `Frame.readSettings`,
  `Frame.rawText` — what is made of one line.
* `Room.holds`, `Room.shows` — there is room for the tree of a reply, or for the tag of settings.
* `Inlet.pull` — one reading call; `Inlet.pullMessage` — reading calls up to a line that is not
  blank.
-/

namespace ParserClient

/-- There is room to make the tree of the reply that an object is, if it has one. -/
def Room.holds (room : Room) (reply : Tree) : Bool :=
  (reply.field? "ast").all fun tree => tree.frames ≤ room.frames

/-- There is room to show the tag of the settings that an object is, if they have one. -/
def Room.shows (room : Room) (settings : Tree) : Bool :=
  (settings.field? "encoding").all fun tag => tag.levels ≤ room.levels

namespace Frame

/-! ### One line -/

/-- A byte of white space: tab, line feed, vertical tab, form feed, carriage return or space. -/
def isBlankByte (b : UInt8) : Bool := b = 32 || (9 ≤ b && b ≤ 13)

/-- The line holds white space only. -/
def isBlank (line : Bytes) : Bool := line.all isBlankByte

/-- The tree of a line. -/
def readTree (room : Room) (line : Bytes) : Except Fault Tree :=
  match Utf8.decode line with
  | .error f => .error (.frame (.malformed (.bytes f)))
  | .ok text =>
    match Json.read room.depth text with
    | .ok tree => .ok tree
    | .error (.malformed c place) => .error (.frame (.malformed (.json c place)))
    | .error .tooDeep => .error .tooDeep
    | .error (.oversized o) => .error (.oversized o)

/-- The message of a shape that a tree is. -/
def ofTree {α : Type} (shape : Shape) (ofValue : Value → Except (List Issue) α) (tree : Tree) :
    Except Fault α :=
  (ofValue tree.toValue).mapError (Fault.ofIssuesAs fun issues => .frame (.rejected shape issues))

/-- The message of a shape that a line holds. Where the stack has no room for the tree of the line,
nothing else that may be wrong with the message counts. -/
def readAs {α : Type} (room : Room) (fits : Tree → Bool) (shape : Shape)
    (ofValue : Value → Except (List Issue) α) (line : Bytes) : Except Fault α :=
  match readTree room line with
  | .error f => .error f
  | .ok tree => if fits tree then ofTree shape ofValue tree else .error .tooDeep

/-- The reply that a line holds. Its tree is made anew, container by container. -/
def readReply (room : Room) : Bytes → Except Fault Reply :=
  readAs room room.holds .reply Reply.ofValue

/-- The request that a line holds. -/
def readRequest (room : Room) : Bytes → Except Fault Request :=
  readAs room (fun _ => true) .request Request.ofValue

/-- The settings that a line holds. Their tag is shown before it is refused. -/
def readSettings (room : Room) : Bytes → Except Fault Settings :=
  readAs room room.shows .settings Settings.ofValue

/-- A carriage return or a line feed. -/
def isLineEnd (c : CodePoint) : Bool := c = .scalar '\r' || c = .scalar '\n'

/-- The text of a line as it stands, without the carriage returns and line feeds at its end. -/
def rawText (line : Bytes) : Text := (Utf8.decodeReplacing line).trimEnd isLineEnd

end Frame

/-! ### Lines of an inlet -/

namespace Inlet

/-- The line that a delivery of bytes is; a delivery without bytes is the end of the stream. -/
def lineOf (b : Bytes) : Except FrameFault Bytes := if b.isEmpty then .error .ended else .ok b

/-- The fault that a mishap of a reading call is. -/
def faultOf : Mishap → FrameFault
  | .misused text => .closed text
  | .refused r => .unreadable r

/-- One reading call: what it comes to and the items left, or nothing if it waits at a gate. -/
def pull (isOpen : Gate → Bool) :
    List Delivery → Option (Except FrameFault Bytes × List Delivery)
  | [] => some (.error .ended, [])
  | .bytes b :: rest => some (lineOf b, rest)
  | .mishap m :: rest => some (.error (faultOf m), rest)
  | .gate g :: rest => if isOpen g then pull isOpen rest else none

/-- Reading calls up to a line that is not blank: their number, what the last one comes to and the
items left, or nothing if one of them waits at a gate. -/
def pullMessage (isOpen : Gate → Bool) :
    List Delivery → Option (Nat × Except FrameFault Bytes × List Delivery)
  | [] => some (1, .error .ended, [])
  | .bytes b :: rest =>
    if b.isEmpty then some (1, .error .ended, rest)
    else if Frame.isBlank b then
      (pullMessage isOpen rest).map fun (reads, result, left) => (reads + 1, result, left)
    else some (1, .ok b, rest)
  | .mishap m :: rest => some (1, .error (faultOf m), rest)
  | .gate g :: rest => if isOpen g then pullMessage isOpen rest else none

end Inlet

end ParserClient
