import ParserClient.Fault
import ParserClient.Message.Request
import ParserClient.Pipe

/-!
# Writing frames

A *frame* is a message as one line: its JSON text in UTF-8 and a line feed. A frame is made before
anything is written, so a message without a frame leaves no byte on the pipe. A frame is sent by
one write of the whole line and one flush; the flush is left out when the write has a mishap.

## Main definitions

* `Frame.ofValue`, `Frame.ofRequest`.
* `Outlet.send`.
-/

namespace ParserClient

/-- The frame of a message. -/
def Frame.ofValue (message : Value) : Except FrameFault Bytes :=
  match Json.write message with
  | .error f => .error (.unencodable (.json f))
  | .ok text =>
    match Utf8.encode (text ++ ("\n" : Text)) with
    | .error f => .error (.unencodable (.bytes f))
    | .ok bytes => .ok bytes

/-- The frame of a request. -/
def Frame.ofRequest (request : Request) : Except FrameFault Bytes := Frame.ofValue request.toValue

namespace Outlet

/-- What a call has come to. -/
def outcome (attempt : Attempt) : Except FrameFault Unit :=
  match attempt.mishap with
  | none => .ok ()
  | some m => .error (.unwritable m)

/-- Sends a frame: the calls made, what they have come to, and the outlet afterwards. -/
def send (o : Outlet) (frame : Bytes) : List PipeEvent × Except FrameFault Unit × Outlet :=
  match outcome o.nextWrite with
  | .error f => ([.write frame], .error f, o.dropWrite)
  | .ok () =>
    ([.write frame, .flush], outcome o.dropWrite.nextFlush, o.dropWrite.dropFlush)

/-- Makes the frame of a message and sends it. -/
def sendValue (o : Outlet) (message : Value) :
    List PipeEvent × Except FrameFault Unit × Outlet :=
  match Frame.ofValue message with
  | .error f => ([], .error f, o)
  | .ok frame => o.send frame

end Outlet

end ParserClient
