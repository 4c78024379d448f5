import Mathlib.Data.Nat.Digits.Defs
import PicoMesh.Reliability

/-!
# What the Arduino controller sketches print (`ArduinoHeartbeatController.ino`,
`ArduinoMultiNodeController.ino`, `ArduinoReliableCommandController.ino`)

An event is a pass through one of the functions that print, with the values it
prints from; `line` is the list of its calls of `Serial.print`, of which the last
one is a `Serial.println`.  Numbers are printed in decimal, or in upper-case
hexadecimal with `HEX`.
-/

namespace PicoMesh

/-! ### Printing -/

/-- The digit of a value below 16. -/
def printDigit (d : ℕ) : Char :=
  if d < 10 then Char.ofNat ('0'.toNat + d) else Char.ofNat ('A'.toNat + (d - 10))

/-- The digits of a number in a base, the most significant first. -/
def printNumber (base n : ℕ) : List Char :=
  if n = 0 then ['0'] else ((Nat.digits base n).map printDigit).reverse

/-- A call of `Serial.print`. -/
inductive PrintCall where
  | text (s : String)
  | dec (n : ℕ)
  /-- With `HEX`. -/
  | hex (n : ℕ)
  deriving DecidableEq, Repr

/-- The characters that a call prints. -/
def PrintCall.output : PrintCall → List Char
  | .text s => s.toList
  | .dec n => printNumber 10 n
  | .hex n => printNumber 16 n

/-- The characters that a list of calls prints. -/
def render (calls : List PrintCall) : List Char := calls.flatMap PrintCall.output

/-! ### The sketches -/

/-- The sketches. -/
inductive ControllerSketch where
  | heartbeat
  | multiNode
  | reliableCommand
  deriving DecidableEq, Repr

/-- What a sketch prints in `setup`. -/
def ControllerSketch.banner : ControllerSketch → String
  | .heartbeat => "PicoMesh Arduino heartbeat controller ready"
  | .multiNode => "PicoMesh multi-node controller ready"
  | .reliableCommand => "PicoMesh reliable command controller ready"

/-- A pass through a function that prints. -/
inductive ControllerEvent where
  /-- `setup` of a sketch. -/
  | ready (sketch : ControllerSketch)
  /-- `loop` of the heartbeat sketch, with what `receive` and `decode_frame` return. -/
  | heartbeatRead (length : ℕ) (decoded : DecodeResult)
  /-- `pollNode` of the multi-node sketch, with what they return there. -/
  | pollNode (address : UInt8) (length : ℕ) (decoded : DecodeResult)
  /-- The end of `loop` of either, with what `online_count` returns. -/
  | onlineCount (count : ℕ)
  /-- `enqueueCommand`, with the command's sequence and what `enqueue` returns. -/
  | enqueueCommand (sequence : UInt8) (result : QueueResult)
  /-- `transmitDue`, with what `next_due` and, for a send, `transport.send` return. -/
  | transmitDue (decision : TxDecision) (sent : Bool)
  /-- `receiveAcknowledgement` from `acknowledge` on, with the acknowledgement's fields and what
  `acknowledge` returns. -/
  | receiveAcknowledgement (acknowledgedSequence : UInt8) (status : AckStatus)
      (resolution : AckResolution)
  deriving DecidableEq, Repr

/-- The line that an event prints; `transmitDue` prints none when nothing is due. -/
def ControllerEvent.line : ControllerEvent → Option (List PrintCall)
  | .ready sketch => some [.text sketch.banner]
  | .heartbeatRead length decoded =>
    if decoded.ok then
      some [.text "node=", .dec decoded.frame.nodeId.toNat,
        .text " sequence=", .dec decoded.frame.sequence.toNat,
        .text " type=0x", .hex decoded.frame.type.raw.toNat]
    else some [.text "No valid frame, bytes=", .dec length]
  | .pollNode address length decoded =>
    if !decoded.ok then
      some [.text "address=0x", .hex address.toNat, .text " invalid bytes=", .dec length]
    else
      some [.text "address=0x", .hex address.toNat, .text " node=", .dec decoded.frame.nodeId.toNat,
        .text " sequence=", .dec decoded.frame.sequence.toNat,
        .text " type=0x", .hex decoded.frame.type.raw.toNat]
  | .onlineCount count => some [.text "online nodes=", .dec count]
  | .enqueueCommand sequence result =>
    if result = .queued then some [.text "queued command sequence=", .dec sequence.toNat]
    else some [.text "unable to queue command"]
  | .transmitDue decision sent =>
    match decision.action with
    | .none => none
    | .exhausted => some [.text "retry exhausted sequence=", .dec decision.frame.sequence.toNat]
    | .send =>
      some [.text "send sequence=", .dec decision.frame.sequence.toNat,
        .text " attempt=", .dec decision.attempts.toNat,
        .text " result=", .text (if sent then "ok" else "bus-error")]
  | .receiveAcknowledgement acknowledgedSequence status resolution =>
    some [.text "ack sequence=", .dec acknowledgedSequence.toNat,
      .text " status=", .dec status.raw.toNat,
      .text " matched=", .text (if resolution = .notFound then "no" else "yes")]

/-- The output of a run of events; `println` ends its line. -/
def serialOutput (events : List ControllerEvent) : List Char :=
  (events.filterMap ControllerEvent.line).flatMap fun calls => render calls ++ ['\r', '\n']

end PicoMesh
