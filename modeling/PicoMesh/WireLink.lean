import PicoMesh.ControllerOutput
import PicoMesh.HeartbeatNode
import PicoMesh.ReliableCommand
import PicoMesh.Transport

/-!
# The reliable command sketch and the heartbeat node on one bus
(`ArduinoReliableCommandController.ino`, `ArduinoHeartbeatNode.ino`)

The two programs run on boards of their own and meet on the bus only: a write of
the controller runs the receive callback of the node's endpoint, a read its
request callback.  There is no channel between them but the endpoint's two
registers, which later writes and later publishes overwrite.  The controller's
program, like the node's, is a step function over the points between its
transfers, and `wireLink` runs the two in any order.

`LinkHistory` says which command each message is about.  It is history only: no
part of either program reads it.
-/

namespace PicoMesh

/-! ### The controller's program -/

/-- Time between two commands. -/
def kCommandIntervalMs : UInt32 := 5000

/-- Time between two reads of the node. -/
def kReceivePollMs : UInt32 := 20

/-- The policy of the sketch's queue. -/
def commandPolicy : RetryPolicy := { timeoutMs := 250, maxAttempts := 3 }

/-- What every command of the sketch says. -/
def commandContent : Frame :=
  let frame : Frame := {}
  { frame with
    type := .command
    payloadLength := 2
    payload := (frame.payload.setIfInBounds 0 0x01).setIfInBounds 1 0x01 }

/-- Where the program is, with what `millis()` said at the top of `loop`. -/
inductive CommandPoint where
  /-- In `setup`. -/
  | setup
  /-- At the top of `loop`. -/
  | top
  /-- Before `transmitDue`. -/
  | transmit (nowMs : UInt32)
  /-- Before the read of an acknowledgement. -/
  | receive (nowMs : UInt32)
  deriving DecidableEq, Repr

/-- The sketch's globals, and where its program is. -/
structure CommandSketch where
  controller : Controller := { queue := .new commandPolicy }
  lastCommandMs : UInt32 := 0
  lastReceiveMs : UInt32 := 0
  point : CommandPoint := .setup

namespace CommandSketch

variable (sketch : CommandSketch)

/-- The sketch's `enqueueCommand`. -/
def enqueueCommand (nowMs : UInt32) : CommandSketch × ControllerEvent :=
  let result := sketch.controller.enqueueCommand kNodeId commandContent nowMs
  ({ sketch with controller := result.1 },
    .enqueueCommand (UInt8.ofNat sketch.controller.next) result.2)

/-- The first step of `loop`: a command, if none is pending and it is time. -/
def commandDue (nowMs : UInt32) : CommandSketch × List ControllerEvent :=
  if sketch.controller.queue.pendingCount = 0 ∧ nowMs - sketch.lastCommandMs ≥ kCommandIntervalMs
  then
    let result := { sketch with lastCommandMs := nowMs }.enqueueCommand nowMs
    (result.1, [result.2])
  else (sketch, [])

/-- The sketch's `transmitDue`, up to the transfer: the command to write, with its number. -/
def transmitDue (nowMs : UInt32) : CommandSketch × Option (ℕ × List UInt8) :=
  let result := sketch.controller.transmitDue nowMs
  ({ sketch with controller := result.1 }, result.2)

/-- The sketch's `receiveAcknowledgement`, on what `transport.receive` gives. -/
def receiveAcknowledgement (received : List UInt8 × ℕ) : CommandSketch × List ControllerEvent :=
  let bytes := received.1.take received.2
  let result := sketch.controller.receiveAcknowledgement bytes
  ({ sketch with controller := result.1 },
    match parseAckFrame (decodeFrame bytes).frame, result.2 with
    | some (sequence, status), some resolution =>
      [.receiveAcknowledgement sequence status resolution]
    | _, _ => [])

end CommandSketch

/-! ### The bus -/

/-- What the bus makes of a transfer. -/
structure BusTransfer where
  /-- Whether the node answers to its address. -/
  addressed : Bool := true
  /-- How many bytes go over. -/
  count : ℕ := kMaxEncodedFrameSize
  /-- What a read finds on the bus behind the node's own bytes. -/
  idle : UInt8 := 0xFF
  /-- How `endTransmission` says that a write ended. -/
  status : UInt8 := 0
  deriving DecidableEq, Repr

/-- A write: the node's endpoint behind it. -/
def BusTransfer.write (transfer : BusTransfer) (endpoint : WirePeripheralEndpoint)
    (data : List UInt8) : WirePeripheralEndpoint :=
  if transfer.addressed then
    let arriving := data.take transfer.count
    endpoint.receiveFromIsr arriving.length arriving
  else endpoint

/-- A read of `requested` bytes: how many `requestFrom` returns, and the bytes. -/
def BusTransfer.read (transfer : BusTransfer) (endpoint : WirePeripheralEndpoint)
    (requested : UInt8) : ℕ × List UInt8 :=
  let bytes :=
    if transfer.addressed then
      (endpoint.requestFromIsr ++ List.replicate requested.toNat transfer.idle).take
        (min transfer.count requested.toNat)
    else []
  (bytes.length, bytes)

/-! ### The link -/

/-- Which command each message is about. -/
structure LinkHistory where
  /-- The numbers of the copies that the controller has handed to its transport. -/
  copies : List ℕ := []
  /-- The number of the command whose write the endpoint holds unread. -/
  written : Option ℕ := none
  /-- The number of the command that the node's program took last. -/
  taken : Option ℕ := none
  /-- The number of the command that the published frame answers. -/
  answered : Option ℕ := none
  /-- The numbers of the commands that the node's polls gave, in order. -/
  received : List ℕ := []
  deriving DecidableEq, Repr

/-- The history behind a write of a command. -/
def LinkHistory.write (history : LinkHistory) (number : ℕ) (transfer : BusTransfer) :
    LinkHistory :=
  { history with
    copies := history.copies ++ [number]
    written := if transfer.addressed then some number else history.written }

/-- The history behind a step of the node's program, for its point before the step. -/
def LinkHistory.node (history : LinkHistory) (node : HeartbeatNode) (nowMs : UInt32)
    (polled : Option Frame) : LinkHistory :=
  match node.point with
  | .setup => { history with answered := none }
  | .top =>
    if nowMs - node.lastHeartbeatMs ≥ kHeartbeatIntervalMs then { history with answered := none }
    else history
  | .poll =>
    if polled.isSome then
      { history with
        written := none
        taken := history.written
        received := history.received ++ history.written.toList }
    else { history with written := none }
  | .answer incoming =>
    if incoming.flags &&& kFlagAckRequired ≠ 0 then { history with answered := history.taken }
    else history

/-- The two boards. -/
structure WireLink where
  sketch : CommandSketch := {}
  node : HeartbeatNode := {}
  history : LinkHistory := {}

/-- A step of either board. -/
inductive WireLinkOp where
  /-- A step of the controller, with what `millis()` says and what the bus does. -/
  | controller (nowMs : UInt32) (transfer : BusTransfer)
  /-- A step of the node. -/
  | node (nowMs uptimeMs : UInt32)
  deriving DecidableEq, Repr

/-- What a step shows: what the controller prints, or what the node's poll gave. -/
inductive WireLinkReply where
  | printed (events : List ControllerEvent)
  | polled (frame : Option Frame)
  deriving DecidableEq, Repr

namespace WireLink

/-- `transmitDue`, with the transfer. -/
def transmitDue (s : WireLink) (nowMs : UInt32) (transfer : BusTransfer) :
    WireLink × List ControllerEvent :=
  let decision := (s.sketch.controller.queue.nextDue nowMs).2
  let result := s.sketch.transmitDue nowMs
  match result.2 with
  | none => ({ s with sketch := result.1 }, [.transmitDue decision false])
  | some (number, bytes) =>
    let transport : WireControllerTransport := { address := kNodeAddress }
    let sent := transport.send List.length (fun _ _ => transfer.status) bytes
    ({ sketch := result.1
       node := { s.node with endpoint := transfer.write s.node.endpoint bytes }
       history := s.history.write number transfer }, [.transmitDue decision sent])

/-- `receiveAcknowledgement`, with the transfer. -/
def receiveAcknowledgement (s : WireLink) (transfer : BusTransfer) :
    WireLink × List ControllerEvent :=
  let transport : WireControllerTransport := { address := kNodeAddress }
  let received :=
    transport.receive (fun _ requested => transfer.read s.node.endpoint requested)
      kMaxEncodedFrameSize
  let result := s.sketch.receiveAcknowledgement received
  ({ s with sketch := result.1 }, result.2)

/-- The controller's next step. -/
def controllerStep (s : WireLink) (nowMs : UInt32) (transfer : BusTransfer) :
    WireLink × List ControllerEvent :=
  match s.sketch.point with
  | .setup =>
    let result := s.sketch.enqueueCommand nowMs
    ({ s with sketch := { result.1 with point := .top } }, [.ready .reliableCommand, result.2])
  | .top =>
    let result := s.sketch.commandDue nowMs
    ({ s with sketch := { result.1 with point := .transmit nowMs } }, result.2)
  | .transmit nowMs =>
    let result := s.transmitDue nowMs transfer
    ({ result.1 with sketch := { result.1.sketch with point := .receive nowMs } }, result.2)
  | .receive nowMs =>
    let s := { s with sketch := { s.sketch with point := .top } }
    if nowMs - s.sketch.lastReceiveMs ≥ kReceivePollMs then
      { s with sketch := { s.sketch with lastReceiveMs := nowMs } }.receiveAcknowledgement transfer
    else (s, [])

/-- One step of either board. -/
def step (s : WireLink) : WireLinkOp → WireLink × WireLinkReply
  | .controller nowMs transfer =>
    let result := s.controllerStep nowMs transfer
    (result.1, .printed result.2)
  | .node nowMs uptimeMs =>
    let result := s.node.step nowMs uptimeMs
    ({ s with node := result.1, history := s.history.node s.node nowMs result.2 },
      .polled result.2)

end WireLink

/-- The link from the start of both boards. -/
def wireLink : Mealy WireLink WireLinkOp WireLinkReply where
  start := {}
  step := WireLink.step

end PicoMesh
