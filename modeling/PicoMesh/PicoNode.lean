import PicoMesh.HeartbeatNode
import PicoMesh.PeripheralEndpoint

/-!
# The Pico heartbeat node (`PicoSdkI2cNode/main.cpp`)

The program publishes a heartbeat every second, polls its endpoint, and answers
each frame that asks for it with an acknowledgement; it does not look at what
`publish` returns.  Interrupts come between the atomic steps of its calls, so the
program is a step function over the points at which they can.
-/

namespace PicoMesh

/-- Where the program is. -/
inductive PicoNodePoint where
  /-- Before the heartbeat in front of the loop. -/
  | setup
  /-- At the top of the loop. -/
  | top
  /-- Before `poll`. -/
  | poll
  /-- Behind it, with the frame it gave. -/
  | answer (incoming : Frame)
  /-- Before the critical section of `publish`, with whether `poll` comes next. -/
  | publishing (polls : Bool)
  deriving DecidableEq, Repr

/-- The program's variables and its endpoint, and where the program is. -/
structure PicoNode where
  thread : EndpointThread := {}
  sequenceNumber : UInt8 := 0
  lastHeartbeatMs : UInt64 := 0
  point : PicoNodePoint := .setup
  deriving DecidableEq, Repr

namespace PicoNode

variable (node : PicoNode)

/-- An atomic step at the endpoint, with what it shows. -/
def call (op : EndpointOp) : PicoNode × Option (EndpointOp × EndpointReply) :=
  let result := node.thread.step op
  ({ node with thread := result.1 }, some (op, result.2))

/-- The first step of a `publish` of a frame under the next sequence number. -/
def publishNext (frame : UInt8 → Frame) (polls : Bool) :
    PicoNode × Option (EndpointOp × EndpointReply) :=
  let result := node.call (.beginPublish (frame node.sequenceNumber))
  ({ result.1 with
      sequenceNumber := node.sequenceNumber + 1
      point := .publishing polls }, result.2)

/-- The frame that `poll` gives: it returns true when the message that it takes is one. -/
def received : EndpointReply → Option Frame
  | .polled (some message) => if message.decoded.ok then some message.decoded.frame else none
  | _ => none

/-- The program's next step, with what the clock says at the top of the loop and when a heartbeat
is built; the step at the endpoint, if it makes one. -/
def step (nowMs : UInt64) (uptimeMs : UInt32) : PicoNode × Option (EndpointOp × EndpointReply) :=
  match node.point with
  | .setup => node.publishNext (heartbeatFrame · uptimeMs) false
  | .top =>
    if nowMs - node.lastHeartbeatMs ≥ 1000 then
      { node with lastHeartbeatMs := nowMs }.publishNext (heartbeatFrame · uptimeMs) true
    else ({ node with point := .poll }, none)
  | .poll =>
    let result := node.call .poll
    let point :=
      match received (node.thread.step .poll).2 with
      | some incoming => .answer incoming
      | none => .top
    ({ result.1 with point }, result.2)
  | .answer incoming =>
    if incoming.flags &&& kFlagAckRequired ≠ 0 then
      node.publishNext (makeAckFrame kNodeId · incoming.sequence .accepted) false
    else ({ node with point := .top }, none)
  | .publishing polls =>
    let result := node.call .commitPublish
    ({ result.1 with point := if polls then .poll else .top }, result.2)

end PicoNode

/-- A step of the program, or an interrupt. -/
inductive PicoNodeOp where
  | main (nowMs : UInt64) (uptimeMs : UInt32)
  | irq (event : IrqEvent)
  deriving DecidableEq, Repr

/-- One step of either. -/
def PicoNode.next (node : PicoNode) : PicoNodeOp → PicoNode × Option (EndpointOp × EndpointReply)
  | .main nowMs uptimeMs => node.step nowMs uptimeMs
  | .irq event => node.call (.irq event)

end PicoMesh
