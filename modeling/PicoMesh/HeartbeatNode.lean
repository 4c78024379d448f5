import PicoMesh.Reliability
import PicoMesh.WirePeripheralEndpoint

/-!
# The heartbeat node sketch (`ArduinoHeartbeatNode.ino`)

The sketch publishes a heartbeat every second, polls its endpoint, and answers
each frame that asks for it with an acknowledgement.  The callbacks of `Wire`
run between its calls of `publish` and `poll`, so the program is a step function
over the points at which they can: a pass through `loop` is up to three steps.
-/

namespace PicoMesh

/-- The node ID of the sketches that run one node. -/
def kNodeId : UInt8 := 0

/-- Its address. -/
def kNodeAddress : UInt8 := 0x42

/-- Time between two heartbeats. -/
def kHeartbeatIntervalMs : UInt32 := 1000

/-- The four payload bytes of an uptime, the least significant first. -/
def uptimePayload (uptimeMs : UInt32) : Vector UInt8 kMaxPayloadSize :=
  let payload : Vector UInt8 kMaxPayloadSize := Vector.replicate _ 0
  let payload := payload.setIfInBounds 0 uptimeMs.toUInt8
  let payload := payload.setIfInBounds 1 (uptimeMs >>> 8).toUInt8
  let payload := payload.setIfInBounds 2 (uptimeMs >>> 16).toUInt8
  payload.setIfInBounds 3 (uptimeMs >>> 24).toUInt8

/-- The frame that `publishHeartbeat` builds. -/
def heartbeatFrame (sequence : UInt8) (uptimeMs : UInt32) : Frame :=
  { type := .heartbeat
    nodeId := kNodeId
    sequence
    payloadLength := 4
    payload := uptimePayload uptimeMs }

/-- Where the program is. -/
inductive NodePoint where
  /-- In `setup`, before its heartbeat. -/
  | setup
  /-- At the top of `loop`. -/
  | top
  /-- Before `poll`. -/
  | poll
  /-- Behind it, with the frame it gave. -/
  | answer (incoming : Frame)
  deriving DecidableEq, Repr

/-- The sketch's globals, and where its program is. -/
structure HeartbeatNode where
  endpoint : WirePeripheralEndpoint := {}
  sequenceNumber : UInt8 := 0
  lastHeartbeatMs : UInt32 := 0
  point : NodePoint := .setup
  deriving DecidableEq, Repr

namespace HeartbeatNode

variable (node : HeartbeatNode)

/-- Publish a frame under the next sequence number. -/
def publishNext (frame : UInt8 → Frame) : HeartbeatNode :=
  { node with
    endpoint := (node.endpoint.publish (frame node.sequenceNumber)).1
    sequenceNumber := node.sequenceNumber + 1 }

/-- Publish a heartbeat. -/
def publishHeartbeat (uptimeMs : UInt32) : HeartbeatNode :=
  node.publishNext (heartbeatFrame · uptimeMs)

/-- Answer a frame, if it asks for it. -/
def acknowledge (incoming : Frame) : HeartbeatNode :=
  if incoming.flags &&& kFlagAckRequired ≠ 0 then
    node.publishNext (makeAckFrame kNodeId · incoming.sequence .accepted)
  else node

/-- The program's next step, with what `millis()` says at the top of `loop` and
what it says when a heartbeat is built; the frame that `poll` gives. -/
def step (nowMs uptimeMs : UInt32) : HeartbeatNode × Option Frame :=
  match node.point with
  | .setup => ({ node.publishHeartbeat uptimeMs with point := .top }, none)
  | .top =>
    if nowMs - node.lastHeartbeatMs ≥ kHeartbeatIntervalMs then
      let node := { node with lastHeartbeatMs := nowMs }
      ({ node.publishHeartbeat uptimeMs with point := .poll }, none)
    else ({ node with point := .poll }, none)
  | .poll =>
    let polled := node.endpoint.poll {} none
    let node := { node with endpoint := polled.1 }
    if polled.2.received then
      ({ node with point := .answer polled.2.frame }, some polled.2.frame)
    else ({ node with point := .top }, none)
  | .answer incoming => ({ node.acknowledge incoming with point := .top }, none)

end HeartbeatNode

end PicoMesh
