import PicoMesh.PollingController
import PicoMesh.WireLink

/-!
# The heartbeat controller and the heartbeat node on one bus
(`ArduinoHeartbeatController.ino`, `ArduinoHeartbeatNode.ino`)

The controller only reads, so nothing that the node polls ever comes of it, and
what a read brings is the frame that the node published last.  Each board has a
clock of its own.  The node's tells the true time modulo 2^32; the controller's
may say anything.

`HeartbeatHistory` counts the heartbeats without wrapping and notes which one a
read brings.  It is history only: no part of either program reads it.
-/

namespace PicoMesh

/-- What was published and what was read. -/
structure HeartbeatHistory where
  /-- The true time of the last step. -/
  now : ℕ := 0
  /-- How many frames the node has published. -/
  published : ℕ := 0
  /-- When its `loop` published a heartbeat last. -/
  heartbeatAt : ℕ := 0
  /-- The valid reads in order: when each was made, and the number of the frame it brought. -/
  reads : List (ℕ × ℕ) := []
  deriving DecidableEq, Repr

/-- Whether an event is the read of a valid frame. -/
def ControllerEvent.isValidRead : ControllerEvent → Bool
  | .heartbeatRead _ decoded => decoded.ok
  | _ => false

namespace HeartbeatHistory

variable (history : HeartbeatHistory)

/-- The history behind a step of the node's program, for its point before the step. -/
def node (node : HeartbeatNode) (time : ℕ) : HeartbeatHistory :=
  let history := { history with now := time }
  match node.point with
  | .setup => { history with published := history.published + 1 }
  | .top =>
    if UInt32.ofNat time - node.lastHeartbeatMs ≥ kHeartbeatIntervalMs then
      { history with published := history.published + 1, heartbeatAt := time }
    else history
  | .poll => history
  | .answer incoming =>
    if incoming.flags &&& kFlagAckRequired ≠ 0 then
      { history with published := history.published + 1 }
    else history

/-- The history behind a pass of the controller that printed some events. -/
def controller (time : ℕ) (printed : List ControllerEvent) : HeartbeatHistory :=
  { history with
    now := time
    reads := history.reads ++
      (printed.filter ControllerEvent.isValidRead).map fun _ => (time, history.published - 1) }

end HeartbeatHistory

/-- The two boards. -/
structure HeartbeatLink where
  sketch : PollingSketch := {}
  node : HeartbeatNode := {}
  history : HeartbeatHistory := {}

/-- A step of either board at a true time. -/
inductive HeartbeatLinkOp where
  /-- A pass of the controller through `loop`, with what its `millis()` says and what the bus
  does. -/
  | controller (time : ℕ) (nowMs : UInt32) (transfer : BusTransfer)
  /-- A step of the node, with what its `millis()` says when a heartbeat is built. -/
  | node (time : ℕ) (uptimeMs : UInt32)
  deriving DecidableEq, Repr

/-- When a step is made. -/
def HeartbeatLinkOp.time : HeartbeatLinkOp → ℕ
  | .controller time _ _ => time
  | .node time _ => time

/-- One step of either board, with what the controller prints. -/
def HeartbeatLink.step (s : HeartbeatLink) :
    HeartbeatLinkOp → HeartbeatLink × List ControllerEvent
  | .controller time nowMs transfer =>
    let result :=
      s.sketch.loop .heartbeat (fun _ requested => transfer.read s.node.endpoint requested) nowMs
    ({ s with sketch := result.1, history := s.history.controller time result.2 }, result.2)
  | .node time uptimeMs =>
    ({ s with
        node := (s.node.step (UInt32.ofNat time) uptimeMs).1
        history := s.history.node s.node time }, [])

/-- Time does not run back. -/
def HeartbeatLink.InOrder (s : HeartbeatLink) (op : HeartbeatLinkOp) : Prop :=
  s.history.now ≤ op.time

instance (s : HeartbeatLink) (op : HeartbeatLinkOp) : Decidable (s.InOrder op) :=
  inferInstanceAs (Decidable (_ ≤ _))

end PicoMesh
