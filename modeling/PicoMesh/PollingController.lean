import PicoMesh.ControllerOutput
import PicoMesh.HeartbeatNode
import PicoMesh.NodeRegistry
import PicoMesh.Transport

/-!
# The polling controller sketches (`ArduinoHeartbeatController.ino`,
`ArduinoMultiNodeController.ino`)

Both read their nodes twice a second, note each valid frame in a registry and
print how many nodes are online.  They differ in which nodes they read, and in
what they print of a read.
-/

namespace PicoMesh

/-- Time between two polls. -/
def kPollIntervalMs : UInt32 := 500

/-- The addresses of the multi-node sketch. -/
def kFirstNodeAddress : UInt8 := 0x42

def kSecondNodeAddress : UInt8 := 0x43

/-- The two programs. -/
inductive PollingProgram where
  | heartbeat
  | multiNode
  deriving DecidableEq, Repr

/-- The sketch that a program is. -/
def PollingProgram.sketch : PollingProgram → ControllerSketch
  | .heartbeat => .heartbeat
  | .multiNode => .multiNode

/-- The addresses that `loop` reads, in order, each with what is printed of the read. -/
def PollingProgram.reads : PollingProgram → List (UInt8 × (ℕ → DecodeResult → ControllerEvent))
  | .heartbeat => [(kNodeAddress, .heartbeatRead)]
  | .multiNode =>
    [(kFirstNodeAddress, .pollNode kFirstNodeAddress),
      (kSecondNodeAddress, .pollNode kSecondNodeAddress)]

/-- The sketch's globals. -/
structure PollingSketch where
  registry : NodeRegistry := .new 2500
  lastPollMs : UInt32 := 0

namespace PollingSketch

/-- `pollNode`, and the part of the heartbeat sketch's `loop` that does the same: a read of one
node. -/
def pollNode (sketch : PollingSketch) (requestFrom : UInt8 → UInt8 → ℕ × List UInt8)
    (nowMs : UInt32) (read : UInt8 × (ℕ → DecodeResult → ControllerEvent)) :
    PollingSketch × ControllerEvent :=
  let transport : WireControllerTransport := { address := read.1 }
  let received := transport.receive requestFrom kMaxEncodedFrameSize
  let decoded := decodeFrame (received.1.take received.2)
  let sketch :=
    if decoded.ok then
      { sketch with
        registry :=
          (sketch.registry.observe decoded.frame.nodeId decoded.frame.sequence nowMs).1 }
    else sketch
  (sketch, read.2 received.2 decoded)

/-- The reads of a pass. -/
def pollNodes (sketch : PollingSketch) (requestFrom : UInt8 → UInt8 → ℕ × List UInt8)
    (nowMs : UInt32) :
    List (UInt8 × (ℕ → DecodeResult → ControllerEvent)) → PollingSketch × List ControllerEvent
  | [] => (sketch, [])
  | read :: reads =>
    let result := sketch.pollNode requestFrom nowMs read
    let rest := result.1.pollNodes requestFrom nowMs reads
    (rest.1, result.2 :: rest.2)

/-- A pass through `loop`. -/
def loop (sketch : PollingSketch) (program : PollingProgram)
    (requestFrom : UInt8 → UInt8 → ℕ × List UInt8) (nowMs : UInt32) :
    PollingSketch × List ControllerEvent :=
  if nowMs - sketch.lastPollMs < kPollIntervalMs then (sketch, [])
  else
    let result := { sketch with lastPollMs := nowMs }.pollNodes requestFrom nowMs program.reads
    let registry := result.1.registry.refresh nowMs
    ({ result.1 with registry }, result.2 ++ [.onlineCount registry.onlineCount])

end PollingSketch

/-- A pass through `loop`: when it is made, and what `requestFrom` answers in it for an address and
a number of bytes. -/
structure PollingPass where
  time : ℕ
  requestFrom : UInt8 → UInt8 → ℕ × List UInt8

/-- The program as a machine over its passes, whose times it sees modulo 2^32.  It answers with what
it prints. -/
def pollingController (program : PollingProgram) :
    Mealy PollingSketch PollingPass (List ControllerEvent) where
  start := {}
  step sketch pass := sketch.loop program pass.requestFrom (UInt32.ofNat pass.time)

/-- All that a run prints, from `setup` on. -/
def PollingProgram.printed (program : PollingProgram) (passes : List PollingPass) :
    List ControllerEvent :=
  let controller := pollingController program
  .ready program.sketch :: (controller.outputs controller.start passes).flatten

end PicoMesh
