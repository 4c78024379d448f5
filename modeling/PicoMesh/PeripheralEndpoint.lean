import PicoMesh.Frame
import PicoMesh.Library.Mealy

/-!
# The Pico I2C peripheral endpoint (`picomesh_pico_transport.h`, `picomesh_pico_transport.cpp`)

`I2cHw` is the part of the I2C block that the interrupt handler touches: the
receive FIFO behind `data_cmd`, the latched interrupt bits and the bytes
written to `data_cmd`.  `handleIrq` is the handler on an endpoint and its
block.  Array accesses are total here, reading zero and writing nothing out of
bounds; that every index stays in bounds is proved of the endpoint.

`peripheralEndpoint` is the endpoint with its main thread and one event per
interrupt, every step atomic; `interruptSchedule` keeps the block, so that
several events can be pending when the handler runs.
-/

namespace PicoMesh

/-! ### The I2C block -/

/-- The bits of `raw_intr_stat` that the handler tests. -/
structure RawIntrStat where
  rxFull : Bool
  rdReq : Bool
  stopDet : Bool
  txAbrt : Bool
  rxOver : Bool
  deriving DecidableEq, Repr

/-- The I2C block, as far as the handler touches it. -/
structure I2cHw where
  /-- The received bytes not yet read, oldest first. -/
  rxFifo : List UInt8 := []
  rdReq : Bool := false
  stopDet : Bool := false
  txAbrt : Bool := false
  rxOver : Bool := false
  /-- The bytes written to `data_cmd`, in order. -/
  transmitted : List UInt8 := []
  deriving DecidableEq, Repr

namespace I2cHw

/-- RX_FULL reads as set while the FIFO holds a byte; the other bits stay latched
until they are cleared. -/
def rawIntrStat (hw : I2cHw) : RawIntrStat where
  rxFull := !hw.rxFifo.isEmpty
  rdReq := hw.rdReq
  stopDet := hw.stopDet
  txAbrt := hw.txAbrt
  rxOver := hw.rxOver

/-- The byte a read of `data_cmd` returns. -/
def dataCmd (hw : I2cHw) : UInt8 := hw.rxFifo.headD 0

/-- A read of `data_cmd` pops the oldest byte. -/
def popDataCmd (hw : I2cHw) : I2cHw := { hw with rxFifo := hw.rxFifo.tail }

/-- A write to `data_cmd` transmits a byte. -/
def writeDataCmd (hw : I2cHw) (value : UInt8) : I2cHw :=
  { hw with transmitted := hw.transmitted ++ [value] }

end I2cHw

/-! ### The endpoint -/

/-- Storage for one encoded frame. -/
abbrev FrameBuffer := Vector UInt8 kMaxEncodedFrameSize

/-- The endpoint's mailboxes.  The attachment to an I2C instance is the argument
`hw` of the operations that use it. -/
structure I2cPeripheralEndpoint where
  rxBuffers : Vector FrameBuffer 2 := Vector.replicate _ (Vector.replicate _ 0)
  rxLengths : Vector UInt8 2 := Vector.replicate _ 0
  rxWriteIndex : UInt8 := 0
  rxReadyIndex : UInt8 := 0
  rxReady : Bool := false
  txBuffers : Vector FrameBuffer 2 := Vector.replicate _ (Vector.replicate _ 0)
  txLengths : Vector UInt8 2 := Vector.replicate _ 0
  txActiveIndex : UInt8 := 0
  txIndex : UInt8 := 0
  droppedFrames : UInt32 := 0
  deriving DecidableEq, Repr

/-- Read one of a pair. -/
def readPair {α : Type} (pair : Vector α 2) (index : UInt8) (default : α) : α :=
  pair.getD index.toNat default

/-- Write one of a pair. -/
def writePair {α : Type} (pair : Vector α 2) (index : UInt8) (value : α) : Vector α 2 :=
  pair.setIfInBounds index.toNat value

/-- A buffer of zeros. -/
def zeroBuffer : FrameBuffer := Vector.replicate _ 0

/-- The locals of a `publish()` call between its two steps. -/
structure PublishCall where
  frame : Frame
  inactive : UInt8
  length : ℕ
  deriving DecidableEq, Repr

/-- What a `poll()` that finds a message does with it: the bytes it hands to
`decode_frame` and the answer, whose error it reports and whose frame it stores
and returns `true` for if there is one. -/
structure PolledMessage where
  bytes : List UInt8
  decoded : DecodeResult
  deriving DecidableEq, Repr

namespace I2cPeripheralEndpoint

variable (endpoint : I2cPeripheralEndpoint)

/-- The bytes that a receive buffer holds. -/
def held (index : UInt8) : List UInt8 :=
  (readPair endpoint.rxBuffers index zeroBuffer).toList.take
    (readPair endpoint.rxLengths index 0).toNat

/-! ### The main thread -/

/-- `publish()` up to the critical section: encode, and fill the inactive
buffer. -/
def beginPublish (frame : Frame) : I2cPeripheralEndpoint × Option PublishCall :=
  let encoded := encodeFrame frame
  if encoded.length = 0 ∨ encoded.length > kMaxEncodedFrameSize then (endpoint, none)
  else
    let inactive := endpoint.txActiveIndex ^^^ 1
    let buffer := copyAt (readPair endpoint.txBuffers inactive zeroBuffer) 0 encoded.active
    ({ endpoint with txBuffers := writePair endpoint.txBuffers inactive buffer },
      some { frame, inactive, length := encoded.length })

/-- The critical section of `publish()`, and the value it returns. -/
def commitPublish (call : PublishCall) : I2cPeripheralEndpoint × Bool :=
  -- a read transaction has begun
  if endpoint.txIndex ≠ 0 then (endpoint, false)
  else
    ({ endpoint with
        txLengths := writePair endpoint.txLengths call.inactive (UInt8.ofNat call.length)
        txActiveIndex := call.inactive }, true)

/-- `poll()`: take the pending message, if there is one, and decode it. -/
def poll : I2cPeripheralEndpoint × Option PolledMessage :=
  if !endpoint.rxReady then (endpoint, none)
  else
    let readyIndex := endpoint.rxReadyIndex
    let bytes := endpoint.held readyIndex
    ({ endpoint with
        rxLengths := writePair endpoint.rxLengths readyIndex 0
        rxReady := false }, some { bytes, decoded := decodeFrame bytes })

/-! ### The interrupt handler -/

/-- The handler's work on a received byte. -/
def receiveByte (byte : UInt8) : I2cPeripheralEndpoint :=
  let writeIndex := endpoint.rxWriteIndex
  let length := readPair endpoint.rxLengths writeIndex 0
  if length.toNat < kMaxEncodedFrameSize then
    let buffer :=
      (readPair endpoint.rxBuffers writeIndex zeroBuffer).setIfInBounds length.toNat byte
    { endpoint with
      rxBuffers := writePair endpoint.rxBuffers writeIndex buffer
      rxLengths := writePair endpoint.rxLengths writeIndex (length + 1) }
  else { endpoint with droppedFrames := endpoint.droppedFrames + 1 }

/-- The byte the handler answers a read request with. -/
def nextTxByte : I2cPeripheralEndpoint × UInt8 :=
  let active := endpoint.txActiveIndex
  let length := readPair endpoint.txLengths active 0
  if endpoint.txIndex < length then
    ({ endpoint with txIndex := endpoint.txIndex + 1 },
      (readPair endpoint.txBuffers active zeroBuffer).getD endpoint.txIndex.toNat 0)
  else (endpoint, 0)

/-- A write transaction is complete. -/
def completeReceiveFromIsr : I2cPeripheralEndpoint :=
  let writeIndex := endpoint.rxWriteIndex
  if readPair endpoint.rxLengths writeIndex 0 = 0 then endpoint
  else if endpoint.rxReady then
    -- the unread message stays
    { endpoint with
      rxLengths := writePair endpoint.rxLengths writeIndex 0
      droppedFrames := endpoint.droppedFrames + 1 }
  else
    -- the two buffers swap roles
    { endpoint with
      rxReadyIndex := writeIndex
      rxReady := true
      rxWriteIndex := writeIndex ^^^ 1
      rxLengths := writePair endpoint.rxLengths (writeIndex ^^^ 1) 0 }

/-- The bytes received of the current write transaction, as far as they fit. -/
def receiving : List UInt8 := endpoint.held endpoint.rxWriteIndex

end I2cPeripheralEndpoint

/-- An endpoint and its I2C block. -/
structure AttachedEndpoint where
  endpoint : I2cPeripheralEndpoint := {}
  hw : I2cHw := {}
  deriving DecidableEq, Repr

namespace AttachedEndpoint

variable (s : AttachedEndpoint)

/-- The RX_FULL branch. -/
def serveRxFull : AttachedEndpoint :=
  { endpoint := s.endpoint.receiveByte s.hw.dataCmd, hw := s.hw.popDataCmd }

/-- The RD_REQ branch. -/
def serveRdReq : AttachedEndpoint :=
  { endpoint := s.endpoint.nextTxByte.1
    hw := { s.hw with rdReq := false }.writeDataCmd s.endpoint.nextTxByte.2 }

/-- The STOP_DET branch. -/
def serveStopDet : AttachedEndpoint :=
  { endpoint := { s.endpoint.completeReceiveFromIsr with txIndex := 0 }
    hw := { s.hw with stopDet := false } }

/-- The TX_ABRT branch. -/
def serveTxAbrt : AttachedEndpoint :=
  { endpoint := { s.endpoint with txIndex := 0 }
    hw := { s.hw with txAbrt := false } }

/-- The RX_OVER branch. -/
def serveRxOver : AttachedEndpoint :=
  { endpoint := { s.endpoint with droppedFrames := s.endpoint.droppedFrames + 1 }
    hw := { s.hw with rxOver := false } }

/-- `handle_irq()`.  The status is read once, so every test is on the bits as they
were at the start of the call. -/
def handleIrq : AttachedEndpoint :=
  let status := s.hw.rawIntrStat
  -- at most one byte is read in a call
  let s := if status.rxFull then s.serveRxFull else s
  let s := if status.rdReq then s.serveRdReq else s
  let s := if status.stopDet then s.serveStopDet else s
  let s := if status.txAbrt then s.serveTxAbrt else s
  if status.rxOver then s.serveRxOver else s

/-- The string that a call of `handle_irq()` completes: what
`complete_receive_from_isr()` finds in the write buffer, if it is called and
finds anything. -/
def completes : Option (List UInt8) :=
  let status := s.hw.rawIntrStat
  let s := if status.rxFull then s.serveRxFull else s
  if status.stopDet ∧ s.endpoint.receiving ≠ [] then some s.endpoint.receiving else none

end AttachedEndpoint

/-! ### One event per interrupt -/

/-- What an interrupt is raised for. -/
inductive IrqEvent where
  | rxFull (byte : UInt8)
  | rdReq
  | stopDet
  | txAbrt
  | rxOver
  deriving DecidableEq, Repr

/-- The block with one event pending. -/
def IrqEvent.hw : IrqEvent → I2cHw
  | .rxFull byte => { rxFifo := [byte] }
  | .rdReq => { rdReq := true }
  | .stopDet => { stopDet := true }
  | .txAbrt => { txAbrt := true }
  | .rxOver => { rxOver := true }

/-- An atomic step: of the main thread, or a call of the handler. -/
inductive EndpointOp where
  | beginPublish (frame : Frame)
  | commitPublish
  | poll
  | irq (event : IrqEvent)
  deriving DecidableEq, Repr

/-- What a step shows. -/
inductive EndpointReply where
  | idle
  /-- `publish()` returns. -/
  | published (frame : Frame) (accepted : Bool)
  | polled (message : Option PolledMessage)
  /-- The bytes that the handler transmits. -/
  | handled (event : IrqEvent) (transmitted : List UInt8)
  deriving DecidableEq, Repr

/-- The endpoint, and the `publish()` call the main thread is in. -/
structure EndpointThread where
  endpoint : I2cPeripheralEndpoint := {}
  publishing : Option PublishCall := none
  deriving DecidableEq, Repr

/-- One atomic step.  The main thread is in one `publish()` call at a time. -/
def EndpointThread.step (s : EndpointThread) : EndpointOp → EndpointThread × EndpointReply
  | .beginPublish frame =>
    if s.publishing.isSome then (s, .idle)
    else
      let begun := s.endpoint.beginPublish frame
      ({ endpoint := begun.1, publishing := begun.2 },
        if begun.2.isSome then .idle else .published frame false)
  | .commitPublish =>
    match s.publishing with
    | none => (s, .idle)
    | some call =>
      ({ endpoint := (s.endpoint.commitPublish call).1, publishing := none },
        .published call.frame (s.endpoint.commitPublish call).2)
  | .poll => ({ s with endpoint := s.endpoint.poll.1 }, .polled s.endpoint.poll.2)
  | .irq event =>
    let served := AttachedEndpoint.handleIrq { endpoint := s.endpoint, hw := event.hw }
    ({ s with endpoint := served.endpoint }, .handled event served.hw.transmitted)

namespace EndpointThread

variable (s : EndpointThread)

/-! What a handler call does on one event. -/

@[simp] theorem step_rxFull (byte : UInt8) :
    s.step (.irq (.rxFull byte)) =
      ({ s with endpoint := s.endpoint.receiveByte byte }, .handled (.rxFull byte) []) := rfl

@[simp] theorem step_rdReq :
    s.step (.irq .rdReq) =
      ({ s with endpoint := s.endpoint.nextTxByte.1 },
        .handled .rdReq [s.endpoint.nextTxByte.2]) := rfl

@[simp] theorem step_stopDet :
    s.step (.irq .stopDet) =
      ({ s with endpoint := { s.endpoint.completeReceiveFromIsr with txIndex := 0 } },
        .handled .stopDet []) := rfl

@[simp] theorem step_txAbrt :
    s.step (.irq .txAbrt) =
      ({ s with endpoint := { s.endpoint with txIndex := 0 } }, .handled .txAbrt []) := rfl

@[simp] theorem step_rxOver :
    s.step (.irq .rxOver) =
      ({ s with endpoint := { s.endpoint with droppedFrames := s.endpoint.droppedFrames + 1 } },
        .handled .rxOver []) := rfl

end EndpointThread

/-- The endpoint as a machine over its atomic steps. -/
def peripheralEndpoint : Mealy EndpointThread EndpointOp EndpointReply where
  start := {}
  step := EndpointThread.step

/-- The endpoint after a run of atomic steps. -/
def endpointAfter (ops : List EndpointOp) : EndpointThread :=
  peripheralEndpoint.run peripheralEndpoint.start ops

theorem endpointAfter_concat (ops : List EndpointOp) (op : EndpointOp) :
    endpointAfter (ops ++ [op]) = ((endpointAfter ops).step op).1 :=
  Mealy.run_concat _ _ _ _

/-- What the steps of a run show. -/
def endpointReplies (ops : List EndpointOp) : List EndpointReply :=
  peripheralEndpoint.outputs peripheralEndpoint.start ops

theorem endpointReplies_concat (ops : List EndpointOp) (op : EndpointOp) :
    endpointReplies (ops ++ [op]) = endpointReplies ops ++ [((endpointAfter ops).step op).2] :=
  Mealy.outputs_concat _ _ _ _

/-! ### Events that wait for the handler -/

/-- What happens at an attached endpoint that a controller writes to. -/
inductive ScheduleOp where
  /-- A byte enters the FIFO. -/
  | arrive (byte : UInt8)
  /-- The write transaction ends. -/
  | stop
  /-- The handler runs. -/
  | irq
  /-- The main thread polls. -/
  | poll
  deriving DecidableEq, Repr

/-- One step; the answer is the string that `complete_receive_from_isr()`
completes. -/
def AttachedEndpoint.step (s : AttachedEndpoint) :
    ScheduleOp → AttachedEndpoint × Option (List UInt8)
  | .arrive byte => ({ s with hw := { s.hw with rxFifo := s.hw.rxFifo ++ [byte] } }, none)
  | .stop => ({ s with hw := { s.hw with stopDet := true } }, none)
  | .irq => (s.handleIrq, s.completes)
  | .poll => ({ s with endpoint := s.endpoint.poll.1 }, none)

/-- An attached endpoint as a machine over the schedule of its events. -/
def interruptSchedule : Mealy AttachedEndpoint ScheduleOp (Option (List UInt8)) where
  start := {}
  step := AttachedEndpoint.step

end PicoMesh
