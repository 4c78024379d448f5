import PicoMesh.Reliability
import PicoMesh.SequenceTracker

/-!
# Reliable commands: a controller, two channels and a receiver

The controller is the `ArduinoReliableCommandController` sketch
(`enqueueCommand`, `transmitDue`, `receiveAcknowledgement`); its commands go to
one node, which classifies each command with a `SequenceTracker`.  Messages are
the encoded bytes.  Every command has an unbounded number, and its sequence
byte is that number modulo 256, as the sketch's `sequence_number++` makes it;
the numbers travel with the messages as history only, and no part of the
program reads them.

`commandLink` is the stop-and-wait discipline of the sketch over FIFO channels
that delay and lose messages; `retryLink` is a sender that keeps several frames
pending over a link that loses copies and delivers the others at once.
-/

namespace PicoMesh

/-! ### The controller -/

/-- The controller's state. -/
structure Controller where
  queue : ReliableQueue UInt32
  /-- The number of the next command. -/
  next : ℕ := 0
  /-- The number of the command last queued under each sequence byte. -/
  number : UInt8 → ℕ := fun _ => 0

namespace Controller

/-- Queue a command to `node` under the next sequence number, which it takes
whether or not the queue accepts it. -/
def enqueueCommand (controller : Controller) (node : UInt8) (content : Frame) (nowMs : UInt32) :
    Controller × QueueResult :=
  let command := { content with nodeId := node, sequence := UInt8.ofNat controller.next }
  let result := controller.queue.enqueue command nowMs
  ({ queue := result.1
     next := controller.next + 1
     number :=
      if result.2 = .queued then Function.update controller.number command.sequence controller.next
      else controller.number }, result.2)

/-- Take one decision from the queue; the number and the encoded bytes of the
command, if it says to send one. -/
def transmitDue (controller : Controller) (nowMs : UInt32) :
    Controller × Option (ℕ × List UInt8) :=
  let result := controller.queue.nextDue nowMs
  ({ controller with queue := result.1 },
    if result.2.action = .send then
      some (controller.number result.2.frame.sequence, (encodeFrame result.2.frame).active)
    else none)

/-- Resolve a pending command with received bytes, if they are an
acknowledgement. -/
def receiveAcknowledgement (controller : Controller) (bytes : List UInt8) :
    Controller × Option AckResolution :=
  let decoded := decodeFrame bytes
  -- other frames, and malformed acknowledgements, are ignored
  if !decoded.ok || decoded.frame.type ≠ .acknowledgement then (controller, none)
  else
    match parseAckFrame decoded.frame with
    | none => (controller, none)
    | some (acknowledgedSequence, status) =>
      let result := controller.queue.acknowledge decoded.frame.nodeId acknowledgedSequence status
      ({ controller with queue := result.1 }, some result.2)

end Controller

/-! ### The receiver -/

/-- Classify received bytes: the frame and its state, if they are a frame. -/
def receiveCommand (tracker : SequenceTracker) (bytes : List UInt8) :
    SequenceTracker × Option (Frame × SequenceState) :=
  let decoded := decodeFrame bytes
  if !decoded.ok then (tracker, none)
  else
    let result := tracker.observe decoded.frame.nodeId decoded.frame.sequence
    (result.1, some (decoded.frame, result.2))

/-! ### Stop and wait -/

/-- Bytes in flight, with the number of the command they are about. -/
structure Message where
  number : ℕ
  bytes : List UInt8
  deriving DecidableEq

/-- A controller and a receiver with a channel each way. -/
structure CommandLink where
  controller : Controller
  commands : List Message := []
  acks : List Message := []
  tracker : SequenceTracker := {}
  /-- The numbers of the commands applied, in order. -/
  applied : List ℕ := []
  /-- The number of the last command of which a copy was delivered. -/
  delivered : Option ℕ := none

/-- One event of the link. -/
inductive CommandLinkOp where
  /-- The loop's first step: queue the next command if none is pending. -/
  | enqueue (content : Frame) (nowMs : UInt32)
  /-- The loop's second step; `sent` is what the transport returns. -/
  | transmit (nowMs : UInt32) (sent : Bool)
  /-- The oldest command in flight arrives; the answer has this sequence. -/
  | deliverCommand (responseSequence : UInt8)
  /-- A command in flight is lost. -/
  | loseCommand (index : ℕ)
  /-- The oldest acknowledgement in flight arrives. -/
  | deliverAck
  /-- An acknowledgement in flight is lost. -/
  | loseAck (index : ℕ)

namespace CommandLink

/-- The loop's guarded `enqueueCommand`. -/
def enqueue (s : CommandLink) (node : UInt8) (content : Frame) (nowMs : UInt32) : CommandLink :=
  if s.controller.queue.pendingCount = 0 then
    { s with controller := (s.controller.enqueueCommand node content nowMs).1 }
  else s

/-- `transmitDue`: what is sent goes into the command channel. -/
def transmit (s : CommandLink) (nowMs : UInt32) (sent : Bool) : CommandLink :=
  let result := s.controller.transmitDue nowMs
  match result.2 with
  | some (number, bytes) =>
    { s with
      controller := result.1
      commands := if sent then s.commands ++ [⟨number, bytes⟩] else s.commands }
  | none => { s with controller := result.1 }

/-- The receiver's work on the oldest command. -/
def deliverCommand (s : CommandLink) (node responseSequence : UInt8) : CommandLink :=
  match s.commands with
  | [] => s
  | message :: commands =>
    let result := receiveCommand s.tracker message.bytes
    match result.2 with
    | none => { s with commands, tracker := result.1 }
    | some (frame, state) =>
      -- the answer names the received sequence byte, not the number
      let answer := makeAckFrame node responseSequence frame.sequence .accepted
      { s with
        commands
        tracker := result.1
        applied := if state.accepts then s.applied ++ [message.number] else s.applied
        acks :=
          if state.acknowledges then s.acks ++ [⟨message.number, (encodeFrame answer).active⟩]
          else s.acks
        delivered := some message.number }

/-- `receiveAcknowledgement` on the oldest acknowledgement. -/
def deliverAck (s : CommandLink) : CommandLink × Option AckResolution :=
  match s.acks with
  | [] => (s, none)
  | message :: acks =>
    let result := s.controller.receiveAcknowledgement message.bytes
    ({ s with controller := result.1, acks }, result.2)

/-- One event; the answer is the resolution that an arriving acknowledgement
leads to. -/
def step (node : UInt8) (s : CommandLink) : CommandLinkOp → CommandLink × Option AckResolution
  | .enqueue content nowMs => (s.enqueue node content nowMs, none)
  | .transmit nowMs sent => (s.transmit nowMs sent, none)
  | .deliverCommand responseSequence => (s.deliverCommand node responseSequence, none)
  | .loseCommand index => ({ s with commands := s.commands.eraseIdx index }, none)
  | .deliverAck => s.deliverAck
  | .loseAck index => ({ s with acks := s.acks.eraseIdx index }, none)

end CommandLink

/-- The stop-and-wait link to `node`. -/
def commandLink (policy : RetryPolicy) (node : UInt8) :
    Mealy CommandLink CommandLinkOp (Option AckResolution) where
  start := { controller := { queue := .new policy } }
  step := CommandLink.step node

/-! ### Several frames pending -/

/-- A sender with up to eight frames pending, and the receiver's tracker. -/
structure RetryLink where
  controller : Controller
  tracker : SequenceTracker := {}
  /-- The number of the frame the receiver accepted last. -/
  accepted : Option ℕ := none
  /-- The numbers of the copies that have reached the receiver, in order. -/
  arrived : List ℕ := []

/-- One event of the link. -/
inductive RetryLinkOp where
  | enqueue (content : Frame) (t : ℕ)
  /-- A call of `next_due`; whether a copy it sends arrives. -/
  | transmit (t : ℕ) (arrives : Bool)
  | acknowledge (sequence : UInt8) (status : AckStatus)
  | cancel (sequence : UInt8)
  | clear

/-- The time of an event that has one. -/
def RetryLinkOp.calledAt : RetryLinkOp → Option ℕ
  | .enqueue _ t => some t
  | .transmit t _ => some t
  | _ => none

namespace RetryLink

/-- Queue the next frame; a frame the queue refuses takes no number. -/
def enqueue (s : RetryLink) (node : UInt8) (content : Frame) (nowMs : UInt32) : RetryLink :=
  let result := s.controller.enqueueCommand node content nowMs
  if result.2 = .queued then { s with controller := result.1 } else s

/-- A copy reaches the receiver. -/
def arrive (s : RetryLink) (number : ℕ) (bytes : List UInt8) :
    RetryLink × Option (ℕ × SequenceState) :=
  let result := receiveCommand s.tracker bytes
  match result.2 with
  | none => ({ s with tracker := result.1 }, none)
  | some (_, state) =>
    ({ s with
        tracker := result.1
        accepted := if state.accepts then some number else s.accepted
        arrived := s.arrived ++ [number] }, some (number, state))

/-- One event; the answer is the number and the state of an arriving copy. -/
def step (node : UInt8) (s : RetryLink) : RetryLinkOp → RetryLink × Option (ℕ × SequenceState)
  | .enqueue content t => (s.enqueue node content (UInt32.ofNat t), none)
  | .transmit t arrives =>
    let result := s.controller.transmitDue (UInt32.ofNat t)
    match result.2 with
    | some (number, bytes) =>
      if arrives then { s with controller := result.1 }.arrive number bytes
      else ({ s with controller := result.1 }, none)
    | none => ({ s with controller := result.1 }, none)
  | .acknowledge sequence status =>
    let result := s.controller.queue.acknowledge node sequence status
    ({ s with controller := { s.controller with queue := result.1 } }, none)
  | .cancel sequence =>
    let result := s.controller.queue.cancel node sequence
    ({ s with controller := { s.controller with queue := result.1 } }, none)
  | .clear =>
    ({ s with controller := { s.controller with queue := s.controller.queue.clear } }, none)

end RetryLink

end PicoMesh
