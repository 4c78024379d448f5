import PicoMesh.Frame
import PicoMesh.Library.Mealy
import PicoMesh.Library.SlotTable

/-!
# Acknowledgement frames and the retry queue (`reliability.h`, `reliability.cpp`)

The queue is an array of eight slots worked on by loops that stop at the first
slot meeting a condition, which is `SlotTable.first`.  Its text is generic in
the clock: `Clock` holds the two operations the source performs on times, and
the instance for `UInt32` is the source's modular arithmetic.  Running the same
text over the natural numbers gives the queue one would write for a clock that
never wraps.

`reliableQueue` packages the five mutating operations and `pending_count` as a
`Mealy` machine whose inputs are the calls and whose answers are the returned
values.
-/

namespace PicoMesh

/-- Flag indicating that the receiver should publish an acknowledgement. -/
def kFlagAckRequired : UInt8 := 0x01

/-- Maximum number of simultaneously pending reliable transmissions. -/
abbrev kMaxPendingTransmissions : ℕ := 8

/-! ### Acknowledgement frames -/

/-- Receiver result carried by an acknowledgement frame.  Like `MessageType` this
is an enumeration over a byte: any byte can be cast to it. -/
structure AckStatus where
  /-- The byte on the wire. -/
  raw : UInt8
  deriving DecidableEq, Repr

namespace AckStatus

/-- Command was accepted. -/
def accepted : AckStatus := ⟨0⟩
/-- Command was rejected by application policy. -/
def rejected : AckStatus := ⟨1⟩
/-- Receiver is temporarily unable to process it. -/
def busy : AckStatus := ⟨2⟩
/-- Command or capability is unsupported. -/
def unsupported : AckStatus := ⟨3⟩
/-- Command payload was malformed. -/
def malformed : AckStatus := ⟨4⟩

end AckStatus

/-- Construct a two-byte acknowledgement frame. -/
def makeAckFrame (nodeId responseSequence acknowledgedSequence : UInt8) (status : AckStatus) :
    Frame :=
  let frame : Frame := {}
  { frame with
    type := .acknowledgement
    nodeId := nodeId
    sequence := responseSequence
    payloadLength := 2
    payload := (frame.payload.set 0 acknowledgedSequence).set 1 status.raw }

/-- Parse and validate an acknowledgement payload: the acknowledged sequence and
the status, which the source writes to its output parameters only on success. -/
def parseAckFrame (frame : Frame) : Option (UInt8 × AckStatus) :=
  if frame.type ≠ .acknowledgement ∨ frame.payloadLength ≠ 2 then none
  else
    let rawStatus := frame.payload[1]
    if rawStatus > AckStatus.malformed.raw then none
    else some (frame.payload[0], ⟨rawStatus⟩)

/-! ### Clocks -/

/-- The operations the queue performs on times. -/
class Clock (τ : Type) where
  /-- The value a time field is initialised to. -/
  epoch : τ
  /-- `deadlineReached now deadline`. -/
  deadlineReached : τ → τ → Bool
  /-- The time a number of milliseconds later. -/
  after : τ → UInt32 → τ

export Clock (deadlineReached after)

/-- The source's clock, a modulo-2^32 millisecond tick: a deadline is reached
when the difference, cast to a signed value, is not negative. -/
instance : Clock UInt32 where
  epoch := 0
  deadlineReached now deadline := decide (0 ≤ (now - deadline).toInt32)
  after now timeoutMs := now + timeoutMs

/-- The clock that never wraps. -/
instance : Clock ℕ where
  epoch := 0
  deadlineReached now deadline := decide (deadline ≤ now)
  after now timeoutMs := now + timeoutMs.toNat

/-! ### Data -/

/-- Retry timing and attempt limit. -/
structure RetryPolicy where
  /-- Delay between transmission attempts. -/
  timeoutMs : UInt32 := 250
  /-- Total sends before exhaustion. -/
  maxAttempts : UInt8 := 3
  deriving DecidableEq, Repr

/-- Result of adding a frame to the queue. -/
inductive QueueResult where
  | queued
  | full
  | invalid
  deriving DecidableEq, Repr

/-- Action returned by `nextDue`. -/
inductive TxAction where
  | none
  | send
  | exhausted
  deriving DecidableEq, Repr

/-- One scheduler decision from the queue. -/
structure TxDecision where
  action : TxAction := .none
  frame : Frame := {}
  attempts : UInt8 := 0
  deriving DecidableEq, Repr

/-- Result of resolving a pending frame with an acknowledgement. -/
inductive AckResolution where
  | notFound
  | accepted
  | rejected
  deriving DecidableEq, Repr

/-- One slot of the queue. -/
structure Slot (τ : Type) [Clock τ] where
  frame : Frame := {}
  deadlineMs : τ := Clock.epoch
  attempts : UInt8 := 0
  active : Bool := false

/-- The retry queue. -/
structure ReliableQueue (τ : Type) [Clock τ] where
  slots : Vector (Slot τ) kMaxPendingTransmissions := Vector.replicate _ {}
  policy : RetryPolicy := {}

/-- The policy a queue runs with: a zero attempt limit is normalized to one. -/
def RetryPolicy.normalise (policy : RetryPolicy) : RetryPolicy :=
  if policy.maxAttempts = 0 then { policy with maxAttempts := 1 } else policy

@[simp] theorem RetryPolicy.normalise_timeoutMs (policy : RetryPolicy) :
    policy.normalise.timeoutMs = policy.timeoutMs := by
  unfold RetryPolicy.normalise
  split_ifs <;> rfl

theorem RetryPolicy.normalise_maxAttempts (policy : RetryPolicy) :
    policy.normalise.maxAttempts = max 1 policy.maxAttempts := by
  unfold RetryPolicy.normalise
  split_ifs with hzero
  · rw [hzero]
    rfl
  · have hpos : 1 ≤ policy.maxAttempts := by grind
    exact (if_pos hpos).symm

/-! ### Operations -/

namespace ReliableQueue

variable {τ : Type} [Clock τ]

/-- The source's constructor. -/
def new (policy : RetryPolicy) : ReliableQueue τ := { policy := policy.normalise }

/-- The loop condition that `enqueue`, `acknowledge` and `cancel` share. -/
def holds (nodeId sequence : UInt8) (slot : Slot τ) : Bool :=
  slot.active && slot.frame.nodeId == nodeId && slot.frame.sequence == sequence

/-- The slots `nextDue` does not skip. -/
def due (nowMs : τ) (slot : Slot τ) : Bool :=
  slot.active && deadlineReached nowMs slot.deadlineMs

/-- `slot.active = false` at one slot. -/
def release (queue : ReliableQueue τ) (i : Fin kMaxPendingTransmissions) : ReliableQueue τ :=
  { queue with slots := queue.slots.set i { queue.slots.get i with active := false } i.isLt }

/-- Add a frame and mark it ACK-required. -/
def enqueue (queue : ReliableQueue τ) (input : Frame) (nowMs : τ) :
    ReliableQueue τ × QueueResult :=
  if input.payloadLength.toNat > kMaxPayloadSize then (queue, .invalid)
  else
    -- the first loop looks for the key, the second for a free slot
    match SlotTable.first (holds input.nodeId input.sequence) queue.slots with
    | some _ => (queue, .invalid)
    | none =>
      match SlotTable.first (fun slot => !slot.active) queue.slots with
      | some i =>
        let slot : Slot τ :=
          { frame := { input with flags := input.flags ||| kFlagAckRequired }
            deadlineMs := nowMs
            attempts := 0
            active := true }
        ({ queue with slots := queue.slots.set i slot i.isLt }, .queued)
      | none => (queue, .full)

/-- Return the first transmission whose deadline is due. -/
def nextDue (queue : ReliableQueue τ) (nowMs : τ) : ReliableQueue τ × TxDecision :=
  match SlotTable.first (due nowMs) queue.slots with
  | none => (queue, {})
  | some i =>
    let slot := queue.slots.get i
    -- an entry is given up at the call after its last send came due
    if slot.attempts ≥ queue.policy.maxAttempts then
      (queue.release i, { action := .exhausted, frame := slot.frame, attempts := slot.attempts })
    else
      let slot := { slot with
        attempts := slot.attempts + 1
        deadlineMs := after nowMs queue.policy.timeoutMs }
      ({ queue with slots := queue.slots.set i slot i.isLt },
        { action := .send, frame := slot.frame, attempts := slot.attempts })

/-- Resolve and remove a matching pending frame. -/
def acknowledge (queue : ReliableQueue τ) (nodeId sequence : UInt8) (status : AckStatus) :
    ReliableQueue τ × AckResolution :=
  match SlotTable.first (holds nodeId sequence) queue.slots with
  | some i => (queue.release i, if status = .accepted then .accepted else .rejected)
  | none => (queue, .notFound)

/-- Cancel one matching pending frame. -/
def cancel (queue : ReliableQueue τ) (nodeId sequence : UInt8) : ReliableQueue τ × Bool :=
  match SlotTable.first (holds nodeId sequence) queue.slots with
  | some i => (queue.release i, true)
  | none => (queue, false)

/-- Number of active slots. -/
def pendingCount (queue : ReliableQueue τ) : ℕ :=
  SlotTable.count (fun slot => slot.active) queue.slots

/-- Remove every pending frame and reset slot state. -/
def clear (queue : ReliableQueue τ) : ReliableQueue τ :=
  { queue with slots := Vector.replicate _ {} }

end ReliableQueue

/-! ### The queue as a machine -/

/-- A call on the queue. -/
inductive QueueOp (τ : Type) where
  | enqueue (frame : Frame) (nowMs : τ)
  | nextDue (nowMs : τ)
  | acknowledge (nodeId sequence : UInt8) (status : AckStatus)
  | cancel (nodeId sequence : UInt8)
  | pendingCount
  | clear

/-- The value a call returns. -/
inductive QueueReply where
  | enqueued (result : QueueResult)
  | decided (decision : TxDecision)
  | acknowledged (resolution : AckResolution)
  | cancelled (found : Bool)
  | counted (pending : ℕ)
  | cleared
  deriving DecidableEq, Repr

/-- The same call at another clock's time. -/
def QueueOp.mapTime {τ τ' : Type} (f : τ → τ') : QueueOp τ → QueueOp τ'
  | .enqueue frame nowMs => .enqueue frame (f nowMs)
  | .nextDue nowMs => .nextDue (f nowMs)
  | .acknowledge nodeId sequence status => .acknowledge nodeId sequence status
  | .cancel nodeId sequence => .cancel nodeId sequence
  | .pendingCount => .pendingCount
  | .clear => .clear

/-- One call. -/
def ReliableQueue.step {τ : Type} [Clock τ] (queue : ReliableQueue τ) :
    QueueOp τ → ReliableQueue τ × QueueReply
  | .enqueue frame nowMs => ((queue.enqueue frame nowMs).1, .enqueued (queue.enqueue frame nowMs).2)
  | .nextDue nowMs => ((queue.nextDue nowMs).1, .decided (queue.nextDue nowMs).2)
  | .acknowledge nodeId sequence status =>
    ((queue.acknowledge nodeId sequence status).1,
      .acknowledged (queue.acknowledge nodeId sequence status).2)
  | .cancel nodeId sequence =>
    ((queue.cancel nodeId sequence).1, .cancelled (queue.cancel nodeId sequence).2)
  | .pendingCount => (queue, .counted queue.pendingCount)
  | .clear => (queue.clear, .cleared)

/-- The queue as a machine over its calls. -/
def reliableQueue {τ : Type} [Clock τ] (policy : RetryPolicy) :
    Mealy (ReliableQueue τ) (QueueOp τ) QueueReply where
  start := .new policy
  step := ReliableQueue.step

/-- The queue after a run of calls on a fresh one. -/
def queueAfter {τ : Type} [Clock τ] (policy : RetryPolicy) (ops : List (QueueOp τ)) :
    ReliableQueue τ :=
  (reliableQueue policy).run (reliableQueue policy).start ops

theorem queueAfter_append {τ : Type} [Clock τ] (policy : RetryPolicy)
    (ops ops' : List (QueueOp τ)) :
    queueAfter policy (ops ++ ops') = (reliableQueue policy).run (queueAfter policy ops) ops' :=
  Mealy.run_append _ _ _ _

theorem queueAfter_concat {τ : Type} [Clock τ] (policy : RetryPolicy) (ops : List (QueueOp τ))
    (op : QueueOp τ) :
    queueAfter policy (ops ++ [op]) = ((queueAfter policy ops).step op).1 :=
  Mealy.run_concat _ _ _ _

end PicoMesh
