import PicoMesh.NodeRegistry

/-!
# The modulo-256 sequence classifier (`sequence_tracker.h`, `sequence_tracker.cpp`)
-/

namespace PicoMesh

/-- Classification of a sequence observation. -/
inductive SequenceState where
  /-- First sequence observed for the node. -/
  | first
  /-- Forward distance is between 1 and 127. -/
  | newer
  /-- Sequence matches the last accepted value. -/
  | duplicate
  /-- Sequence is older or delayed by 128 to 255 steps. -/
  | stale
  /-- Node ID is outside `[0, kMaxNodes)`. -/
  | invalidNode
  deriving DecidableEq, Repr

/-- The observation is remembered: a receiver acts on the frame. -/
def SequenceState.accepts : SequenceState → Bool
  | .first | .newer => true
  | _ => false

/-- The frame is the one last remembered, or is remembered now: a receiver
acknowledges it. -/
def SequenceState.acknowledges : SequenceState → Bool
  | .first | .newer | .duplicate => true
  | _ => false

/-- Fixed-capacity modulo-256 sequence classifier. -/
structure SequenceTracker where
  lastSequence : Vector UInt8 kMaxNodes := Vector.replicate _ 0
  seen : Vector Bool kMaxNodes := Vector.replicate _ false
  deriving DecidableEq, Repr

namespace SequenceTracker

/-- Classify and, when newer, remember a sequence. -/
def observe (tracker : SequenceTracker) (nodeId sequence : UInt8) :
    SequenceTracker × SequenceState :=
  if h : nodeId.toNat < kMaxNodes then
    let i : Fin kMaxNodes := ⟨nodeId.toNat, h⟩
    if !tracker.seen.get i then
      ({ tracker with
          seen := tracker.seen.set i true i.isLt
          lastSequence := tracker.lastSequence.set i sequence i.isLt }, .first)
    else
      let delta := sequence - tracker.lastSequence.get i
      if delta = 0 then (tracker, .duplicate)
      -- Distances 1..127 are newer and 128..255 are stale.
      else if delta < 128 then
        ({ tracker with lastSequence := tracker.lastSequence.set i sequence i.isLt }, .newer)
      else (tracker, .stale)
  else (tracker, .invalidNode)

/-- Forget one node's sequence history. -/
def reset (tracker : SequenceTracker) (nodeId : UInt8) : SequenceTracker :=
  if h : nodeId.toNat < kMaxNodes then
    let i : Fin kMaxNodes := ⟨nodeId.toNat, h⟩
    { tracker with
      seen := tracker.seen.set i false i.isLt
      lastSequence := tracker.lastSequence.set i 0 i.isLt }
  else tracker

/-- Forget sequence history for every node. -/
def resetAll (tracker : SequenceTracker) : SequenceTracker :=
  { tracker with
    seen := Vector.replicate _ false
    lastSequence := Vector.replicate _ 0 }

end SequenceTracker

/-! ### The tracker as a machine -/

/-- A call on the tracker. -/
inductive TrackerOp (ν : Type) where
  | observe (nodeId : UInt8) (sequence : ν)
  | reset (nodeId : UInt8)
  | resetAll

/-- The same call with another sequence number. -/
def TrackerOp.mapSequence {ν ν' : Type} (f : ν → ν') : TrackerOp ν → TrackerOp ν'
  | .observe nodeId sequence => .observe nodeId (f sequence)
  | .reset nodeId => .reset nodeId
  | .resetAll => .resetAll

/-- One call; only `observe` returns a value. -/
def SequenceTracker.step (tracker : SequenceTracker) :
    TrackerOp UInt8 → SequenceTracker × Option SequenceState
  | .observe nodeId sequence =>
    ((tracker.observe nodeId sequence).1, some (tracker.observe nodeId sequence).2)
  | .reset nodeId => (tracker.reset nodeId, none)
  | .resetAll => (tracker.resetAll, none)

/-- The tracker as a machine over its calls. -/
def sequenceTracker : Mealy SequenceTracker (TrackerOp UInt8) (Option SequenceState) where
  start := {}
  step := SequenceTracker.step

end PicoMesh
