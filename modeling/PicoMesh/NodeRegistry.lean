import Mathlib.Data.List.FinRange
import PicoMesh.Library.Mealy

/-!
# Liveness of logical nodes (`node_registry.h`, `node_registry.cpp`)

The two arrays of the source are indexed by node ID; a byte that is an index
into them is below `kMaxNodes`, which every entry point checks first.
-/

namespace PicoMesh

/-- Maximum logical node ID count tracked by the registry. -/
abbrev kMaxNodes : ℕ := 32

/-- Last observed liveness state for one logical node. -/
structure NodeStatus where
  nodeId : UInt8 := 0
  lastSequence : UInt8 := 0
  lastSeenMs : UInt32 := 0
  online : Bool := false
  deriving DecidableEq, Repr

/-- Fixed-capacity liveness registry for logical nodes. -/
structure NodeRegistry where
  nodes : Vector NodeStatus kMaxNodes := Vector.replicate _ {}
  present : Vector Bool kMaxNodes := Vector.replicate _ false
  timeoutMs : UInt32 := 3000
  deriving DecidableEq, Repr

namespace NodeRegistry

/-- The source's constructor. -/
def new (timeoutMs : UInt32) : NodeRegistry := { timeoutMs }

/-- Record a frame observation and mark the node online. -/
def observe (registry : NodeRegistry) (nodeId sequence : UInt8) (nowMs : UInt32) :
    NodeRegistry × Bool :=
  if h : nodeId.toNat ≥ kMaxNodes then (registry, false)
  else
    let i : Fin kMaxNodes := ⟨nodeId.toNat, Nat.lt_of_not_ge h⟩
    let node : NodeStatus :=
      { registry.nodes.get i with
        nodeId := nodeId
        lastSequence := sequence
        lastSeenMs := nowMs
        online := true }
    ({ registry with
        nodes := registry.nodes.set i node i.isLt
        present := registry.present.set i true i.isLt }, true)

/-- Recalculate online state for every observed node.  Every iteration of the
source's loop reads and writes its own slot only. -/
def refresh (registry : NodeRegistry) (nowMs : UInt32) : NodeRegistry :=
  { registry with
    nodes := Vector.ofFn fun i =>
      if !registry.present.get i then registry.nodes.get i
      else
        -- modulo 2^32: the flag is set again when the difference is small again
        let elapsed := nowMs - (registry.nodes.get i).lastSeenMs
        { registry.nodes.get i with online := decide (elapsed ≤ registry.timeoutMs) } }

/-- Read one node's status. -/
def get (registry : NodeRegistry) (nodeId : UInt8) : Option NodeStatus :=
  if h : nodeId.toNat ≥ kMaxNodes then none
  else
    let i : Fin kMaxNodes := ⟨nodeId.toNat, Nat.lt_of_not_ge h⟩
    if !registry.present.get i then none else some (registry.nodes.get i)

/-- The loop condition of `onlineCount`. -/
def counts (registry : NodeRegistry) (i : Fin kMaxNodes) : Bool :=
  registry.present.get i && (registry.nodes.get i).online

/-- Number of currently online observed nodes. -/
def onlineCount (registry : NodeRegistry) : ℕ :=
  (List.finRange kMaxNodes).countP registry.counts

end NodeRegistry

/-! ### The registry as a machine -/

/-- A call on the registry. -/
inductive RegistryOp (τ : Type) where
  | observe (nodeId sequence : UInt8) (nowMs : τ)
  | refresh (nowMs : τ)
  | get (nodeId : UInt8)
  | onlineCount

/-- The value a call returns. -/
inductive RegistryReply where
  | observed (accepted : Bool)
  | refreshed
  | status (status : Option NodeStatus)
  | counted (online : ℕ)
  deriving DecidableEq, Repr

/-- The same call at another clock's time. -/
def RegistryOp.mapTime {τ τ' : Type} (f : τ → τ') : RegistryOp τ → RegistryOp τ'
  | .observe nodeId sequence nowMs => .observe nodeId sequence (f nowMs)
  | .refresh nowMs => .refresh (f nowMs)
  | .get nodeId => .get nodeId
  | .onlineCount => .onlineCount

/-- One call. -/
def NodeRegistry.step (registry : NodeRegistry) :
    RegistryOp UInt32 → NodeRegistry × RegistryReply
  | .observe nodeId sequence nowMs =>
    ((registry.observe nodeId sequence nowMs).1,
      .observed (registry.observe nodeId sequence nowMs).2)
  | .refresh nowMs => (registry.refresh nowMs, .refreshed)
  | .get nodeId => (registry, .status (registry.get nodeId))
  | .onlineCount => (registry, .counted registry.onlineCount)

/-- The registry as a machine over its calls. -/
def nodeRegistry (timeoutMs : UInt32) : Mealy NodeRegistry (RegistryOp UInt32) RegistryReply where
  start := .new timeoutMs
  step := NodeRegistry.step

end PicoMesh
