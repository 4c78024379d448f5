import PicoMesh.Equiv.ClockChange
import PicoMesh.Equiv.NodeRegistry

/-!
# The zero of the clock does not matter

Adding a constant to every `now_ms`, modulo 2^32, changes no answer of the retry
queue, and of the node registry only the reported `last_seen_ms`
(`time_shift`).  The deadlines of active slots and the times of present nodes
move along with the clock; the values that inactive slots and absent nodes hold,
among them the initial zeros, do not, and nothing depends on them.
-/

namespace PicoMesh

variable (c : UInt32)

/-- A shift cancels in a difference. -/
theorem sub_shift (a b : UInt32) : a + c - (b + c) = a - b := by
  grind

/-! ### The retry queue -/

theorem after_add (nowMs timeoutMs : UInt32) :
    after nowMs timeoutMs + c = after (nowMs + c) timeoutMs := by
  show nowMs + timeoutMs + c = nowMs + c + timeoutMs
  grind

/-- A deadline test sees differences only. -/
theorem deadlineReached_add (nowMs deadline : UInt32) :
    deadlineReached (nowMs + c) (deadline + c) = deadlineReached nowMs deadline := by
  show decide (0 ≤ (nowMs + c - (deadline + c)).toInt32) = decide (0 ≤ (nowMs - deadline).toInt32)
  rw [sub_shift]

/-- Two queues on clocks that differ by a constant answer alike. -/
theorem reliableQueue_shift (policy : RetryPolicy) :
    Mealy.Simulation (reliableQueue policy) (reliableQueue policy) (QueueOp.mapTime (· + c))
      (fun _ _ => True) (ReliableQueue.Matches (· + c)) := by
  have hdue : ∀ (queue : ReliableQueue UInt32) nowMs, ReliableQueue.SameDue (· + c) queue nowMs :=
    fun queue nowMs i _ => deadlineReached_add c nowMs _
  constructor
  · intro queue₁ queue₂ op h _
    exact (h.step (after_add c) op fun nowMs _ => hdue queue₁ nowMs).2
  · intro queue₁ queue₂ op h _
    exact (h.step (after_add c) op fun nowMs _ => hdue queue₁ nowMs).1

/-! ### The node registry -/

/-- The same status, heard at another time. -/
def NodeStatus.shift (status : NodeStatus) : NodeStatus :=
  { status with lastSeenMs := status.lastSeenMs + c }

/-- The same answer, with the reported time shifted. -/
def RegistryReply.shift : RegistryReply → RegistryReply
  | .status known => .status (known.map (NodeStatus.shift c))
  | reply => reply

namespace NodeRegistry

/-- Two registries on clocks that differ by `c`; an absent node does not matter. -/
structure Shifted (registry₁ registry₂ : NodeRegistry) : Prop where
  timeoutMs : registry₂.timeoutMs = registry₁.timeoutMs
  present : registry₂.present = registry₁.present
  node : ∀ i : Fin kMaxNodes, registry₁.present.get i = true →
    registry₂.nodes.get i = (registry₁.nodes.get i).shift c

variable {c} {registry₁ registry₂ : NodeRegistry}

theorem shifted_new (timeoutMs : UInt32) : Shifted c (new timeoutMs) (new timeoutMs) where
  timeoutMs := rfl
  present := rfl
  node i hi := by
    rw [show (new timeoutMs).present.get i = false from Vector.getElem_replicate i.isLt] at hi
    cases hi

theorem Shifted.observe (h : Shifted c registry₁ registry₂) (nodeId sequence : UInt8)
    (nowMs : UInt32) :
    Shifted c (registry₁.observe nodeId sequence nowMs).1
        (registry₂.observe nodeId sequence (nowMs + c)).1 ∧
      (registry₂.observe nodeId sequence (nowMs + c)).2 =
        (registry₁.observe nodeId sequence nowMs).2 := by
  rcases lt_or_ge nodeId.toNat kMaxNodes with hlt | hge
  · refine ⟨⟨?_, ?_, fun i hi => ?_⟩, ?_⟩
    · rw [timeoutMs_observe, timeoutMs_observe, h.timeoutMs]
    · rw [observe_of_lt _ _ _ _ hlt, observe_of_lt _ _ _ _ hlt, h.present]
    · rw [present_observe] at hi
      rw [nodes_observe, nodes_observe]
      split_ifs at hi ⊢
      · rfl
      · exact h.node i hi
    · rw [observe_of_lt _ _ _ _ hlt, observe_of_lt _ _ _ _ hlt]
  · rw [observe_of_ge _ _ _ _ hge, observe_of_ge _ _ _ _ hge]
    exact ⟨h, rfl⟩

theorem Shifted.refresh (h : Shifted c registry₁ registry₂) (nowMs : UInt32) :
    Shifted c (registry₁.refresh nowMs) (registry₂.refresh (nowMs + c)) := by
  refine ⟨?_, ?_, fun i hi => ?_⟩
  · rw [timeoutMs_refresh, timeoutMs_refresh, h.timeoutMs]
  · rw [present_refresh, present_refresh, h.present]
  · rw [present_refresh] at hi
    rw [nodes_refresh, nodes_refresh, h.present, if_pos hi, if_pos hi, h.node i hi, h.timeoutMs,
      NodeStatus.shift, NodeStatus.shift, sub_shift]

theorem Shifted.get (h : Shifted c registry₁ registry₂) (nodeId : UInt8) :
    registry₂.get nodeId = (registry₁.get nodeId).map (NodeStatus.shift c) := by
  unfold NodeRegistry.get
  rcases lt_or_ge nodeId.toNat kMaxNodes with hlt | hge
  · rw [dif_neg (Nat.not_le_of_lt hlt), dif_neg (Nat.not_le_of_lt hlt)]
    simp only [h.present]
    cases hpresent : registry₁.present.get ⟨nodeId.toNat, hlt⟩ with
    | false => rfl
    | true => exact congrArg some (h.node _ hpresent)
  · rw [dif_pos hge, dif_pos hge]
    rfl

theorem Shifted.onlineCount (h : Shifted c registry₁ registry₂) :
    registry₂.onlineCount = registry₁.onlineCount := by
  have hcounts : registry₂.counts = registry₁.counts := by
    funext i
    unfold counts
    rw [h.present]
    cases hpresent : registry₁.present.get i with
    | false => rfl
    | true =>
      rw [h.node i hpresent]
      rfl
  rw [NodeRegistry.onlineCount, hcounts, ← NodeRegistry.onlineCount]

end NodeRegistry

/-- Two registries on clocks that differ by a constant answer alike up to the shift of
the reported times. -/
theorem nodeRegistry_shift (timeoutMs : UInt32) :
    Mealy.Simulation ((nodeRegistry timeoutMs).mapOutput (RegistryReply.shift c))
      (nodeRegistry timeoutMs) (RegistryOp.mapTime (· + c)) (fun _ _ => True)
      (NodeRegistry.Shifted c) := by
  constructor
  · intro registry₁ registry₂ op h _
    cases op with
    | observe nodeId sequence nowMs =>
      exact congrArg RegistryReply.observed (h.observe nodeId sequence nowMs).2
    | refresh nowMs => rfl
    | get nodeId => exact congrArg RegistryReply.status (h.get nodeId)
    | onlineCount => exact congrArg RegistryReply.counted h.onlineCount
  · intro registry₁ registry₂ op h _
    cases op with
    | observe nodeId sequence nowMs => exact (h.observe nodeId sequence nowMs).1
    | refresh nowMs => exact h.refresh nowMs
    | get nodeId => exact h
    | onlineCount => exact h

/-- **Wraparound has no observable effect.**  Shifting every time by a constant modulo
2^32 leaves every answer of a fresh queue as it is, and every answer of a fresh
registry except for the reported `last_seen_ms`, which are shifted as well. -/
theorem time_shift (c : UInt32) :
    (∀ policy (ops : List (QueueOp UInt32)),
      (reliableQueue policy).outputs (reliableQueue policy).start
          (ops.map (QueueOp.mapTime (· + c))) =
        (reliableQueue policy).outputs (reliableQueue policy).start ops) ∧
    (∀ timeoutMs (ops : List (RegistryOp UInt32)),
      (nodeRegistry timeoutMs).outputs (nodeRegistry timeoutMs).start
          (ops.map (RegistryOp.mapTime (· + c))) =
        ((nodeRegistry timeoutMs).outputs (nodeRegistry timeoutMs).start ops).map
          (RegistryReply.shift c)) := by
  constructor
  · intro policy ops
    exact (reliableQueue_shift c policy).outputs (ReliableQueue.matches_new policy)
      ((reliableQueue policy).along_of_forall fun _ _ => trivial)
  · intro timeoutMs ops
    rw [← Mealy.outputs_mapOutput]
    exact (nodeRegistry_shift c timeoutMs).outputs (NodeRegistry.shifted_new timeoutMs)
      (Mealy.along_of_forall _ fun _ _ => trivial)

end PicoMesh
