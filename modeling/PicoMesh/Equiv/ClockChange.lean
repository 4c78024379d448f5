import PicoMesh.Equiv.Reliability

/-!
# Running the retry queue on another clock

The queue's text is generic in the clock, so two runs of it over different
clocks differ only in what `deadlineReached` answers.  `Matches f` relates two
queues whose slots agree, active deadlines being carried over by `f`; if `f`
respects `after`, every call whose due tests agree keeps the relation and gives
the same answer (`Matches.step`).
-/

namespace PicoMesh

variable {τ₁ τ₂ : Type} [Clock τ₁] [Clock τ₂] {f : τ₁ → τ₂}

/-- Two slots that agree; the deadline of an inactive slot does not matter. -/
structure Slot.Matches (f : τ₁ → τ₂) (slot₁ : Slot τ₁) (slot₂ : Slot τ₂) : Prop where
  frame : slot₂.frame = slot₁.frame
  attempts : slot₂.attempts = slot₁.attempts
  active : slot₂.active = slot₁.active
  deadline : slot₁.active = true → slot₂.deadlineMs = f slot₁.deadlineMs

/-- The slots of two queues that were both built or both cleared. -/
theorem Slot.matches_replicate (i : Fin kMaxPendingTransmissions) :
    ((Vector.replicate kMaxPendingTransmissions ({} : Slot τ₁)).get i).Matches f
      ((Vector.replicate kMaxPendingTransmissions ({} : Slot τ₂)).get i) := by
  rw [SlotTable.get_replicate, SlotTable.get_replicate]
  exact ⟨rfl, rfl, rfl, fun h => Bool.noConfusion h⟩

/-- Slots that agree still do after both are sent. -/
theorem Slot.Matches.sent {slot₁ : Slot τ₁} {slot₂ : Slot τ₂} (h : slot₁.Matches f slot₂)
    (hafter : ∀ nowMs timeoutMs, f (after nowMs timeoutMs) = after (f nowMs) timeoutMs)
    (nowMs : τ₁) (policy : RetryPolicy) :
    (slot₁.sent nowMs policy).Matches f (slot₂.sent (f nowMs) policy) where
  frame := h.frame
  attempts := congrArg (· + 1) h.attempts
  active := h.active
  deadline _ := (hafter nowMs policy.timeoutMs).symm

namespace ReliableQueue

variable {queue₁ : ReliableQueue τ₁} {queue₂ : ReliableQueue τ₂}

/-- Two queues that agree slot by slot. -/
structure Matches (f : τ₁ → τ₂) (queue₁ : ReliableQueue τ₁) (queue₂ : ReliableQueue τ₂) :
    Prop where
  policy : queue₂.policy = queue₁.policy
  slot : ∀ i : Fin kMaxPendingTransmissions, (queue₁.slots.get i).Matches f (queue₂.slots.get i)

/-- The first queue's due tests at `nowMs` come out the same on the second clock. -/
def SameDue (f : τ₁ → τ₂) (queue : ReliableQueue τ₁) (nowMs : τ₁) : Prop :=
  ∀ i : Fin kMaxPendingTransmissions, (queue.slots.get i).active = true →
    deadlineReached (f nowMs) (f (queue.slots.get i).deadlineMs) =
      deadlineReached nowMs (queue.slots.get i).deadlineMs

/-! ### Scans agree -/

theorem Matches.first_holds (h : Matches f queue₁ queue₂) (nodeId sequence : UInt8) :
    SlotTable.first (holds nodeId sequence) queue₂.slots =
      SlotTable.first (holds nodeId sequence) queue₁.slots := by
  apply SlotTable.first_congr
  intro i
  unfold holds
  rw [(h.slot i).active, (h.slot i).frame]

theorem Matches.first_free (h : Matches f queue₁ queue₂) :
    SlotTable.first (fun slot : Slot τ₂ => !slot.active) queue₂.slots =
      SlotTable.first (fun slot : Slot τ₁ => !slot.active) queue₁.slots := by
  apply SlotTable.first_congr
  intro i
  rw [(h.slot i).active]

theorem Matches.first_due (h : Matches f queue₁ queue₂) {nowMs : τ₁}
    (hdue : SameDue f queue₁ nowMs) :
    SlotTable.first (due (f nowMs)) queue₂.slots = SlotTable.first (due nowMs) queue₁.slots := by
  apply SlotTable.first_congr
  intro i
  unfold due
  rw [(h.slot i).active]
  cases hi : (queue₁.slots.get i).active with
  | false => rfl
  | true => rw [(h.slot i).deadline hi, hdue i hi]

/-! ### Writes keep the relation -/

theorem Matches.set (h : Matches f queue₁ queue₂) (i : Fin kMaxPendingTransmissions)
    {slot₁ : Slot τ₁} {slot₂ : Slot τ₂} (hslot : slot₁.Matches f slot₂) :
    Matches f { queue₁ with slots := queue₁.slots.set i slot₁ i.isLt }
      { queue₂ with slots := queue₂.slots.set i slot₂ i.isLt } := by
  refine ⟨h.policy, fun j => ?_⟩
  show ((queue₁.slots.set i slot₁ i.isLt).get j).Matches f
    ((queue₂.slots.set i slot₂ i.isLt).get j)
  rw [SlotTable.get_set, SlotTable.get_set]
  split_ifs
  · exact hslot
  · exact h.slot j

theorem Matches.release (h : Matches f queue₁ queue₂) (i : Fin kMaxPendingTransmissions) :
    Matches f (queue₁.release i) (queue₂.release i) := by
  apply h.set i
  exact ⟨(h.slot i).frame, (h.slot i).attempts, rfl, fun ha => nomatch ha⟩

theorem matches_new (policy : RetryPolicy) : Matches f (new policy) (new policy) :=
  ⟨rfl, Slot.matches_replicate⟩

/-! ### Calls -/

theorem Matches.enqueue (h : Matches f queue₁ queue₂) (frame : Frame) (nowMs : τ₁) :
    Matches f (queue₁.enqueue frame nowMs).1 (queue₂.enqueue frame (f nowMs)).1 ∧
      (queue₂.enqueue frame (f nowMs)).2 = (queue₁.enqueue frame nowMs).2 := by
  unfold ReliableQueue.enqueue
  rw [h.first_holds, h.first_free]
  split_ifs
  · exact ⟨h, rfl⟩
  · cases SlotTable.first (holds frame.nodeId frame.sequence) queue₁.slots with
    | some _ => exact ⟨h, rfl⟩
    | none =>
      cases SlotTable.first (fun slot : Slot τ₁ => !slot.active) queue₁.slots with
      | some i => exact ⟨h.set i ⟨rfl, rfl, rfl, fun _ => rfl⟩, rfl⟩
      | none => exact ⟨h, rfl⟩

theorem Matches.nextDue (h : Matches f queue₁ queue₂)
    (hafter : ∀ nowMs timeoutMs, f (after nowMs timeoutMs) = after (f nowMs) timeoutMs)
    {nowMs : τ₁} (hdue : SameDue f queue₁ nowMs) :
    Matches f (queue₁.nextDue nowMs).1 (queue₂.nextDue (f nowMs)).1 ∧
      (queue₂.nextDue (f nowMs)).2 = (queue₁.nextDue nowMs).2 := by
  have hfirst := h.first_due hdue
  cases hscan : SlotTable.first (due nowMs) queue₁.slots with
  | none =>
    rw [hscan] at hfirst
    rw [nextDue_none hscan, nextDue_none hfirst]
    exact ⟨h, rfl⟩
  | some i =>
    rw [hscan] at hfirst
    have hslot := h.slot i
    have hattempts := hslot.attempts
    have hpolicy := h.policy
    rcases Decidable.em ((queue₁.slots.get i).attempts < queue₁.policy.maxAttempts) with
      hleft | hleft
    · rw [nextDue_send hscan hleft, nextDue_send hfirst (by rwa [hattempts, hpolicy])]
      refine ⟨h.set i ?_, ?_⟩
      · rw [hpolicy]
        exact hslot.sent hafter nowMs queue₁.policy
      · show TxDecision.mk .send (queue₂.slots.get i).frame ((queue₂.slots.get i).attempts + 1) = _
        rw [hattempts, hslot.frame]
    · rw [nextDue_exhausted hscan hleft, nextDue_exhausted hfirst (by rwa [hattempts, hpolicy]),
        hattempts, hslot.frame]
      exact ⟨h.release i, rfl⟩

theorem Matches.acknowledge (h : Matches f queue₁ queue₂) (nodeId sequence : UInt8)
    (status : AckStatus) :
    Matches f (queue₁.acknowledge nodeId sequence status).1
        (queue₂.acknowledge nodeId sequence status).1 ∧
      (queue₂.acknowledge nodeId sequence status).2 =
        (queue₁.acknowledge nodeId sequence status).2 := by
  unfold ReliableQueue.acknowledge
  rw [h.first_holds]
  cases SlotTable.first (holds nodeId sequence) queue₁.slots with
  | some i => exact ⟨h.release i, rfl⟩
  | none => exact ⟨h, rfl⟩

theorem Matches.cancel (h : Matches f queue₁ queue₂) (nodeId sequence : UInt8) :
    Matches f (queue₁.cancel nodeId sequence).1 (queue₂.cancel nodeId sequence).1 ∧
      (queue₂.cancel nodeId sequence).2 = (queue₁.cancel nodeId sequence).2 := by
  unfold ReliableQueue.cancel
  rw [h.first_holds]
  cases SlotTable.first (holds nodeId sequence) queue₁.slots with
  | some i => exact ⟨h.release i, rfl⟩
  | none => exact ⟨h, rfl⟩

theorem Matches.pendingCount (h : Matches f queue₁ queue₂) :
    queue₂.pendingCount = queue₁.pendingCount := by
  unfold ReliableQueue.pendingCount
  apply SlotTable.count_congr
  intro i
  exact (h.slot i).active

theorem Matches.clear (h : Matches f queue₁ queue₂) : Matches f queue₁.clear queue₂.clear :=
  ⟨h.policy, Slot.matches_replicate⟩

/-- **One call on two clocks**: it keeps matching queues matching and answers
alike, provided `nextDue` finds the same slots due. -/
theorem Matches.step (h : Matches f queue₁ queue₂)
    (hafter : ∀ nowMs timeoutMs, f (after nowMs timeoutMs) = after (f nowMs) timeoutMs)
    (op : QueueOp τ₁) (hdue : ∀ nowMs, op = .nextDue nowMs → SameDue f queue₁ nowMs) :
    Matches f (queue₁.step op).1 (queue₂.step (op.mapTime f)).1 ∧
      (queue₂.step (op.mapTime f)).2 = (queue₁.step op).2 := by
  cases op with
  | enqueue frame nowMs =>
    exact (h.enqueue frame nowMs).imp id (congrArg QueueReply.enqueued)
  | nextDue nowMs =>
    exact (h.nextDue hafter (hdue nowMs rfl)).imp id (congrArg QueueReply.decided)
  | acknowledge nodeId sequence status =>
    exact (h.acknowledge nodeId sequence status).imp id (congrArg QueueReply.acknowledged)
  | cancel nodeId sequence =>
    exact (h.cancel nodeId sequence).imp id (congrArg QueueReply.cancelled)
  | pendingCount => exact ⟨h, congrArg QueueReply.counted h.pendingCount⟩
  | clear => exact ⟨h.clear, rfl⟩

end ReliableQueue

end PicoMesh
