import PicoMesh.Equiv.Reliability
import PicoMesh.Library.SerialNumber

/-!
# Draining the retry queue

A caller polls `nextDue` until it answers that nothing is due.  With a timeout
of zero, or of more than half the clock's range, a slot is due again at once
after it was sent, so what ends the drain is not the number of slots but the
number of decisions they have left: an active slot is sent until its attempts
reach the limit and is then given up once.  `budget` is the sum of these, every
decision takes one from it, and no call but `enqueue` adds to it
(`Represents.budget_step`).

Where a sent slot is not due again at the same time, a drain is one pass over
the slots that were due when it began, in slot order (`drain_pass`).
-/

namespace PicoMesh

/-! ### The decisions left -/

section Clock

variable {τ : Type} [Clock τ]

namespace Slot

/-- The decisions an active slot has left: its sends up to the limit and the one
that gives it up. -/
def budget (policy : RetryPolicy) (slot : Slot τ) : ℕ :=
  if slot.active then policy.maxAttempts.toNat + 1 - slot.attempts.toNat else 0

/-- The decision `nextDue` makes about a slot that is due. -/
def decision (policy : RetryPolicy) (slot : Slot τ) : TxDecision :=
  if slot.attempts < policy.maxAttempts then ⟨.send, slot.frame, slot.attempts + 1⟩
  else ⟨.exhausted, slot.frame, slot.attempts⟩

/-- A slot after `nextDue` has decided about it. -/
def served (nowMs : τ) (policy : RetryPolicy) (slot : Slot τ) : Slot τ :=
  if slot.attempts < policy.maxAttempts then slot.sent nowMs policy
  else { slot with active := false }

theorem action_decision (policy : RetryPolicy) (slot : Slot τ) :
    (slot.decision policy).action ≠ .none := by
  unfold decision
  split_ifs <;> simp

/-- A slot given up or released has nothing left. -/
theorem budget_release (policy : RetryPolicy) (slot : Slot τ) :
    budget policy { slot with active := false } = 0 := if_neg (by simp)

/-- **A decision takes one from a slot's budget.** -/
theorem budget_served {policy : RetryPolicy} {slot : Slot τ} (hactive : slot.active = true)
    (hle : slot.attempts ≤ policy.maxAttempts) (nowMs : τ) :
    (slot.served nowMs policy).budget policy + 1 = slot.budget policy := by
  have hle' : slot.attempts.toNat ≤ policy.maxAttempts.toNat := UInt8.le_iff_toNat_le.mp hle
  have hbudget : slot.budget policy = policy.maxAttempts.toNat + 1 - slot.attempts.toNat :=
    if_pos hactive
  rw [served, hbudget]
  split_ifs with hleft
  · -- below the limit the attempt counter does not wrap
    have hlt : slot.attempts.toNat < policy.maxAttempts.toNat := UInt8.lt_iff_toNat_lt.mp hleft
    have hmax := policy.maxAttempts.toNat_lt
    have hsucc : (slot.attempts + 1).toNat = slot.attempts.toNat + 1 := by
      rw [UInt8.toNat_add]
      exact Nat.mod_eq_of_lt (by simp; omega)
    have hsent : (slot.sent nowMs policy).budget policy =
        policy.maxAttempts.toNat + 1 - (slot.attempts + 1).toNat := if_pos hactive
    omega
  · have hspent : ¬slot.attempts.toNat < policy.maxAttempts.toNat :=
      fun hlt => hleft (UInt8.lt_iff_toNat_lt.mpr hlt)
    rw [budget_release]
    omega

end Slot

/-- Whether a call adds to the queue. -/
def QueueOp.isEnqueue : QueueOp τ → Bool
  | .enqueue _ _ => true
  | _ => false

/-- Whether an answer is a decision to send or to give up. -/
def QueueReply.decides : QueueReply → Bool
  | .decided decision => decision.action ≠ .none
  | _ => false

/-- The number of decisions among some answers. -/
def decisions (replies : List QueueReply) : ℕ := replies.countP QueueReply.decides

namespace ReliableQueue

/-- The decisions the active slots have left, under the limit the queue runs with. -/
def budget (queue : ReliableQueue τ) : ℕ :=
  SlotTable.total (Slot.budget queue.policy) queue.slots

variable {policy : RetryPolicy} {queue : ReliableQueue τ} {table : PendingTable τ policy}

/-- The first due slot is decided about and written back. -/
theorem nextDue_some {nowMs : τ} {i : Fin kMaxPendingTransmissions}
    (hscan : SlotTable.first (due nowMs) queue.slots = some i) :
    queue.nextDue nowMs =
      ({ queue with
          slots := queue.slots.set i ((queue.slots.get i).served nowMs queue.policy) i.isLt },
        (queue.slots.get i).decision queue.policy) := by
  rcases Decidable.em ((queue.slots.get i).attempts < queue.policy.maxAttempts) with hleft | hleft
  · rw [nextDue_send hscan hleft, Slot.served, if_pos hleft, Slot.decision, if_pos hleft]
  · rw [nextDue_exhausted hscan hleft, Slot.served, if_neg hleft, Slot.decision, if_neg hleft]
    rfl

/-- No active slot has been sent more often than the queue allows. -/
theorem Represents.attempts_le (h : queue.Represents table) {i : Fin kMaxPendingTransmissions}
    (hi : (queue.slots.get i).active = true) :
    (queue.slots.get i).attempts ≤ queue.policy.maxAttempts := by
  rw [h.policy_eq]
  exact table.budget _ _ (h.get_slot hi)

/-! ### One call -/

/-- An acknowledgement changes nothing or releases one slot. -/
theorem acknowledge_cases (queue : ReliableQueue τ) (nodeId sequence : UInt8)
    (status : AckStatus) :
    (queue.acknowledge nodeId sequence status).1 = queue ∨
      ∃ i, (queue.acknowledge nodeId sequence status).1 = queue.release i := by
  unfold ReliableQueue.acknowledge
  cases SlotTable.first (holds nodeId sequence) queue.slots with
  | none => exact .inl rfl
  | some i => exact .inr ⟨i, rfl⟩

/-- A cancellation changes nothing or releases one slot. -/
theorem cancel_cases (queue : ReliableQueue τ) (nodeId sequence : UInt8) :
    (queue.cancel nodeId sequence).1 = queue ∨
      ∃ i, (queue.cancel nodeId sequence).1 = queue.release i := by
  unfold ReliableQueue.cancel
  cases SlotTable.first (holds nodeId sequence) queue.slots with
  | none => exact .inl rfl
  | some i => exact .inr ⟨i, rfl⟩

/-- Releasing a slot does not raise the budget. -/
theorem budget_release_le (i : Fin kMaxPendingTransmissions) :
    (queue.release i).budget ≤ queue.budget := by
  have htotal := SlotTable.total_set (Slot.budget queue.policy) queue.slots i
    { queue.slots.get i with active := false }
  rw [Slot.budget_release, Nat.add_zero] at htotal
  have hwrite : (queue.release i).budget = SlotTable.total (Slot.budget queue.policy)
      (queue.slots.set i { queue.slots.get i with active := false } i.isLt) := rfl
  rw [hwrite, budget]
  omega

/-- `nextDue` takes exactly one from the budget when it decides, and nothing when
it does not. -/
theorem Represents.budget_nextDue (h : queue.Represents table) (nowMs : τ) :
    (queue.nextDue nowMs).1.budget +
      (if (queue.nextDue nowMs).2.action ≠ .none then 1 else 0) = queue.budget := by
  cases hscan : SlotTable.first (due nowMs) queue.slots with
  | none =>
    rw [nextDue_none hscan, if_neg (by simp)]
    rfl
  | some i =>
    obtain ⟨hi, -⟩ := due_iff.mp (SlotTable.first_eq_some.mp hscan).1
    have htotal := SlotTable.total_set (Slot.budget queue.policy) queue.slots i
      ((queue.slots.get i).served nowMs queue.policy)
    have hslot := Slot.budget_served hi (h.attempts_le hi) nowMs
    rw [nextDue_some hscan, if_pos (Slot.action_decision _ _)]
    unfold budget
    dsimp only
    omega

/-- **No call but `enqueue` adds to the budget, and a decision takes one from it.** -/
theorem Represents.budget_step (h : queue.Represents table) {op : QueueOp τ}
    (hop : op.isEnqueue = false) :
    (queue.step op).1.budget + (if (queue.step op).2.decides then 1 else 0) ≤ queue.budget := by
  cases op with
  | enqueue frame nowMs => cases hop
  | nextDue nowMs =>
    have hbudget := h.budget_nextDue nowMs
    show (queue.nextDue nowMs).1.budget +
      (if decide ((queue.nextDue nowMs).2.action ≠ .none) then 1 else 0) ≤ queue.budget
    simp only [decide_eq_true_eq]
    exact hbudget.le
  | acknowledge nodeId sequence status =>
    show (queue.acknowledge nodeId sequence status).1.budget + 0 ≤ queue.budget
    rcases acknowledge_cases queue nodeId sequence status with hsame | ⟨i, hrelease⟩
    · rw [hsame, Nat.add_zero]
    · rw [hrelease, Nat.add_zero]
      exact budget_release_le i
  | cancel nodeId sequence =>
    show (queue.cancel nodeId sequence).1.budget + 0 ≤ queue.budget
    rcases cancel_cases queue nodeId sequence with hsame | ⟨i, hrelease⟩
    · rw [hsame, Nat.add_zero]
    · rw [hrelease, Nat.add_zero]
      exact budget_release_le i
  | pendingCount =>
    show queue.budget + 0 ≤ queue.budget
    rw [Nat.add_zero]
  | clear =>
    have hclear : queue.clear.budget = 0 :=
      SlotTable.total_replicate (if_neg (by simp))
    show queue.clear.budget + 0 ≤ queue.budget
    omega

/-! ### Runs without `enqueue` -/

/-- **A run without `enqueue` makes no more decisions than the budget.** -/
theorem Represents.decisions_le (h : queue.Represents table) (built : RetryPolicy)
    {later : List (QueueOp τ)} (hlater : ∀ op ∈ later, op.isEnqueue = false) :
    decisions ((reliableQueue built).outputs queue later) ≤ queue.budget := by
  induction later generalizing queue table with
  | nil => exact Nat.zero_le _
  | cons op later ih =>
    obtain ⟨table', h', -⟩ := h.step op
    have hstep := h.budget_step (hlater op List.mem_cons_self)
    have hrest := ih h' fun op' hop' => hlater op' (List.mem_cons_of_mem _ hop')
    unfold decisions at hrest ⊢
    rw [Mealy.outputs_cons, List.countP_cons]
    exact (Nat.add_le_add_right hrest _).trans hstep

/-- **Polling at a fixed time ends**: within the budget some poll finds nothing due. -/
theorem Represents.exists_none (h : queue.Represents table) (built : RetryPolicy) (nowMs : τ) :
    ∃ polls ≤ queue.budget,
      (((reliableQueue built).run queue (List.replicate polls (.nextDue nowMs))).nextDue
        nowMs).2.action = .none := by
  by_contra hnever
  push Not at hnever
  -- otherwise one poll more than the budget would make one decision more
  have hle : decisions ((reliableQueue built).outputs queue
      (List.replicate (queue.budget + 1) (.nextDue nowMs))) ≤ queue.budget := by
    apply h.decisions_le built
    intro op hop
    rw [List.eq_of_mem_replicate hop]
    rfl
  have hall : decisions ((reliableQueue built).outputs queue
      (List.replicate (queue.budget + 1) (.nextDue nowMs))) = queue.budget + 1 := by
    unfold decisions
    rw [List.countP_eq_length.mpr, Mealy.length_outputs, List.length_replicate]
    intro reply hreply
    obtain ⟨polls, hpolls, rfl⟩ := List.getElem_of_mem hreply
    rw [Mealy.length_outputs, List.length_replicate] at hpolls
    rw [Mealy.getElem_outputs _ _ _ _ (by rwa [List.length_replicate]), List.take_replicate,
      Nat.min_eq_left hpolls.le, List.getElem_replicate]
    exact decide_eq_true (hnever polls (Nat.le_of_lt_succ hpolls))
  omega

end ReliableQueue

end Clock

/-! ### One pass -/

/-- A deadline a timeout from now is not reached, unless the timeout is zero or
more than half the clock's range. -/
theorem deadlineReached_after {nowMs timeoutMs : UInt32} (hpos : 1 ≤ timeoutMs.toNat)
    (hhalf : timeoutMs.toNat ≤ 2 ^ 31) :
    deadlineReached nowMs (after nowMs timeoutMs) = false := by
  have hback : (nowMs - (nowMs + timeoutMs)).toNat = 2 ^ 32 - timeoutMs.toNat := by
    rw [UInt32.toNat_sub, UInt32.toNat_add]
    have hnow := nowMs.toNat_lt
    omega
  apply decide_eq_false
  rw [SerialNumber.toInt32_nonneg_iff]
  show ¬(nowMs - (nowMs + timeoutMs)).toNat < 2 ^ 31
  omega

namespace ReliableQueue

variable {queue : ReliableQueue UInt32}

/-- A slot that was decided about is not due again. -/
theorem due_served {policy : RetryPolicy} (hpos : 1 ≤ policy.timeoutMs.toNat)
    (hhalf : policy.timeoutMs.toNat ≤ 2 ^ 31) (nowMs : UInt32) (slot : Slot UInt32) :
    due nowMs (slot.served nowMs policy) = false := by
  unfold Slot.served due
  split_ifs
  · show (slot.active && deadlineReached nowMs (after nowMs policy.timeoutMs)) = false
    rw [deadlineReached_after hpos hhalf, Bool.and_false]
  · rfl

/-- The slots due at a time, in slot order. -/
def dueSlots (queue : ReliableQueue UInt32) (nowMs : UInt32) :
    List (Fin kMaxPendingTransmissions) :=
  SlotTable.positions (due nowMs) queue.slots

/-- **A drain is one pass over the due slots.**  By induction on the slots still
due: the first of them heads the scan, and serving it leaves the others. -/
theorem drain_pass (built : RetryPolicy) (hpos : 1 ≤ queue.policy.timeoutMs.toNat)
    (hhalf : queue.policy.timeoutMs.toNat ≤ 2 ^ 31) (nowMs : UInt32) :
    (reliableQueue built).outputs queue
        (List.replicate ((queue.dueSlots nowMs).length + 1) (.nextDue nowMs)) =
      (queue.dueSlots nowMs).map
        (fun i => .decided ((queue.slots.get i).decision queue.policy)) ++ [.decided {}] ∧
    ∀ i, ((reliableQueue built).run queue
        (List.replicate ((queue.dueSlots nowMs).length + 1) (.nextDue nowMs))).slots.get i =
      if i ∈ queue.dueSlots nowMs then (queue.slots.get i).served nowMs queue.policy
      else queue.slots.get i := by
  unfold dueSlots
  generalize hdue : SlotTable.positions (due nowMs) queue.slots = dueSlots
  have hfirst := SlotTable.first_eq_head (due nowMs) queue.slots
  rw [hdue] at hfirst
  induction dueSlots generalizing queue with
  | nil =>
    have hstep : (reliableQueue built).step queue (.nextDue nowMs) = (queue, .decided {}) := by
      show (_, QueueReply.decided _) = _
      rw [nextDue_none hfirst]
    constructor
    · show [((reliableQueue built).step queue (.nextDue nowMs)).2] = _
      rw [hstep]
      rfl
    · intro i
      show ((reliableQueue built).step queue (.nextDue nowMs)).1.slots.get i = _
      rw [hstep, if_neg List.not_mem_nil]
  | cons i rest ih =>
    have hstep : (reliableQueue built).step queue (.nextDue nowMs) =
        ({ queue with
            slots := queue.slots.set i ((queue.slots.get i).served nowMs queue.policy) i.isLt },
          .decided ((queue.slots.get i).decision queue.policy)) := by
      show (_, QueueReply.decided _) = _
      rw [nextDue_some hfirst]
    have hrest := SlotTable.positions_set hdue (due_served hpos hhalf nowMs (queue.slots.get i))
    have hhead := SlotTable.first_eq_head (due nowMs)
      (queue.slots.set i ((queue.slots.get i).served nowMs queue.policy) i.isLt)
    rw [hrest] at hhead
    have hnodup := SlotTable.nodup_positions (due nowMs) queue.slots
    rw [hdue, List.nodup_cons] at hnodup
    -- the policy is the same one, so the rest of the pass is the claim for `rest`
    obtain ⟨hout, hrun⟩ := @ih
      { queue with
        slots := queue.slots.set i ((queue.slots.get i).served nowMs queue.policy) i.isLt }
      hpos hhalf hrest hhead
    rw [List.length_cons, List.replicate_succ]
    constructor
    · rw [Mealy.outputs_cons, hstep, hout, List.map_cons, List.cons_append]
      -- the slots served later are not the one just written
      congr 2
      apply List.map_congr_left
      intro j hj
      have hne : i ≠ j := by
        rintro rfl
        exact hnodup.1 hj
      dsimp only
      rw [SlotTable.get_set, if_neg hne]
    · intro j
      rw [Mealy.run_cons, hstep, hrun j]
      dsimp only
      rw [SlotTable.get_set]
      rcases eq_or_ne i j with rfl | hne
      · rw [if_neg hnodup.1, if_pos rfl, if_pos List.mem_cons_self]
      · rw [if_neg hne]
        simp only [List.mem_cons, Ne.symm hne, false_or]

end ReliableQueue

/-! ### Reachable queues -/

/-- **Draining ends and serves each due slot once.**  After any calls on a fresh
queue, further calls other than `enqueue` make at most `budget` decisions, so
polling at any one time comes to an end; where the timeout is positive and at
most half the clock's range, polling gives one decision to each slot that was
due, in slot order, leaves the other slots alone and then answers that nothing
is due. -/
theorem queue_drain (policy : RetryPolicy) (ops : List (QueueOp UInt32)) :
    (∀ nowMs, ∃ polls ≤ (queueAfter policy ops).budget,
      (((reliableQueue policy).run (queueAfter policy ops)
        (List.replicate polls (.nextDue nowMs))).nextDue nowMs).2.action = .none) ∧
    (∀ later : List (QueueOp UInt32), (∀ op ∈ later, op.isEnqueue = false) →
      decisions ((reliableQueue policy).outputs (queueAfter policy ops) later) ≤
        (queueAfter policy ops).budget) ∧
    (1 ≤ policy.timeoutMs.toNat → policy.timeoutMs.toNat ≤ 2 ^ 31 → ∀ nowMs,
      ((queueAfter policy ops).dueSlots nowMs).length ≤ 8 ∧
      (reliableQueue policy).outputs (queueAfter policy ops)
          (List.replicate (((queueAfter policy ops).dueSlots nowMs).length + 1)
            (.nextDue nowMs)) =
        ((queueAfter policy ops).dueSlots nowMs).map (fun i =>
          .decided (((queueAfter policy ops).slots.get i).decision
            (queueAfter policy ops).policy)) ++ [.decided {}] ∧
      ∀ i, ((reliableQueue policy).run (queueAfter policy ops)
          (List.replicate (((queueAfter policy ops).dueSlots nowMs).length + 1)
            (.nextDue nowMs))).slots.get i =
        if i ∈ (queueAfter policy ops).dueSlots nowMs then
          ((queueAfter policy ops).slots.get i).served nowMs (queueAfter policy ops).policy
        else (queueAfter policy ops).slots.get i) := by
  obtain ⟨table, h⟩ := exists_represents policy ops
  refine ⟨h.exists_none policy, fun later hlater => h.decisions_le policy hlater, ?_⟩
  intro hpos hhalf nowMs
  have htimeout : (queueAfter policy ops).policy.timeoutMs = policy.timeoutMs := by
    rw [h.policy_eq, RetryPolicy.normalise_timeoutMs]
  rw [← htimeout] at hpos hhalf
  obtain ⟨hout, hrun⟩ := ReliableQueue.drain_pass policy hpos hhalf nowMs
  exact ⟨SlotTable.length_positions_le _ _, hout, hrun⟩

end PicoMesh
