import PicoMesh.Equiv.StopAndWait

/-!
# A controller with at most one command pending

`Controller.Holds` says what the queue of a controller that waits for one command
at a time stands for: the entry of the command queued last, or nothing.  Each
operation of the controller is then one lemma about that entry.
-/

namespace PicoMesh

/-- The frame that is pending for a command: the content under the node's ID and
the number's sequence byte, with an acknowledgement asked for. -/
def queuedCommand (node : UInt8) (content : Frame) (number : ℕ) : Frame :=
  Frame.ackRequired { content with nodeId := node, sequence := UInt8.ofNat number }

namespace Controller

variable {policy : RetryPolicy} {node : UInt8} {content : Frame} {controller : Controller}
  {pending : Option (PendingEntry UInt32)}

/-- The key of the command queued last. -/
def lastKey (node : UInt8) (controller : Controller) : Key :=
  (node, UInt8.ofNat (controller.next - 1))

/-- The table with at most the entry of the command queued last. -/
def onlyLast (node : UInt8) (controller : Controller) (pending : Option (PendingEntry UInt32)) :
    Key → Option (PendingEntry UInt32) :=
  fun k => if k = controller.lastKey node then pending else none

/-- **At most the command queued last is pending**, as the given entry. -/
structure Holds (policy : RetryPolicy) (node : UInt8) (content : Frame) (controller : Controller)
    (pending : Option (PendingEntry UInt32)) : Prop where
  table : ∃ table : PendingTable UInt32 policy, controller.queue.Represents table ∧
    table.get = controller.onlyLast node pending
  /-- A pending command has a number, and the frame made from it. -/
  entry : ∀ e, pending = some e → 0 < controller.next ∧
    controller.number (UInt8.ofNat (controller.next - 1)) = controller.next - 1 ∧
    e.frame = queuedCommand node content (controller.next - 1)

theorem onlyLast_none : controller.onlyLast node none = fun _ => none := by
  ext k e
  unfold onlyLast
  rw [ite_self]

theorem onlyLast_eq_some {k : Key} {e : PendingEntry UInt32} :
    controller.onlyLast node pending k = some e ↔
      k = controller.lastKey node ∧ pending = some e := by
  unfold onlyLast
  by_cases hk : k = controller.lastKey node
  · rw [if_pos hk]
    exact (and_iff_right hk).symm
  · rw [if_neg hk]
    exact iff_of_false (fun h => nomatch h) fun h => hk h.1

theorem update_onlyLast (pending' : Option (PendingEntry UInt32)) :
    Function.update (controller.onlyLast node pending) (controller.lastKey node) pending' =
      controller.onlyLast node pending' := by
  funext k
  rw [Function.update_apply]
  unfold onlyLast
  split_ifs <;> rfl

theorem holds_start (policy : RetryPolicy) :
    Holds policy.normalise node content { queue := .new policy } none where
  table := ⟨.empty, ReliableQueue.represents_new, onlyLast_none.symm⟩
  entry := fun _ he => nomatch he

/-- The queue is empty exactly when no command is pending. -/
theorem Holds.pendingCount_eq_zero_iff (h : controller.Holds policy node content pending) :
    controller.queue.pendingCount = 0 ↔ pending = none := by
  obtain ⟨table, hrep, hget⟩ := h.table
  constructor
  · intro hcount
    have hempty := CommandLink.get_eq_none_of_pendingCount hrep hcount (controller.lastKey node)
    rw [hget] at hempty
    unfold onlyLast at hempty
    rwa [if_pos rfl] at hempty
  · rintro rfl
    rw [onlyLast_none] at hget
    unfold ReliableQueue.pendingCount
    rw [SlotTable.count_eq_zero]
    intro i
    rw [← Bool.not_eq_true]
    intro hactive
    have hsome := hrep.get_slot hactive
    rw [hget] at hsome
    cases hsome

/-- With a command pending the queue holds one entry. -/
theorem Holds.pendingCount_eq (h : controller.Holds policy node content pending) :
    controller.queue.pendingCount = pending.toList.length := by
  cases hpending : pending with
  | none =>
    rw [h.pendingCount_eq_zero_iff.mpr hpending]
    rfl
  | some e =>
    obtain ⟨table, hrep, hget⟩ := h.table
    have hkeys : {k | (table.get k).isSome} = {controller.lastKey node} := by
      ext k
      rw [Set.mem_ofPred_eq, Option.isSome_iff_exists, hget, hpending]
      simp only [onlyLast_eq_some, Option.some.injEq, Set.mem_singleton_iff]
      constructor
      · rintro ⟨_, hk, -⟩
        exact hk
      · intro hk
        exact ⟨e, hk, rfl⟩
    rw [← hrep.size_eq, BoundedMap.size, hkeys, Set.ncard_singleton]
    rfl

/-- **Queueing a command with none pending** makes it the pending one. -/
theorem Holds.enqueueCommand (h : controller.Holds policy node content none)
    (hfits : content.payloadLength.toNat ≤ kMaxPayloadSize) (nowMs : UInt32) :
    (controller.enqueueCommand node content nowMs).2 = .queued ∧
      (controller.enqueueCommand node content nowMs).1.next = controller.next + 1 ∧
      (controller.enqueueCommand node content nowMs).1.Holds policy node content
        (some ⟨queuedCommand node content controller.next, nowMs, 0⟩) := by
  obtain ⟨table, hrep, hget⟩ := h.table
  rw [onlyLast_none] at hget
  obtain ⟨table', hrep', hstep⟩ := hrep.enqueue
    { content with nodeId := node, sequence := UInt8.ofNat controller.next } nowMs
  have hsize : table.size ≠ kMaxPendingTransmissions := by
    rw [hrep.size_eq, h.pendingCount_eq_zero_iff.mpr rfl]
    decide
  rw [PendingTable.Step, hget, if_neg (by simpa using hfits), if_neg hsize] at hstep
  obtain ⟨hreply, hget'⟩ := hstep
  have hqueued := QueueReply.enqueued.inj hreply
  unfold Controller.enqueueCommand
  refine ⟨hqueued, rfl, ⟨⟨table', hrep', ?_⟩, ?_⟩⟩
  · rw [hget']
    funext k
    rw [Function.update_apply]
    rfl
  · rintro e ⟨⟩
    refine ⟨Nat.succ_pos _, ?_, rfl⟩
    simp only [hqueued, if_true, Nat.add_sub_cancel, Function.update_self]

/-- What stays of a controller when only its queue changes. -/
theorem Holds.of_queue (h : controller.Holds policy node content pending)
    {queue : ReliableQueue UInt32} {table : PendingTable UInt32 policy}
    {pending' : Option (PendingEntry UInt32)} (hrep : queue.Represents table)
    (hget : table.get = controller.onlyLast node pending')
    (hentry : ∀ e', pending' = some e' → ∃ e, pending = some e ∧ e'.frame = e.frame) :
    Holds policy node content { controller with queue } pending' where
  table := ⟨table, hrep, hget⟩
  entry := fun e' he' => by
    obtain ⟨e, he, hframe⟩ := hentry e' he'
    obtain ⟨hpos, hnumber, hcommand⟩ := h.entry e he
    exact ⟨hpos, hnumber, hframe.trans hcommand⟩

/-- What `transmitDue` may find pending, and what it then does. -/
inductive Transmits (policy : RetryPolicy) (node : UInt8) (content : Frame)
    (controller : Controller) (nowMs : UInt32) (pending : Option (PendingEntry UInt32)) :
    TxDecision → Option (ℕ × List UInt8) → Option (PendingEntry UInt32) → Prop where
  /-- Nothing is due. -/
  | wait (hdue : ∀ e, pending = some e → e.due nowMs = false) :
      Transmits policy node content controller nowMs pending {} none pending
  /-- The command is sent. -/
  | send (e : PendingEntry UInt32) (hpending : pending = some e) (hdue : e.due nowMs = true)
      (hleft : e.attempts < policy.maxAttempts) :
      Transmits policy node content controller nowMs pending
        ⟨.send, queuedCommand node content (controller.next - 1), e.attempts + 1⟩
        (some (controller.next - 1,
          (encodeFrame (queuedCommand node content (controller.next - 1))).active))
        (some (e.sent nowMs policy))
  /-- The command is given up. -/
  | exhaust (e : PendingEntry UInt32) (hpending : pending = some e) (hdue : e.due nowMs = true)
      (hspent : e.attempts = policy.maxAttempts) :
      Transmits policy node content controller nowMs pending
        ⟨.exhausted, queuedCommand node content (controller.next - 1), e.attempts⟩ none none

/-- **A call of `transmitDue`** sends the command, gives it up or finds nothing due. -/
theorem Holds.transmitDue (h : controller.Holds policy node content pending) (nowMs : UInt32) :
    ∃ pending', Transmits policy node content controller nowMs pending
        (controller.queue.nextDue nowMs).2 (controller.transmitDue nowMs).2 pending' ∧
      (controller.transmitDue nowMs).1.Holds policy node content pending' := by
  obtain ⟨table, hrep, hget⟩ := h.table
  obtain ⟨table', hrep', hstep⟩ := hrep.nextDue nowMs
  unfold Controller.transmitDue
  simp only
  rw [PendingTable.Step, hget] at hstep
  simp only [QueueReply.decided.injEq] at hstep
  generalize (controller.queue.nextDue nowMs).1 = queue at hrep' ⊢
  generalize (controller.queue.nextDue nowMs).2 = decision at hstep ⊢
  rcases hstep with ⟨rfl, rfl, hwait⟩ | ⟨k, e, hk, hdue, hcases⟩
  · refine ⟨pending, .wait fun e he => ?_, h.of_queue hrep' hget fun e he => ⟨e, he, rfl⟩⟩
    exact hwait _ e (onlyLast_eq_some.mpr ⟨rfl, he⟩)
  · obtain ⟨rfl, hpending⟩ := onlyLast_eq_some.mp hk
    obtain ⟨-, hnumber, hframe⟩ := h.entry e hpending
    split_ifs at hcases with hleft
    · obtain ⟨rfl, hget'⟩ := hcases
      rw [update_onlyLast] at hget'
      have hsequence : (queuedCommand node content (controller.next - 1)).sequence =
          UInt8.ofNat (controller.next - 1) := rfl
      simp only [if_true, hframe, hsequence, hnumber]
      refine ⟨_, .send e hpending hdue hleft, h.of_queue hrep' hget' ?_⟩
      rintro e' ⟨⟩
      exact ⟨e, hpending, rfl⟩
    · obtain ⟨rfl, hget'⟩ := hcases
      rw [update_onlyLast] at hget'
      have hbudget := table.budget _ e (by rw [hget]; exact hk)
      have hspent := UInt8.le_antisymm hbudget (UInt8.not_lt.mp hleft)
      simp only [hframe, reduceCtorEq, if_false]
      exact ⟨none, .exhaust e hpending hdue hspent,
        h.of_queue hrep' hget' fun e' he' => absurd he'.symm (Option.some_ne_none e')⟩

/-- **An acknowledgement** resolves the pending command if it names its sequence byte, and
otherwise finds nothing. -/
theorem Holds.acknowledge (h : controller.Holds policy node content pending) (sequence : UInt8)
    (status : AckStatus) :
    ((controller.queue.acknowledge node sequence status).2 = .notFound ∧
      (pending = none ∨ sequence ≠ UInt8.ofNat (controller.next - 1)) ∧
      Holds policy node content
        { controller with queue := (controller.queue.acknowledge node sequence status).1 }
        pending) ∨
    ((controller.queue.acknowledge node sequence status).2 = status.resolution ∧
      (∃ e, pending = some e) ∧ sequence = UInt8.ofNat (controller.next - 1) ∧
      Holds policy node content
        { controller with queue := (controller.queue.acknowledge node sequence status).1 }
        none) := by
  obtain ⟨table, hrep, hget⟩ := h.table
  obtain ⟨table', hrep', hstep⟩ := hrep.acknowledge node sequence status
  rw [PendingTable.Step] at hstep
  split_ifs at hstep with hpresent
  · obtain ⟨hreply, hget'⟩ := hstep
    obtain ⟨e, he⟩ := Option.isSome_iff_exists.mp hpresent
    rw [hget] at he
    obtain ⟨hkey, hpending⟩ := onlyLast_eq_some.mp he
    rw [hkey, hget, update_onlyLast] at hget'
    right
    exact ⟨QueueReply.acknowledged.inj hreply, ⟨e, hpending⟩, congrArg Prod.snd hkey,
      h.of_queue hrep' hget' fun e' he' => absurd he'.symm (Option.some_ne_none e')⟩
  · obtain ⟨hreply, rfl⟩ := hstep
    left
    refine ⟨QueueReply.acknowledged.inj hreply, ?_,
      h.of_queue hrep' hget fun e he => ⟨e, he, rfl⟩⟩
    rw [Option.not_isSome_iff_eq_none, hget] at hpresent
    unfold onlyLast at hpresent
    split_ifs at hpresent with hkey
    · exact Or.inl hpresent
    · exact Or.inr fun hsequence => hkey (Prod.ext rfl hsequence)

end Controller

end PicoMesh
