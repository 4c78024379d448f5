import PicoMesh.Reliability

/-!
# What the retry queue is for: a table of pending transmissions

A `PendingTable` is a finite map from (node, sequence) to the pending frame,
its deadline and the sends made so far.  Its fields say what holds of every
entry, so a table that breaks the queue's promises cannot be built.
`PendingTable.Step` says what a call may do to a table and what it answers,
with no mention of slots: `nextDue` may pick any entry that is due.

This is a specification of the queue's purpose, not a translation of its code;
`PicoMesh.Equiv.Reliability` proves that the code refines it.
-/

namespace PicoMesh

/-- What identifies a pending transmission: node and sequence. -/
abbrev Key := UInt8 × UInt8

/-- The key a frame is queued under. -/
def Frame.key (frame : Frame) : Key := (frame.nodeId, frame.sequence)

/-- The frame the queue stores and sends for a frame it is given. -/
def Frame.ackRequired (frame : Frame) : Frame :=
  { frame with flags := frame.flags ||| kFlagAckRequired }

@[simp] theorem Frame.ackRequired_key (frame : Frame) : frame.ackRequired.key = frame.key := rfl

@[simp] theorem Frame.ackRequired_payloadLength (frame : Frame) :
    frame.ackRequired.payloadLength = frame.payloadLength := rfl

/-- The stored frame has the acknowledgement flag set. -/
theorem Frame.ackRequired_flags (frame : Frame) :
    frame.ackRequired.flags &&& kFlagAckRequired = kFlagAckRequired := by
  show (frame.flags ||| kFlagAckRequired) &&& kFlagAckRequired = kFlagAckRequired
  apply UInt8.eq_of_toBitVec_eq
  simp only [UInt8.toBitVec_and, UInt8.toBitVec_or]
  ext i
  simp only [BitVec.getElem_and, BitVec.getElem_or]
  cases kFlagAckRequired.toBitVec[i] <;> simp

/-- How an acknowledgement with a status resolves a pending frame. -/
def AckStatus.resolution (status : AckStatus) : AckResolution :=
  if status = .accepted then .accepted else .rejected

/-- What the table holds for a pending transmission. -/
structure PendingEntry (τ : Type) where
  frame : Frame
  deadlineMs : τ
  /-- Sends made so far. -/
  attempts : UInt8

/-- Whether an entry's deadline has been reached. -/
def PendingEntry.due {τ : Type} [Clock τ] (entry : PendingEntry τ) (nowMs : τ) : Bool :=
  deadlineReached nowMs entry.deadlineMs

/-- An entry after a send: one more attempt, the deadline a timeout away. -/
def PendingEntry.sent {τ : Type} [Clock τ] (entry : PendingEntry τ) (nowMs : τ)
    (policy : RetryPolicy) : PendingEntry τ :=
  { entry with attempts := entry.attempts + 1, deadlineMs := after nowMs policy.timeoutMs }

/-- The attempts that a policy leaves are counted without a wrap. -/
theorem PendingEntry.toNat_attempts_succ {τ : Type} {entry : PendingEntry τ} {policy : RetryPolicy}
    (hleft : entry.attempts < policy.maxAttempts) :
    (entry.attempts + 1).toNat = entry.attempts.toNat + 1 := by
  have hlt := UInt8.lt_iff_toNat_lt.mp hleft
  have hmax := policy.maxAttempts.toNat_lt
  rw [UInt8.toNat_add, UInt8.toNat_one]
  omega

/-- **The table of pending transmissions** of a queue that runs with `policy`. -/
structure PendingTable (τ : Type) (policy : RetryPolicy) extends
    BoundedMap Key (PendingEntry τ) kMaxPendingTransmissions where
  /-- An entry is stored under the key of its frame. -/
  keyed : ∀ k e, get k = some e → e.frame.key = k
  /-- Every pending frame fits the wire format. -/
  fits : ∀ k e, get k = some e → e.frame.payloadLength.toNat ≤ kMaxPayloadSize
  /-- Every pending frame asks for an acknowledgement. -/
  flagged : ∀ k e, get k = some e → e.frame.flags &&& kFlagAckRequired = kFlagAckRequired
  /-- No entry has been sent more often than the policy allows. -/
  budget : ∀ k e, get k = some e → e.attempts ≤ policy.maxAttempts

namespace PendingTable

variable {τ : Type} {policy : RetryPolicy}

/-- The table a queue starts with. -/
def empty : PendingTable τ policy where
  get _ := none
  finite := by simp
  bounded := by simp
  keyed := by simp
  fits := by simp
  flagged := by simp
  budget := by simp

/-- A table is determined by its bindings. -/
theorem ext_get {t t' : PendingTable τ policy} (h : t.get = t'.get) : t = t' := by
  obtain ⟨⟨get, _, _⟩, _, _, _, _⟩ := t
  obtain ⟨⟨get', _, _⟩, _, _, _, _⟩ := t'
  obtain rfl : get = get' := h
  rfl

variable [Clock τ]

/-- **What a call answers and does to the table**: `t.Step op reply t'`. -/
def Step (t : PendingTable τ policy) : QueueOp τ → QueueReply → PendingTable τ policy → Prop
  | .enqueue frame nowMs, reply, t' =>
    if kMaxPayloadSize < frame.payloadLength.toNat ∨ (t.get frame.key).isSome then
      reply = .enqueued .invalid ∧ t' = t
    else if t.size = kMaxPendingTransmissions then
      reply = .enqueued .full ∧ t' = t
    else
      reply = .enqueued .queued ∧
        t'.get = Function.update t.get frame.key (some ⟨frame.ackRequired, nowMs, 0⟩)
  | .nextDue nowMs, reply, t' =>
    (reply = .decided {} ∧ t' = t ∧ ∀ k e, t.get k = some e → e.due nowMs = false) ∨
    ∃ k e, t.get k = some e ∧ e.due nowMs = true ∧
      if e.attempts < policy.maxAttempts then
        reply = .decided ⟨.send, e.frame, e.attempts + 1⟩ ∧
          t'.get = Function.update t.get k (some (e.sent nowMs policy))
      else
        reply = .decided ⟨.exhausted, e.frame, e.attempts⟩ ∧
          t'.get = Function.update t.get k none
  | .acknowledge nodeId sequence status, reply, t' =>
    if (t.get (nodeId, sequence)).isSome then
      reply = .acknowledged status.resolution ∧
        t'.get = Function.update t.get (nodeId, sequence) none
    else reply = .acknowledged .notFound ∧ t' = t
  | .cancel nodeId sequence, reply, t' =>
    if (t.get (nodeId, sequence)).isSome then
      reply = .cancelled true ∧ t'.get = Function.update t.get (nodeId, sequence) none
    else reply = .cancelled false ∧ t' = t
  | .pendingCount, reply, t' => reply = .counted t.size ∧ t' = t
  | .clear, reply, t' => reply = .cleared ∧ t' = empty

/-! ### The cases of one call -/

/-- What one call can do, with the fact that made it do so. -/
inductive Change (t : PendingTable τ policy) :
    QueueOp τ → QueueReply → PendingTable τ policy → Prop where
  /-- Nothing changes: no frame is accepted and no decision is made. -/
  | same {op : QueueOp τ} {reply : QueueReply} (hqueued : reply ≠ .enqueued .queued)
      (hdecided : ∀ decision, reply = .decided decision → decision = {}) : Change t op reply t
  /-- A frame with an absent key is accepted. -/
  | queue {t' : PendingTable τ policy} {frame : Frame} {nowMs : τ}
      (habsent : t.get frame.key = none)
      (hget : t'.get = Function.update t.get frame.key (some ⟨frame.ackRequired, nowMs, 0⟩)) :
      Change t (.enqueue frame nowMs) (.enqueued .queued) t'
  /-- A due entry is sent. -/
  | send {t' : PendingTable τ policy} {k : Key} {e : PendingEntry τ} {nowMs : τ}
      (hk : t.get k = some e) (hdue : e.due nowMs = true) (hleft : e.attempts < policy.maxAttempts)
      (hget : t'.get = Function.update t.get k (some (e.sent nowMs policy))) :
      Change t (.nextDue nowMs) (.decided ⟨.send, e.frame, e.attempts + 1⟩) t'
  /-- A due entry is given up. -/
  | exhaust {t' : PendingTable τ policy} {k : Key} {e : PendingEntry τ} {nowMs : τ}
      (hk : t.get k = some e) (hdue : e.due nowMs = true)
      (hspent : e.attempts = policy.maxAttempts) (hget : t'.get = Function.update t.get k none) :
      Change t (.nextDue nowMs) (.decided ⟨.exhausted, e.frame, e.attempts⟩) t'
  /-- An acknowledgement or a cancellation removes an entry. -/
  | remove {op : QueueOp τ} {reply : QueueReply} {t' : PendingTable τ policy} (k : Key)
      (hqueued : reply ≠ .enqueued .queued) (hdecided : ∀ decision, reply ≠ .decided decision)
      (hget : t'.get = Function.update t.get k none) : Change t op reply t'
  /-- Everything is removed. -/
  | clear : Change t .clear .cleared empty

/-- **Every call is one of these cases.** -/
theorem Step.change {t t' : PendingTable τ policy} {op : QueueOp τ} {reply : QueueReply}
    (h : t.Step op reply t') : t.Change op reply t' := by
  cases op with
  | enqueue frame nowMs =>
    rw [Step] at h
    split_ifs at h with hinvalid hfull
    · rw [h.1, h.2]
      exact .same (by simp) (by simp)
    · rw [h.1, h.2]
      exact .same (by simp) (by simp)
    · have habsent : t.get frame.key = none := by
        rw [not_or, Option.not_isSome_iff_eq_none] at hinvalid
        exact hinvalid.2
      rw [h.1]
      exact .queue habsent h.2
  | nextDue nowMs =>
    rcases h with ⟨hreply, ht, -⟩ | ⟨k, e, hk, hdue, h⟩
    · rw [hreply, ht]
      exact .same (by simp) (by simp)
    · split_ifs at h with hleft
      · rw [h.1]
        exact .send hk hdue hleft h.2
      · -- the table's own bound leaves equality
        have hbudget := t.budget k e hk
        rw [h.1]
        exact .exhaust hk hdue (UInt8.le_antisymm hbudget (UInt8.not_lt.mp hleft)) h.2
  | acknowledge nodeId sequence status =>
    rw [Step] at h
    split_ifs at h
    · rw [h.1]
      exact .remove (nodeId, sequence) (by simp) (by simp) h.2
    · rw [h.1, h.2]
      exact .same (by simp) (by simp)
  | cancel nodeId sequence =>
    rw [Step] at h
    split_ifs at h
    · rw [h.1]
      exact .remove (nodeId, sequence) (by simp) (by simp) h.2
    · rw [h.1, h.2]
      exact .same (by simp) (by simp)
  | pendingCount =>
    rw [h.1, h.2]
    exact .same (by simp) (by simp)
  | clear =>
    rw [h.1, h.2]
    exact .clear

/-- The decision that `nextDue` makes is about an entry that is due. -/
theorem Step.due_of_decision {t t' : PendingTable τ policy} {nowMs : τ}
    {decision : TxDecision} (h : t.Step (.nextDue nowMs) (.decided decision) t')
    (hdecision : decision.action ≠ .none) :
    ∃ k e, t.get k = some e ∧ e.due nowMs = true ∧ decision.frame = e.frame := by
  cases h.change with
  | same hqueued hdecided =>
    rw [hdecided decision rfl] at hdecision
    exact absurd rfl hdecision
  | send hk hdue hleft hget => exact ⟨_, _, hk, hdue, rfl⟩
  | exhaust hk hdue hspent hget => exact ⟨_, _, hk, hdue, rfl⟩
  | remove k hqueued hdecided hget => exact absurd rfl (hdecided decision)

omit [Clock τ] in
/-- Removing a binding adds none. -/
theorem get_of_update_none {t t' : PendingTable τ policy} {k k' : Key} {e : PendingEntry τ}
    (hget : t'.get = Function.update t.get k none) (hk' : t'.get k' = some e) :
    t.get k' = some e := by
  rw [hget, Function.update_apply] at hk'
  split_ifs at hk'
  exact hk'

end PendingTable

end PicoMesh
