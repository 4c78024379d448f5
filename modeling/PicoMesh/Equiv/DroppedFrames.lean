import Mathlib.Data.List.Infix
import PicoMesh.Equiv.ReceiveMailbox

/-!
# What `dropped_frames()` counts

The endpoint counts a completed write that finds the mailbox full, and also
every single byte that does not fit the receive buffer (`droppedFrames_eq`).  The
second count is of bytes, not of writes, and the write they belong to is still
delivered, cut off.  `accounted_iff` says that the count, the polls and the
pending message account for every completed write as long as no write is longer
than the buffer, and from the first byte too many on no longer.
-/

namespace PicoMesh

/-! ### The count -/

namespace I2cPeripheralEndpoint

variable {endpoint : I2cPeripheralEndpoint} {m : WriteMailbox}

/-- A byte is counted if it does not fit. -/
theorem Holds.droppedFrames_receiveByte (h : endpoint.Holds m) (byte : UInt8) :
    (endpoint.receiveByte byte).droppedFrames =
      if m.log.current.length < kMaxEncodedFrameSize then endpoint.droppedFrames
      else endpoint.droppedFrames + 1 := by
  have hlength : endpoint.receiving.length = _ := length_held h.inBounds endpoint.rxWriteIndex
  rw [h.receiving, fitting, List.length_take] at hlength
  simp only [I2cPeripheralEndpoint.receiveByte]
  split_ifs
  · rfl
  · omega
  · omega
  · rfl

/-- A completed write is counted if the mailbox refuses it. -/
theorem Holds.droppedFrames_completeReceiveFromIsr (h : endpoint.Holds m) :
    ∃ refused, (m.step fitting (.irq .stopDet)).1.mailbox.refused = m.mailbox.refused + refused ∧
      endpoint.completeReceiveFromIsr.droppedFrames =
        endpoint.droppedFrames + UInt32.ofNat refused := by
  have hempty := receiving_eq_nil_iff h.inBounds
  rw [h.receiving, fitting_eq_nil_iff] at hempty
  have hpending := h.pending
  simp only [WriteMailbox.step, I2cPeripheralEndpoint.completeReceiveFromIsr, ← hempty]
  by_cases hnil : m.log.current = []
  · rw [if_pos hnil, if_pos hnil]
    exact ⟨0, rfl, (UInt32.add_zero _).symm⟩
  rw [if_neg hnil, if_neg hnil]
  by_cases hr : endpoint.rxReady = true
  · rw [if_pos hr] at hpending ⊢
    exact ⟨1, Mailbox.refused_offer_of_some hpending, rfl⟩
  · rw [if_neg hr] at hpending ⊢
    exact ⟨0, Mailbox.refused_offer_of_none hpending, (UInt32.add_zero _).symm⟩

theorem droppedFrames_poll : endpoint.poll.1.droppedFrames = endpoint.droppedFrames := by
  simp only [poll]
  split_ifs <;> rfl

end I2cPeripheralEndpoint

/-- The drops so far: the writes that the mailbox refused and the bytes that did
not fit. -/
def WriteMailbox.drops (m : WriteMailbox) : ℕ := m.mailbox.refused + m.log.spilled

theorem EndpointThread.droppedFrames_step {s : EndpointThread} {m : WriteMailbox}
    (h : s.endpoint.Holds m) (hcount : s.endpoint.droppedFrames = UInt32.ofNat m.drops)
    (op : EndpointOp) :
    (s.step op).1.endpoint.droppedFrames = UInt32.ofNat (m.step fitting op).1.drops := by
  cases op with
  | beginPublish frame => exact (s.receive_step_beginPublish frame).2.1.trans hcount
  | commitPublish => exact s.receive_step_commitPublish.2.1.trans hcount
  | poll => exact I2cPeripheralEndpoint.droppedFrames_poll.trans hcount
  | irq event =>
    cases event with
    | rxFull byte =>
      refine (h.droppedFrames_receiveByte byte).trans ?_
      show _ = UInt32.ofNat (m.mailbox.refused + if m.log.current.length < kMaxEncodedFrameSize
        then m.log.spilled else m.log.spilled + 1)
      split_ifs
      · exact hcount
      · rw [hcount, ← Nat.add_assoc, UInt32.ofNat_add]
        rfl
    | rdReq => exact I2cPeripheralEndpoint.receive_nextTxByte.2.trans hcount
    | stopDet =>
      obtain ⟨refused, hrefused, hdropped⟩ := h.droppedFrames_completeReceiveFromIsr
      have hspilled : (m.step fitting (.irq .stopDet)).1.log.spilled = m.log.spilled := by
        simp only [WriteMailbox.step, WriteLog.note_stopDet]
        split_ifs <;> rfl
      refine hdropped.trans ?_
      rw [hcount, ← UInt32.ofNat_add, WriteMailbox.drops, WriteMailbox.drops, hrefused, hspilled,
        Nat.add_right_comm]
    | txAbrt => exact hcount
    | rxOver =>
      show s.endpoint.droppedFrames + 1 = UInt32.ofNat (m.mailbox.refused + (m.log.spilled + 1))
      rw [hcount, ← Nat.add_assoc, UInt32.ofNat_add]
      rfl

/-- **What is counted**: the drops, modulo 2^32. -/
theorem droppedFrames_eq (ops : List EndpointOp) :
    (endpointAfter ops).endpoint.droppedFrames =
      UInt32.ofNat (writeMailboxAfter fitting ops).drops := by
  induction ops using List.reverseRecOn with
  | nil => rfl
  | append_singleton ops op ih =>
    rw [endpointAfter_concat, writeMailboxAfter_concat]
    exact EndpointThread.droppedFrames_step (holds_after ops) ih op

/-! ### Writes that fit -/

/-- No write of the run is longer than a receive buffer; the last one need not be
complete. -/
def WritesFit (ops : List EndpointOp) : Prop :=
  ∀ before, before <+: ops → (writeLog before).current.length ≤ kMaxEncodedFrameSize

theorem writesFit_nil : WritesFit [] := by
  intro before hbefore
  rw [List.prefix_nil.mp hbefore]
  exact Nat.zero_le _

theorem writesFit_concat (ops : List EndpointOp) (op : EndpointOp) :
    WritesFit (ops ++ [op]) ↔
      WritesFit ops ∧ (writeLog (ops ++ [op])).current.length ≤ kMaxEncodedFrameSize := by
  constructor
  · intro h
    exact ⟨fun before hbefore => h before (hbefore.trans (List.prefix_append _ _)),
      h _ (List.prefix_refl _)⟩
  · rintro ⟨h, hlast⟩ before hbefore
    rcases List.prefix_concat_iff.mp hbefore with rfl | hbefore
    · exact hlast
    · exact h before hbefore

/-- Nothing is spilled exactly as long as the writes fit. -/
theorem spilled_eq_zero_iff {ops : List EndpointOp} (hover : .irq .rxOver ∉ ops) :
    (writeLog ops).spilled = 0 ↔ WritesFit ops := by
  induction ops using List.reverseRecOn with
  | nil => exact iff_of_true rfl writesFit_nil
  | append_singleton ops op ih =>
    rw [List.mem_append, not_or, List.mem_singleton] at hover
    have hcurrent := ih hover.1
    rw [writesFit_concat, ← hcurrent, writeLog_concat]
    -- only a received byte can make a write too long
    have hkeeps : (writeLog ops).spilled = 0 →
        (writeLog ops).current.length ≤ kMaxEncodedFrameSize :=
      fun h => hcurrent.mp h ops (List.prefix_refl _)
    cases op with
    | irq event =>
      cases event with
      | rxFull byte =>
        simp only [WriteLog.note_rxFull, List.length_append, List.length_singleton]
        split_ifs with hroom
        · exact (and_iff_left hroom).symm
        · exact iff_of_false not_false (fun h => hroom h.2)
      | stopDet =>
        rw [WriteLog.note_stopDet]
        split_ifs with hnil
        · exact (and_iff_left_of_imp hkeeps).symm
        · exact (and_iff_left (Nat.zero_le _)).symm
      | rxOver => exact absurd rfl hover.2
      | _ => exact (and_iff_left_of_imp hkeeps).symm
    | _ => exact (and_iff_left_of_imp hkeeps).symm

/-- A step spills at most one byte. -/
theorem spilled_note_le (log : WriteLog) (op : EndpointOp) :
    (log.note op).spilled ≤ log.spilled + 1 := by
  cases op with
  | irq event =>
    cases event with
    | rxFull byte =>
      simp only [WriteLog.note_rxFull]
      split_ifs <;> omega
    | stopDet =>
      rw [WriteLog.note_stopDet]
      split_ifs <;> exact Nat.le_succ _
    | rxOver => exact le_refl _
    | _ => exact Nat.le_succ _
  | _ => exact Nat.le_succ _

/-- Writes that fit are kept whole. -/
theorem writeMailboxAfter_of_fit {ops : List EndpointOp} (h : WritesFit ops) :
    writeMailboxAfter fitting ops = writeMailboxAfter id ops ∧
    (writeMailbox fitting).outputs (writeMailbox fitting).start ops =
      (writeMailbox id).outputs (writeMailbox id).start ops := by
  induction ops using List.reverseRecOn with
  | nil => exact ⟨rfl, rfl⟩
  | append_singleton ops op ih =>
    obtain ⟨hops, -⟩ := (writesFit_concat ops op).mp h
    obtain ⟨hstate, houtputs⟩ := ih hops
    have hwhole : fitting (writeMailboxAfter id ops).log.current =
        (writeMailboxAfter id ops).log.current := by
      rw [log_writeMailboxAfter, fitting]
      exact List.take_of_length_le (hops ops (List.prefix_refl _))
    have hstep : (writeMailboxAfter id ops).step fitting op =
        (writeMailboxAfter id ops).step id op := by
      cases op with
      | irq event =>
        cases event with
        | stopDet => simp only [WriteMailbox.step, hwhole, id]
        | _ => rfl
      | _ => rfl
    constructor
    · rw [writeMailboxAfter_concat, writeMailboxAfter_concat, hstate, hstep]
    · rw [Mealy.outputs_concat, Mealy.outputs_concat, houtputs]
      show _ ++ [((writeMailboxAfter fitting ops).step fitting op).2] =
        _ ++ [((writeMailboxAfter id ops).step id op).2]
      rw [hstate, hstep]

/-! ### Accounting -/

/-- A poll decodes what it hands over. -/
theorem I2cPeripheralEndpoint.decoded_of_poll {endpoint : I2cPeripheralEndpoint}
    {message : PolledMessage} (h : endpoint.poll.2 = some message) :
    message.decoded = decodeFrame message.bytes := by
  simp only [poll] at h
  split_ifs at h
  rw [← Option.some.inj h]

theorem EndpointThread.poll_of_polled {s : EndpointThread} {op : EndpointOp}
    {message : PolledMessage} (h : (s.step op).2 = .polled (some message)) :
    s.endpoint.poll.2 = some message := by
  cases op with
  | beginPublish frame =>
    simp only [EndpointThread.step] at h
    split_ifs at h
  | commitPublish =>
    simp only [EndpointThread.step] at h
    cases hp : s.publishing with
    | none => rw [hp] at h; cases h
    | some call => rw [hp] at h; cases h
  | poll => exact EndpointReply.polled.inj h
  | irq event => cases h

theorem decoded_of_polled {ops : List EndpointOp} {message : PolledMessage}
    (h : .polled (some message) ∈ endpointReplies ops) :
    message.bytes ∈ polledMessages ops ∧ message.decoded = decodeFrame message.bytes := by
  refine ⟨List.mem_filterMap.mpr ⟨_, h, rfl⟩, ?_⟩
  induction ops using List.reverseRecOn with
  | nil => cases h
  | append_singleton ops op ih =>
    rw [endpointReplies_concat, List.mem_append, List.mem_singleton] at h
    rcases h with h | h
    · exact ih h
    · exact I2cPeripheralEndpoint.decoded_of_poll (EndpointThread.poll_of_polled h.symm)

/-- In the state a run leaves: every completed write was taken, is pending or was
counted as dropped, once; every poll handed over a whole write; and a poll
returned a frame only for a write that `decode_frame` accepts. -/
structure Accounted (ops : List EndpointOp) : Prop where
  counted : UInt32.ofNat (writeLog ops).completed.length =
    UInt32.ofNat ((polledMessages ops).length +
      if (endpointAfter ops).endpoint.rxReady then 1 else 0) +
    (endpointAfter ops).endpoint.droppedFrames
  whole : (endpointReplies ops).map EndpointReply.handed =
    (writeMailbox id).outputs (writeMailbox id).start ops
  accepted : ∀ message, .polled (some message) ∈ endpointReplies ops →
    message.decoded.ok = true → ∃ write ∈ (writeLog ops).completed,
      message.decoded = decodeFrame write

/-- The count is right exactly when nothing has been spilled, modulo 2^32. -/
theorem counted_iff (ops : List EndpointOp) :
    UInt32.ofNat (writeLog ops).completed.length =
        UInt32.ofNat ((polledMessages ops).length +
          if (endpointAfter ops).endpoint.rxReady then 1 else 0) +
        (endpointAfter ops).endpoint.droppedFrames ↔
      UInt32.ofNat (writeLog ops).spilled = 0 := by
  have hbalanced := (writeMailboxAfter fitting ops).mailbox.balanced
  have hpending : (writeMailboxAfter fitting ops).mailbox.pending.toList.length =
      if (endpointAfter ops).endpoint.rxReady then 1 else 0 := by
    rw [← pendingMessage_eq, I2cPeripheralEndpoint.pendingMessage]
    split_ifs <;> rfl
  rw [offered_writeMailboxAfter, List.length_map, hpending, ← polledMessages_eq] at hbalanced
  rw [droppedFrames_eq, WriteMailbox.drops, ← UInt32.ofNat_add, ← Nat.add_assoc, ← hbalanced,
    log_writeMailboxAfter, UInt32.ofNat_add]
  constructor
  · intro h
    have hsum := h.symm.trans (UInt32.add_zero _).symm
    exact (UInt32.add_right_inj _).mp hsum
  · intro h
    rw [h, UInt32.add_zero]

/-- Writes that fit are accounted for. -/
theorem accounted_of_fit {ops : List EndpointOp} (hover : .irq .rxOver ∉ ops)
    (h : WritesFit ops) : Accounted ops where
  counted := by
    rw [counted_iff, (spilled_eq_zero_iff hover).mpr h]
    rfl
  whole := (handed_eq ops).trans (writeMailboxAfter_of_fit h).2
  accepted message hmessage _ := by
    obtain ⟨hbytes, hdecoded⟩ := decoded_of_polled hmessage
    refine ⟨message.bytes, ?_, hdecoded⟩
    rw [polledMessages_eq, (writeMailboxAfter_of_fit h).1] at hbytes
    have hoffered := (Mailbox.taken_sublist _).subset hbytes
    rwa [offered_writeMailboxAfter, List.map_id] at hoffered

/-- **When every write is accounted for.**  In a run without an overrun of the FIFO,
the count, the polls and the pending message account for every completed write
in every state reached exactly when no write is longer than a receive buffer. -/
theorem accounted_iff (ops : List EndpointOp) (hover : .irq .rxOver ∉ ops) :
    (∀ before, before <+: ops → Accounted before) ↔
      ∀ before, before <+: ops →
        (writeLog before).current.length ≤ kMaxEncodedFrameSize := by
  constructor
  · intro h
    apply (spilled_eq_zero_iff hover).mp
    induction ops using List.reverseRecOn with
    | nil => rfl
    | append_singleton ops op ih =>
      -- the first byte too many is counted at once, and no write with it
      have hzero := ih (fun hops => hover (List.mem_append_left _ hops))
        (fun before hbefore => h before (hbefore.trans (List.prefix_append _ _)))
      have hle := spilled_note_le (writeLog ops) op
      have hcounted := (counted_iff _).mp (h _ (List.prefix_refl _)).counted
      rw [writeLog_concat] at hcounted ⊢
      rw [hzero] at hle
      rcases Nat.le_one_iff_eq_zero_or_eq_one.mp hle with hnone | hone
      · exact hnone
      · rw [hone] at hcounted
        cases hcounted
  · intro h before hbefore
    have hmem : .irq .rxOver ∉ before := fun hmem => hover (hbefore.subset hmem)
    exact accounted_of_fit hmem fun before' hbefore' => h before' (hbefore'.trans hbefore)

/-- A write of three bytes that is polled is accounted for throughout. -/
theorem accounted_iff_example :
    (writeLog [.irq (.rxFull 1), .irq (.rxFull 2), .irq (.rxFull 3), .irq .stopDet,
      .poll]).completed = [[1, 2, 3]] ∧
    ∀ before, before <+: [.irq (.rxFull 1), .irq (.rxFull 2), .irq (.rxFull 3), .irq .stopDet,
      .poll] → Accounted before := by
  refine ⟨by decide, (accounted_iff _ (by decide)).mpr ?_⟩
  intro before hbefore
  rw [← List.mem_inits] at hbefore
  revert before
  decide

/-- **A write delivered and dropped.**  A write of 41 bytes is taken by a poll, cut off,
and its last byte has been counted as a dropped frame. -/
theorem overlong_write_counted_twice :
    ¬∀ ops : List EndpointOp, .irq .rxOver ∉ ops → ∀ before, before <+: ops → Accounted before := by
  intro halways
  have haccounted := halways (List.replicate 41 (.irq (.rxFull 0)) ++ [.irq .stopDet, .poll])
    (by decide) _ (List.prefix_refl _)
  have hspilled := (counted_iff _).mp haccounted.counted
  revert hspilled
  decide

end PicoMesh
