import PicoMesh.Equiv.ReliableCommand

/-!
# The path of an acknowledgement

`isAcknowledgement_iff` collects what the strict decoder and `parse_ack_frame`
check between them: the ten-byte buffers of byte sum zero with the right magic,
version, type, length and a known status, and no others.  With it
`acknowledgement_path` says which buffers change the retry queue, and how.
-/

namespace PicoMesh

/-! ### The buffers that acknowledge -/

/-- The bytes acknowledge `sequence` in the name of `nodeId` with a known status. -/
def IsAcknowledgement (bytes : List UInt8) (nodeId sequence status : UInt8) : Prop :=
  status ≤ 4 ∧ byteSum bytes = 0 ∧ ∃ flags responseSequence checksum,
    bytes = [0xB7, 0x01, 0x11, flags, nodeId, responseSequence, 0x02, sequence, status, checksum]

/-- The payload bytes of a frame that is read off ten bytes. -/
theorem payload_frameOf (flags nodeId responseSequence sequence status checksum : UInt8) :
    let frame := frameOf [0xB7, 0x01, 0x11, flags, nodeId, responseSequence, 0x02, sequence,
      status, checksum]
    frame.payload[0] = sequence ∧ frame.payload[1] = status := by
  constructor
  · exact getElem_copyAt _ _ _ 0 (by decide)
  · exact getElem_copyAt _ _ _ 1 (by decide)

/-- A shaped buffer with the type and the length of an acknowledgement has ten
bytes, five of them fixed. -/
theorem FrameShaped.eq_acknowledgement {bytes : List UInt8} (h : FrameShaped bytes)
    (htype : (frameOf bytes).type = .acknowledgement) (htwo : (frameOf bytes).payloadLength = 2) :
    ∃ flags nodeId responseSequence sequence status checksum,
      bytes = [0xB7, 0x01, 0x11, flags, nodeId, responseSequence, 0x02, sequence, status,
        checksum] := by
  obtain ⟨x₀, x₁, x₂, x₃, x₄, x₅, x₆, payload, c, rfl⟩ :=
    exists_eq_header_append bytes (by rw [h.length]; omega)
  obtain ⟨rfl, rfl, -, hlength⟩ := h
  obtain rfl : x₂ = 0x11 := congrArg MessageType.raw htype
  obtain rfl : x₆ = 0x02 := htwo
  have hpayload : payload.length = 2 := by
    rw [List.length_append, List.length_append] at hlength
    exact Nat.add_left_cancel (Nat.add_right_cancel hlength)
  obtain ⟨y, z, rfl⟩ := List.length_eq_two.mp hpayload
  exact ⟨x₃, x₄, x₅, y, z, c, rfl⟩

/-- **What is accepted as an acknowledgement.** -/
theorem isAcknowledgement_iff (bytes : List UInt8) (nodeId sequence status : UInt8) :
    IsAcknowledgement bytes nodeId sequence status ↔
      (decodeFrame bytes).ok = true ∧ (decodeFrame bytes).frame.nodeId = nodeId ∧
      parseAckFrame (decodeFrame bytes).frame = some (sequence, ⟨status⟩) := by
  rw [decodeFrame_ok_iff_error, decodeFrame_ok_iff]
  constructor
  · rintro ⟨hstatus, hsum, flags, responseSequence, checksum, rfl⟩
    have hshape : FrameShaped [0xB7, 0x01, 0x11, flags, nodeId, responseSequence, 0x02, sequence,
        status, checksum] :=
      ⟨rfl, rfl, (by decide : (0x02 : UInt8).toNat ≤ kMaxPayloadSize), rfl⟩
    obtain ⟨hzero, hone⟩ := payload_frameOf flags nodeId responseSequence sequence status checksum
    rw [decodeFrame_of_shaped hshape, if_pos hsum]
    refine ⟨⟨hshape, hsum⟩, rfl, ?_⟩
    unfold parseAckFrame
    simp only [hzero, hone]
    rw [if_neg (fun hkind => hkind.elim (fun htype => htype rfl) (fun hlength => hlength rfl)),
      if_neg (UInt8.not_lt.mpr (show status ≤ AckStatus.malformed.raw from hstatus))]
  · rintro ⟨⟨hshape, hsum⟩, rfl, hparse⟩
    rw [decodeFrame_of_shaped hshape, if_pos hsum] at hparse ⊢
    -- the type and the length byte are those of an acknowledgement
    simp only [parseAckFrame] at hparse
    split_ifs at hparse with hkind hstatus
    rw [not_or, not_not, not_not] at hkind
    obtain ⟨flags, nodeId, responseSequence, y, z, checksum, rfl⟩ :=
      hshape.eq_acknowledgement hkind.1 hkind.2
    obtain ⟨hzero, hone⟩ := payload_frameOf flags nodeId responseSequence y z checksum
    simp only [hzero, hone, Option.some.injEq, Prod.mk.injEq, AckStatus.mk.injEq] at hparse hstatus
    obtain ⟨rfl, rfl⟩ := hparse
    exact ⟨UInt8.not_lt.mp hstatus, hsum, flags, responseSequence, checksum, rfl⟩

/-! ### The sketch's function -/

section

variable {controller : Controller} {bytes : List UInt8} {nodeId sequence status : UInt8}

/-- An acknowledgement is passed on to the queue. -/
theorem receiveAcknowledgement_of_isAcknowledgement
    (h : IsAcknowledgement bytes nodeId sequence status) :
    controller.receiveAcknowledgement bytes =
      ({ controller with
          queue := (controller.queue.acknowledge nodeId sequence ⟨status⟩).1 },
        some (controller.queue.acknowledge nodeId sequence ⟨status⟩).2) := by
  obtain ⟨hok, rfl, hparse⟩ := (isAcknowledgement_iff _ _ _ _).mp h
  have htype : (decodeFrame bytes).frame.type = .acknowledgement := by
    by_contra htype
    rw [parseAckFrame, if_pos (Or.inl htype)] at hparse
    cases hparse
  apply receiveAcknowledgement_of_parse ?_ htype hparse
  cases hdecode : decodeFrame bytes with
  | mk frame error =>
    rw [hdecode] at hok
    rw [show error = .none from beq_iff_eq.mp hok]

/-- Any other bytes are ignored. -/
theorem receiveAcknowledgement_of_not
    (h : ∀ nodeId sequence status, ¬IsAcknowledgement bytes nodeId sequence status) :
    controller.receiveAcknowledgement bytes = (controller, none) := by
  simp only [Controller.receiveAcknowledgement]
  split_ifs with hother
  · rfl
  · cases hparse : parseAckFrame (decodeFrame bytes).frame with
    | none => rfl
    | some parsed =>
      have hok : (decodeFrame bytes).ok = true := by
        by_contra hok
        rw [Bool.not_eq_true] at hok
        rw [hok] at hother
        exact hother rfl
      exact absurd ((isAcknowledgement_iff _ _ _ _).mpr ⟨hok, rfl, hparse⟩) (h _ _ _)

end

/-! ### The queue -/

namespace ReliableQueue

variable {τ : Type} [Clock τ] {policy : RetryPolicy} {queue : ReliableQueue τ}
  {nodeId sequence : UInt8} {i : Fin kMaxPendingTransmissions}

/-- Releasing an active slot changes the queue. -/
theorem release_ne (hi : (queue.slots.get i).active = true) : queue.release i ≠ queue := by
  intro heq
  have hslot := SlotTable.get_set queue.slots i { queue.slots.get i with active := false } i
  rw [if_pos rfl] at hslot
  have hsame : (queue.release i).slots.get i = queue.slots.get i := by rw [heq]
  rw [← hsame, show (queue.release i).slots.get i = _ from hslot] at hi
  cases hi

/-- With distinct keys an acknowledgement releases the slot that holds its key. -/
theorem Represents.acknowledge_of_holds {table : PendingTable τ policy}
    (h : queue.Represents table) (hi : holds nodeId sequence (queue.slots.get i) = true)
    (status : AckStatus) :
    queue.acknowledge nodeId sequence status = (queue.release i, status.resolution) ∧
    ∀ j, holds nodeId sequence (queue.slots.get j) = true → j = i := by
  have honly : ∀ j, holds nodeId sequence (queue.slots.get j) = true → j = i := by
    intro j hj
    obtain ⟨hactive, hkey⟩ := holds_iff.mp hi
    obtain ⟨hactive', hkey'⟩ := holds_iff.mp hj
    by_contra hji
    exact h.other_key hactive hji hactive' (hkey'.trans hkey.symm)
  refine ⟨?_, honly⟩
  have hfirst : SlotTable.first (holds nodeId sequence) queue.slots = some i := by
    rw [SlotTable.first_eq_some]
    refine ⟨hi, fun j hj => ?_⟩
    by_contra hne
    exact hj.ne (honly j (Bool.not_eq_false _ ▸ hne))
  rw [ReliableQueue.acknowledge, hfirst]
  rfl

/-- An acknowledgement of no pending key changes nothing. -/
theorem acknowledge_of_not_holds
    (h : ∀ i, holds nodeId sequence (queue.slots.get i) = false) (status : AckStatus) :
    queue.acknowledge nodeId sequence status = (queue, .notFound) := by
  rw [acknowledge, SlotTable.first_eq_none.mpr h]

end ReliableQueue

/-! ### The path -/

/-- The encoding of an acknowledgement frame with a known status acknowledges. -/
theorem isAcknowledgement_makeAckFrame (nodeId responseSequence sequence : UInt8)
    {status : AckStatus} (h : status.raw ≤ AckStatus.malformed.raw) :
    IsAcknowledgement
      (encodeFrame (makeAckFrame nodeId responseSequence sequence status)).active nodeId sequence
      status.raw := by
  rw [isAcknowledgement_iff, decodeFrame_encodeFrame]
  refine ⟨rfl, ?_, parseAckFrame_normalise nodeId responseSequence sequence h⟩
  rw [Frame.nodeId_normalise, makeAckFrame_nodeId]

/-- **The path of an acknowledgement.**  For the queue that any run of calls leads to,
bytes change it exactly when they acknowledge a pending key; they then release
the one slot that holds this key, with the resolution that the status says.  The
encoding of every acknowledgement frame for a pending key does so. -/
theorem acknowledgement_path (policy : RetryPolicy) (ops : List (QueueOp UInt32)) (next : ℕ)
    (number : UInt8 → ℕ) :
    let controller : Controller := { queue := queueAfter policy ops, next, number }
    (∀ bytes, (controller.receiveAcknowledgement bytes).1.queue ≠ controller.queue ↔
      ∃ nodeId sequence status, IsAcknowledgement bytes nodeId sequence status ∧
        ∃ i, ReliableQueue.holds nodeId sequence (controller.queue.slots.get i) = true) ∧
    (∀ bytes nodeId sequence status i, IsAcknowledgement bytes nodeId sequence status →
      ReliableQueue.holds nodeId sequence (controller.queue.slots.get i) = true →
      controller.receiveAcknowledgement bytes =
          ({ controller with queue := controller.queue.release i },
            some (if status = 0 then .accepted else .rejected)) ∧
        ∀ j, ReliableQueue.holds nodeId sequence (controller.queue.slots.get j) = true → j = i) ∧
    (∀ nodeId sequence responseSequence (status : AckStatus) i,
      status.raw ≤ AckStatus.malformed.raw →
      ReliableQueue.holds nodeId sequence (controller.queue.slots.get i) = true →
      controller.receiveAcknowledgement
          (encodeFrame (makeAckFrame nodeId responseSequence sequence status)).active =
        ({ controller with queue := controller.queue.release i }, some status.resolution)) := by
  intro controller
  obtain ⟨table, hrep⟩ := exists_represents policy ops
  have hreleases : ∀ bytes nodeId sequence status i,
      IsAcknowledgement bytes nodeId sequence status →
      ReliableQueue.holds nodeId sequence (controller.queue.slots.get i) = true →
      controller.receiveAcknowledgement bytes =
        ({ controller with queue := controller.queue.release i },
          some (AckStatus.mk status).resolution) := by
    intro bytes nodeId sequence status i hack hi
    rw [receiveAcknowledgement_of_isAcknowledgement hack, (hrep.acknowledge_of_holds hi _).1]
  refine ⟨fun bytes => ⟨fun hchanged => ?_, ?_⟩, ?_, ?_⟩
  · -- what is not such an acknowledgement leaves the queue alone
    by_contra hnone
    apply hchanged
    by_cases hack : ∃ nodeId sequence status, IsAcknowledgement bytes nodeId sequence status
    · obtain ⟨nodeId, sequence, status, hack⟩ := hack
      have habsent : ∀ i,
          ReliableQueue.holds nodeId sequence (controller.queue.slots.get i) = false := by
        intro i
        rw [← Bool.not_eq_true]
        exact fun hi => hnone ⟨nodeId, sequence, status, hack, i, hi⟩
      rw [receiveAcknowledgement_of_isAcknowledgement hack,
        ReliableQueue.acknowledge_of_not_holds habsent]
    · rw [receiveAcknowledgement_of_not fun nodeId sequence status h =>
        hack ⟨nodeId, sequence, status, h⟩]
  · rintro ⟨nodeId, sequence, status, hack, i, hi⟩
    rw [hreleases bytes nodeId sequence status i hack hi]
    exact ReliableQueue.release_ne (ReliableQueue.holds_iff.mp hi).1
  · intro bytes nodeId sequence status i hack hi
    refine ⟨?_, (hrep.acknowledge_of_holds hi ⟨status⟩).2⟩
    rw [hreleases bytes nodeId sequence status i hack hi]
    simp only [AckStatus.resolution, AckStatus.accepted, AckStatus.mk.injEq]
  · intro nodeId sequence responseSequence status i hstatus hi
    exact hreleases _ nodeId sequence status.raw i
      (isAcknowledgement_makeAckFrame nodeId responseSequence sequence hstatus) hi

end PicoMesh
