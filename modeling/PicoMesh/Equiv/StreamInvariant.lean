import PicoMesh.Equiv.StreamDecoder

/-!
# The representation invariant of the stream decoder

Every state that calls of `feed` and `reset` lead to holds a candidate
(`exists_represents`), and a candidate is viable by construction, so the fields of
the decoder obey `Invariant`.  Everything that `feed` could do wrong with its
buffer is excluded by that: `feedChecked`, which fails at the first access out
of bounds, never fails (`feedChecked_eq`), the guard of a full buffer is never
taken, and of the strict decoder's errors only the check sum is left
(`stream_invariant`).
-/

namespace PicoMesh

namespace Candidate

/-- The errors that end a candidate. -/
theorem error_of_frameError {c : Candidate} {byte : UInt8}
    (h : (c.step byte).2.status = .frameError) :
    (c.step byte).2.error = .unsupportedVersion ∨ (c.step byte).2.error = .payloadTooLarge ∨
      (c.step byte).2.error = .badChecksum := by
  unfold step at h ⊢
  by_cases hne : c.bytes = []
  · rw [dif_pos hne] at h
    split_ifs at h
    cases h
  by_cases hversion : c.bytes.length = 1 ∧ byte ≠ kProtocolVersion
  · rw [dif_neg hne, dif_pos hversion]
    exact .inl rfl
  by_cases hbound : c.bytes.length = 6 ∧ byte.toNat > kMaxPayloadSize
  · rw [dif_neg hne, dif_neg hversion, dif_pos hbound]
    exact .inr (.inl rfl)
  by_cases hlength : (c.bytes ++ [byte]).length =
      kFrameOverhead + ((c.bytes ++ [byte]).getD 6 0).toNat
  · rw [dif_neg hne, dif_neg hversion, dif_neg hbound, dif_pos hlength] at h ⊢
    by_cases hsum : byteSum (c.bytes ++ [byte]) = 0
    · rw [verdict, if_pos hsum] at h
      cases h
    · rw [verdict, if_neg hsum]
      exact .inr (.inr rfl)
  · rw [dif_neg hne, dif_neg hversion, dif_neg hbound, dif_neg hlength] at h
    cases h

end Candidate

namespace StreamDecoder

/-! ### The invariant -/

/-- What holds of the fields in every state. -/
structure Invariant (d : StreamDecoder) : Prop where
  size : d.size < kMaxEncodedFrameSize
  magic : 1 ≤ d.size → d.buffer.getD 0 0 = kFrameMagic
  version : 2 ≤ d.size → d.buffer.getD 1 0 = kProtocolVersion
  /-- The declared length is known from the end of the header on. -/
  unknown : d.expectedLength = 0 ↔ d.size < kFrameHeaderSize
  declared : kFrameHeaderSize ≤ d.size →
    d.expectedLength = kFrameOverhead + (d.buffer.getD 6 0).toNat ∧
    (d.buffer.getD 6 0).toNat ≤ kMaxPayloadSize ∧ d.size < d.expectedLength

variable {d : StreamDecoder} {c : Candidate}

theorem Represents.invariant (h : d.Represents c) : d.Invariant := by
  have hsizes := sizes
  have hget : ∀ i, i < d.size → d.buffer.getD i 0 = c.bytes.getD i 0 := by
    intro i hi
    exact getD_buffer h.bytes (by rwa [← h.size])
  have hlength := h.size
  constructor
  · rw [hlength]
    exact c.viable.length_lt
  · intro hpos
    rw [hget 0 (by omega)]
    exact c.viable.magic (by omega)
  · intro htwo
    rw [hget 1 (by omega)]
    exact c.viable.version (by omega)
  · rw [h.expected, hlength]
    split_ifs <;> omega
  · intro hheader
    have hexpected := h.expected
    have hincomplete := c.viable.incomplete (by omega)
    rw [if_pos (by omega)] at hexpected
    rw [hget 6 (by omega)]
    exact ⟨hexpected, c.viable.bound (by omega), by omega⟩

/-! ### Accesses -/

/-- `buffer_[size_++] = byte`, if the index is one of the buffer's. -/
def pushChecked (d : StreamDecoder) (byte : UInt8) : Option StreamDecoder :=
  if d.size < kMaxEncodedFrameSize then some (d.push byte) else none

/-- The first `length` bytes of the buffer, if it has as many. -/
def readChecked (d : StreamDecoder) (length : ℕ) : Option (List UInt8) :=
  if length ≤ kMaxEncodedFrameSize then some (d.buffer.toList.take length) else none

/-- `feed` with every access to the buffer checked; the accesses at a constant
index need no check. -/
def feedChecked (d : StreamDecoder) (byte : UInt8) : Option (StreamDecoder × StreamResult) :=
  if d.size = 0 then
    if byte ≠ kFrameMagic then some (d, { status := .discarded, error := .badMagic })
    else do
      let d ← d.pushChecked byte
      some (d, .needMore)
  else if d.size ≥ kMaxEncodedFrameSize then some (d.fail .lengthMismatch byte)
  else do
    let d ← d.pushChecked byte
    if d.size = 2 ∧ d.buffer.getD 1 0 ≠ kProtocolVersion then
      some (d.fail .unsupportedVersion byte)
    else if d.size = kFrameHeaderSize ∧ (d.buffer.getD 6 0).toNat > kMaxPayloadSize then
      some (d.fail .payloadTooLarge byte)
    else
      let d := d.learnLength
      if d.expectedLength ≠ 0 ∧ d.size = d.expectedLength then do
        let data ← d.readChecked d.size
        let decoded := decodeFrame data
        let d := d.reset
        if !decoded.ok then some (d, { status := .frameError, error := decoded.error })
        else some (d, { status := .frameReady, frame := decoded.frame })
      else some (d, .needMore)

/-- **No access is out of bounds.** -/
theorem feedChecked_eq (h : d.size < kMaxEncodedFrameSize) (byte : UInt8) :
    d.feedChecked byte = some (d.feed byte) := by
  have hpush : d.pushChecked byte = some (d.push byte) := if_pos h
  have hread : (d.push byte).learnLength.readChecked (d.push byte).learnLength.size =
      some ((d.push byte).learnLength.buffer.toList.take (d.push byte).learnLength.size) := by
    apply if_pos
    rw [learnLength_size]
    exact h
  unfold feedChecked feed
  simp only [hpush, hread, Option.bind_eq_bind, Option.bind_some]
  split_ifs <;> rfl

/-! ### The strict decoder's judgement -/

/-- The bytes that a call of `feed` hands to `decode_frame`, if it does. -/
def judged (d : StreamDecoder) (byte : UInt8) : Option (List UInt8) :=
  if d.size = 0 ∨ d.size ≥ kMaxEncodedFrameSize then none
  else
    let d := d.push byte
    if d.size = 2 ∧ d.buffer.getD 1 0 ≠ kProtocolVersion then none
    else if d.size = kFrameHeaderSize ∧ (d.buffer.getD 6 0).toNat > kMaxPayloadSize then none
    else
      let d := d.learnLength
      if d.expectedLength ≠ 0 ∧ d.size = d.expectedLength then
        some (d.buffer.toList.take d.size)
      else none

/-- They are a complete candidate. -/
theorem Represents.shaped_of_judged (h : d.Represents c) {byte : UInt8} {data : List UInt8}
    (hdata : d.judged byte = some data) : FrameShaped data := by
  have hroom := h.invariant.size
  have hpush := candidate_push d byte hroom
  have hlearn := expectedLength_push h byte
  unfold judged at hdata
  simp only at hdata
  split_ifs at hdata with hempty hversion hbound hlength
  obtain ⟨hknown, hcomplete⟩ := hlength
  rw [hlearn] at hknown hcomplete
  rw [learnLength_size, learnLength_buffer] at hdata
  have hbytes : data = c.bytes ++ [byte] := by
    rw [← h.bytes, ← hpush]
    exact (Option.some.inj hdata).symm
  have hheader : kFrameHeaderSize ≤ (c.bytes ++ [byte]).length := by
    by_contra hshort
    exact hknown (if_neg hshort)
  rw [hbytes]
  apply c.shaped_of_length byte
  rw [if_pos hheader, learnLength_size] at hcomplete
  rw [← hcomplete, List.length_append, List.length_singleton, ← h.size]
  rfl

end StreamDecoder

/-- **The representation invariant of the stream decoder.**  In every state that
calls lead to, the fields obey the invariant; so no access of the next call is
out of bounds, its guard of a full buffer is not taken, the strict decoder can
only find a bad check sum, and the errors it reports are three. -/
theorem stream_invariant {d : StreamDecoder} (hreach : decoderCalls.Reachable d) :
    d.Invariant ∧
    ∀ byte, d.feedChecked byte = some (d.feed byte) ∧
      ¬d.size ≥ kMaxEncodedFrameSize ∧
      (∀ data, d.judged byte = some data →
        (decodeFrame data).error = .none ∨ (decodeFrame data).error = .badChecksum) ∧
      ((d.feed byte).2.status = .frameError →
        (d.feed byte).2.error = .unsupportedVersion ∨ (d.feed byte).2.error = .payloadTooLarge ∨
          (d.feed byte).2.error = .badChecksum) := by
  obtain ⟨c, hrep⟩ := StreamDecoder.exists_represents hreach
  have hinvariant := hrep.invariant
  refine ⟨hinvariant, fun byte => ⟨StreamDecoder.feedChecked_eq hinvariant.size byte,
    Nat.not_le_of_lt hinvariant.size, fun data hdata => ?_, ?_⟩⟩
  · rw [decodeFrame_of_shaped (hrep.shaped_of_judged hdata)]
    split_ifs
    · exact .inl rfl
    · exact .inr rfl
  · rw [(StreamDecoder.feed_represents hrep byte).2]
    exact Candidate.error_of_frameError

/-- A decoder in the middle of a candidate that was reset before. -/
theorem stream_invariant_example :
    (decoderCalls.run decoderCalls.start
      [.feed 0xB7, .reset, .feed 0xB7, .feed 0x01, .feed 0x02]).Invariant ∧
    (decoderCalls.run decoderCalls.start
      [.feed 0xB7, .reset, .feed 0xB7, .feed 0x01, .feed 0x02]).size = 3 :=
  ⟨(stream_invariant ⟨[.feed 0xB7, .reset, .feed 0xB7, .feed 0x01, .feed 0x02], rfl⟩).1, rfl⟩

end PicoMesh
