import PicoMesh.Frame
import Mathlib.Data.List.GetD
import Mathlib.Data.Set.Basic
import Mathlib.Logic.Equiv.Defs
import Mathlib.Tactic.IntervalCases

/-!
# Correctness of the frame codec

`encodeFrame_active` lays the encoding out byte by byte: header, message,
checksum.  `FrameShaped` is what the header checks of `decodeFrame` ask of a
buffer, and `decodeFrame_of_shaped` says the decoder's answer on a shaped
buffer depends on the byte sum alone.  Together they give both directions of
`codec_exact`: decoding an encoding returns the normalised frame, and every
accepted buffer is the encoding of the frame it decodes to.
-/

namespace PicoMesh

/-! ### Byte sums -/

theorem foldl_add_eq (data : List UInt8) (start : UInt8) :
    data.foldl (fun sum byte => sum + byte) start = start + byteSum data := by
  unfold byteSum
  induction data generalizing start with
  | nil => simp
  | cons byte data ih =>
    rw [List.foldl_cons, List.foldl_cons, ih, ih (0 + byte), UInt8.zero_add, UInt8.add_assoc]

@[simp] theorem byteSum_nil : byteSum [] = 0 := rfl

@[simp] theorem byteSum_cons (byte : UInt8) (data : List UInt8) :
    byteSum (byte :: data) = byte + byteSum data := by
  rw [byteSum, List.foldl_cons, foldl_add_eq, UInt8.zero_add]

@[simp] theorem byteSum_append (a b : List UInt8) :
    byteSum (a ++ b) = byteSum a + byteSum b := by
  rw [byteSum, List.foldl_append, foldl_add_eq b, ← byteSum]

/-- The unsigned byte sum is the sum of the bytes modulo 256. -/
theorem toNat_byteSum (data : List UInt8) :
    (byteSum data).toNat = (data.map UInt8.toNat).sum % 256 := by
  induction data with
  | nil => rfl
  | cons byte data ih =>
    rw [byteSum_cons, UInt8.toNat_add, ih, List.map_cons, List.sum_cons, Nat.add_mod_mod]

/-- Appending the checksum makes the byte sum zero. -/
theorem byteSum_append_checksum8 (data : List UInt8) :
    byteSum (data ++ [checksum8 data]) = 0 := by
  rw [byteSum_append, byteSum_cons, byteSum_nil, UInt8.add_zero, checksum8, UInt8.zero_sub,
    UInt8.add_neg_eq_sub, UInt8.sub_self]

/-- The checksum is the only byte that completes a buffer to sum zero. -/
theorem eq_checksum8_of_byteSum_append (data : List UInt8) (c : UInt8)
    (h : byteSum (data ++ [c]) = 0) : c = checksum8 data := by
  simp only [byteSum_append, byteSum_cons, byteSum_nil, UInt8.add_zero] at h
  rw [checksum8]
  grind

/-- The generate and verify loops agree. -/
theorem verifyChecksum8_iff (data : List UInt8) :
    verifyChecksum8 data = true ↔ data ≠ [] ∧ byteSum data = 0 := by
  unfold verifyChecksum8
  split_ifs with h
  · simp [List.length_eq_zero_iff.mp h]
  · simp [List.length_eq_zero_iff.not.mp h]

/-! ### The layout of an encoding -/

theorem getElem_copyAt {size : ℕ} (dst : Vector UInt8 size) (offset : ℕ) (src : List UInt8)
    (i : ℕ) (hi : i < size) :
    (copyAt dst offset src)[i] = if offset ≤ i then src.getD (i - offset) dst[i] else dst[i] := by
  simp [copyAt]

/-- A copy leaves what lies before its offset and is followed by its source. -/
theorem take_copyAt {size : ℕ} (dst : Vector UInt8 size) (offset : ℕ) (src : List UInt8)
    (h : offset + src.length ≤ size) :
    (copyAt dst offset src).toList.take (offset + src.length)
      = dst.toList.take offset ++ src := by
  refine List.ext_getElem (by simp; omega) fun i h₁ h₂ => ?_
  have hi : i < offset + src.length := by simp at h₁; omega
  rw [List.getElem_take, Vector.getElem_toList, getElem_copyAt _ _ _ i (by omega)]
  by_cases hoff : offset ≤ i
  · rw [if_pos hoff, List.getElem_append_right (by simp; omega),
      List.getD_eq_getElem _ _ (by omega)]
    congr 1
    simp; omega
  · rw [if_neg hoff, List.getElem_append_left (by simp; omega), List.getElem_take,
      Vector.getElem_toList]

/-- Setting the first byte past a prefix and extending the prefix by it. -/
theorem take_succ_set {α : Type*} (l : List α) (k : ℕ) (x : α) (hk : k < l.length) :
    (l.set k x).take (k + 1) = l.take k ++ [x] := by
  rw [List.take_succ_eq_append_getElem (by simpa using hk), List.take_set_of_le (Nat.le_refl k),
    List.getElem_set_self]

/-- The number of payload bytes that travel: `payload_length` clamped to the
capacity. -/
def Frame.messageLength (f : Frame) : ℕ := min f.payloadLength.toNat kMaxPayloadSize

/-- The message a frame carries. -/
def Frame.message (f : Frame) : List UInt8 := f.payload.toList.take f.messageLength

theorem Frame.messageLength_le (f : Frame) : f.messageLength ≤ kMaxPayloadSize :=
  Nat.min_le_right ..

@[simp] theorem Frame.length_message (f : Frame) : f.message.length = f.messageLength := by
  simp [message, messageLength]

/-- The source clamps in 8-bit arithmetic. -/
theorem toNat_min_payloadLength (f : Frame) :
    (min f.payloadLength (UInt8.ofNat kMaxPayloadSize)).toNat = f.messageLength := by
  have h32 : (UInt8.ofNat kMaxPayloadSize).toNat = kMaxPayloadSize := rfl
  rw [Frame.messageLength, UInt8.min_def]
  split_ifs with h <;> rw [UInt8.le_iff_toNat_le, h32] at h
  · omega
  · rw [h32]; omega

/-- The seven header bytes. -/
def Frame.header (f : Frame) : List UInt8 :=
  [kFrameMagic, kProtocolVersion, f.type.raw, f.flags, f.nodeId, f.sequence,
    UInt8.ofNat f.messageLength]

/-- Everything before the checksum: the header and the message. -/
def Frame.body (f : Frame) : List UInt8 := f.header ++ f.message

@[simp] theorem Frame.length_header (f : Frame) : f.header.length = kFrameHeaderSize := rfl

@[simp] theorem Frame.length_body (f : Frame) :
    f.body.length = kFrameHeaderSize + f.messageLength := by
  rw [body, List.length_append, length_header, length_message]

/-- **The wire layout**: header, message, checksum. -/
theorem encodeFrame_active (f : Frame) :
    (encodeFrame f).active = f.body ++ [checksum8 f.body] := by
  have hle := f.messageLength_le
  have hsizes := sizes
  have hmsg : (f.payload.toList.take f.messageLength).length = f.messageLength := f.length_message
  have hlen : kFrameOverhead + f.messageLength = kFrameHeaderSize + f.messageLength + 1 := by
    omega
  unfold encodeFrame EncodedFrame.active
  simp only [toNat_min_payloadLength, hlen, Nat.add_sub_cancel]
  rw [Vector.toList_setIfInBounds, take_succ_set _ _ _ (by simp; omega)]
  -- what the checksum covers: the header writes, then the copied message
  have hbody := take_copyAt
    (((((((Vector.replicate kMaxEncodedFrameSize 0).set 0 kFrameMagic).set 1 kProtocolVersion).set 2
      f.type.raw).set 3 f.flags).set 4 f.nodeId).set 5 f.sequence |>.set 6
      (UInt8.ofNat f.messageLength)) kFrameHeaderSize (f.payload.toList.take f.messageLength)
    (by omega)
  rw [hmsg] at hbody
  rw [hbody]
  rfl

theorem length_encodeFrame_active (f : Frame) :
    (encodeFrame f).active.length = kFrameOverhead + f.messageLength := by
  have hsizes := sizes
  rw [encodeFrame_active, List.length_append, Frame.length_body, List.length_singleton]
  omega

/-- The recorded length is the number of active bytes. -/
theorem encodeFrame_length (f : Frame) :
    (encodeFrame f).length = (encodeFrame f).active.length := by
  rw [length_encodeFrame_active, encodeFrame]
  simp only [toNat_min_payloadLength]

/-! ### Normalised frames -/

/-- The frame a receiver can recover: the length clamped to the capacity and the
bytes past the message zero. -/
def Frame.normalise (f : Frame) : Frame :=
  { f with
    payloadLength := UInt8.ofNat f.messageLength
    payload := Vector.ofFn fun i => if i.val < f.messageLength then f.payload[i] else 0 }

/-- A frame that normalisation leaves alone. -/
def Frame.IsNormalised (f : Frame) : Prop := f.normalise = f

instance (f : Frame) : Decidable f.IsNormalised := inferInstanceAs (Decidable (_ = _))

theorem toNat_ofNat_messageLength (f : Frame) :
    (UInt8.ofNat f.messageLength).toNat = f.messageLength := by
  have := f.messageLength_le
  rw [UInt8.toNat_ofNat', Nat.mod_eq_of_lt (by have := sizes; omega)]

@[simp] theorem Frame.type_normalise (f : Frame) : f.normalise.type = f.type := by
  simp only [normalise]

@[simp] theorem Frame.flags_normalise (f : Frame) : f.normalise.flags = f.flags := by
  simp only [normalise]

@[simp] theorem Frame.nodeId_normalise (f : Frame) : f.normalise.nodeId = f.nodeId := by
  simp only [normalise]

@[simp] theorem Frame.sequence_normalise (f : Frame) : f.normalise.sequence = f.sequence := by
  simp only [normalise]

@[simp] theorem Frame.messageLength_normalise (f : Frame) :
    f.normalise.messageLength = f.messageLength := by
  have := f.messageLength_le
  rw [messageLength, normalise, toNat_ofNat_messageLength]
  omega

@[simp] theorem Frame.message_normalise (f : Frame) : f.normalise.message = f.message := by
  refine List.ext_getElem (by simp) fun i h₁ h₂ => ?_
  rw [length_message] at h₂
  simp only [message, messageLength_normalise, List.getElem_take, Vector.getElem_toList]
  simp [normalise, h₂]

@[simp] theorem Frame.header_normalise (f : Frame) : f.normalise.header = f.header := by
  simp only [header, messageLength_normalise, type_normalise, flags_normalise, nodeId_normalise,
    sequence_normalise]

@[simp] theorem Frame.body_normalise (f : Frame) : f.normalise.body = f.body := by
  rw [body, body, message_normalise, header_normalise]

/-- Normalisation is invisible on the wire. -/
theorem encodeFrame_active_normalise (f : Frame) :
    (encodeFrame f.normalise).active = (encodeFrame f).active := by
  rw [encodeFrame_active, encodeFrame_active, Frame.body_normalise]

/-! ### Strict decoding -/

/-- What the header checks of `decode_frame` ask of a buffer: magic, version, a
payload length within bounds, and exactly the length it declares. -/
structure FrameShaped (data : List UInt8) : Prop where
  magic : data.getD 0 0 = kFrameMagic
  version : data.getD 1 0 = kProtocolVersion
  bound : (data.getD 6 0).toNat ≤ kMaxPayloadSize
  length : data.length = kFrameOverhead + (data.getD 6 0).toNat

/-- The frame read off a buffer, checks aside. -/
def frameOf (data : List UInt8) : Frame where
  type := ⟨data.getD 2 0⟩
  flags := data.getD 3 0
  nodeId := data.getD 4 0
  sequence := data.getD 5 0
  payload := copyAt (Vector.replicate _ 0) 0
    ((data.drop kFrameHeaderSize).take (data.getD 6 0).toNat)
  payloadLength := data.getD 6 0

theorem FrameShaped.ne_nil {data : List UInt8} (h : FrameShaped data) : data ≠ [] := by
  rintro rfl
  have := h.length
  simp at this

/-- On a shaped buffer only the byte sum is left to decide. -/
theorem decodeFrame_of_shaped {data : List UInt8} (h : FrameShaped data) :
    decodeFrame data =
      if byteSum data = 0 then { frame := frameOf data } else { error := .badChecksum } := by
  have hverify : (!verifyChecksum8 data) = true ↔ ¬ byteSum data = 0 := by
    rw [Bool.not_eq_true', ← Bool.not_eq_true, verifyChecksum8_iff]
    simp [h.ne_nil]
  have hlen : ¬ data.length < kFrameOverhead := by rw [h.length]; omega
  unfold decodeFrame
  rw [if_neg hlen, if_neg (not_not.mpr h.magic), if_neg (not_not.mpr h.version)]
  simp only [gt_iff_lt, Nat.not_lt.mpr h.bound, if_false, ne_eq, h.length, not_true_eq_false]
  by_cases hsum : byteSum data = 0
  · rw [if_neg (by rw [hverify]; simpa using hsum), if_pos hsum]
    simp [frameOf]
  · rw [if_pos (hverify.mpr hsum), if_neg hsum]

/-- **Strict decoding succeeds exactly on shaped buffers with byte sum zero.** -/
theorem decodeFrame_ok_iff (data : List UInt8) :
    (decodeFrame data).error = .none ↔ FrameShaped data ∧ byteSum data = 0 := by
  constructor
  · intro h
    -- an accepted buffer has passed every check
    have hshape : FrameShaped data := by
      unfold decodeFrame at h
      simp only [gt_iff_lt] at h
      split_ifs at h with h₁ h₂ h₃ h₄ h₅ h₆
      exact ⟨not_not.mp h₂, not_not.mp h₃, Nat.not_lt.mp h₄, not_not.mp h₅⟩
    rw [decodeFrame_of_shaped hshape] at h
    split_ifs at h with hsum
    exact ⟨hshape, hsum⟩
  · rintro ⟨hshape, hsum⟩
    rw [decodeFrame_of_shaped hshape, if_pos hsum]

theorem decodeFrame_ok_iff_error (data : List UInt8) :
    (decodeFrame data).ok = true ↔ (decodeFrame data).error = .none := beq_iff_eq

/-- A buffer of at least eight bytes is seven header bytes, a payload and a last
byte. -/
theorem exists_eq_header_append (data : List UInt8) (h : kFrameOverhead ≤ data.length) :
    ∃ x₀ x₁ x₂ x₃ x₄ x₅ x₆ payload c, data = [x₀, x₁, x₂, x₃, x₄, x₅, x₆] ++ payload ++ [c] := by
  match data with
  | x₀ :: x₁ :: x₂ :: x₃ :: x₄ :: x₅ :: x₆ :: y :: rest =>
    exact ⟨x₀, x₁, x₂, x₃, x₄, x₅, x₆, (y :: rest).dropLast, (y :: rest).getLast (by simp), by
      rw [List.append_assoc, List.dropLast_append_getLast]; rfl⟩
  | [] | [_] | [_, _] | [_, _, _] | [_, _, _, _] | [_, _, _, _, _] | [_, _, _, _, _, _]
  | [_, _, _, _, _, _, _] => simp [kFrameOverhead, kFrameHeaderSize] at h

/-- A shaped buffer is the body of the frame read off it and a last byte. -/
theorem FrameShaped.eq_body_append {data : List UInt8} (h : FrameShaped data) :
    ∃ c, data = (frameOf data).body ++ [c] := by
  obtain ⟨x₀, x₁, x₂, x₃, x₄, x₅, x₆, payload, c, rfl⟩ :=
    exists_eq_header_append data (by rw [h.length]; omega)
  obtain ⟨rfl, rfl, hbound, hlen⟩ := h
  have hsizes := sizes
  replace hbound : x₆.toNat ≤ kMaxPayloadSize := hbound
  have hpayload : payload.length = x₆.toNat := by simp at hlen; omega
  refine ⟨c, ?_⟩
  have hmlen : (frameOf ([kFrameMagic, kProtocolVersion, x₂, x₃, x₄, x₅, x₆] ++ payload ++
      [c])).messageLength = x₆.toNat := Nat.min_eq_left hbound
  have hmsg : (frameOf ([kFrameMagic, kProtocolVersion, x₂, x₃, x₄, x₅, x₆] ++ payload ++
      [c])).message = payload := by
    have hcopy := take_copyAt (Vector.replicate kMaxPayloadSize 0) 0 payload (by omega)
    rw [Frame.message, hmlen]
    simpa [frameOf, ← hpayload] using hcopy
  rw [Frame.body, Frame.header, hmsg, hmlen, UInt8.ofNat_toNat]
  rfl

/-- What a shaped buffer of byte sum zero decodes to encodes back to it. -/
theorem encodeFrame_frameOf {data : List UInt8} (h : FrameShaped data) (hsum : byteSum data = 0) :
    (encodeFrame (frameOf data)).active = data := by
  obtain ⟨c, hc⟩ := h.eq_body_append
  have hcheck := eq_checksum8_of_byteSum_append (frameOf data).body c (by rw [← hc, hsum])
  rw [encodeFrame_active, ← hcheck, ← hc]

/-- An encoding is shaped. -/
theorem encodeFrame_shaped (f : Frame) : FrameShaped (encodeFrame f).active where
  magic := by rw [encodeFrame_active]; rfl
  version := by rw [encodeFrame_active]; rfl
  bound := by
    rw [encodeFrame_active]
    exact (toNat_ofNat_messageLength f).trans_le f.messageLength_le
  length := by
    rw [length_encodeFrame_active, encodeFrame_active]
    exact congrArg _ (toNat_ofNat_messageLength f).symm

@[simp] theorem byteSum_encodeFrame (f : Frame) : byteSum (encodeFrame f).active = 0 := by
  rw [encodeFrame_active, byteSum_append_checksum8]

/-- The frame read off an encoding is the normalised frame. -/
theorem frameOf_encodeFrame (f : Frame) : frameOf (encodeFrame f).active = f.normalise := by
  have hlen := toNat_ofNat_messageLength f
  have hmsg : ((encodeFrame f).active.drop kFrameHeaderSize).take f.messageLength = f.message := by
    rw [encodeFrame_active, Frame.body, List.append_assoc,
      List.drop_left' (Frame.length_header f), List.take_left' f.length_message]
  have hlayout := encodeFrame_active f
  rw [frameOf, Frame.normalise, Frame.mk.injEq]
  have h6 : (encodeFrame f).active.getD 6 0 = UInt8.ofNat f.messageLength := by rw [hlayout]; rfl
  refine ⟨by rw [hlayout]; rfl, by rw [hlayout]; rfl, by rw [hlayout]; rfl, by rw [hlayout]; rfl,
    ?_, h6⟩
  -- the payload: the message, then the zeros the destination held
  rw [h6, hlen, hmsg]
  refine Vector.ext fun i hi => ?_
  rw [getElem_copyAt _ _ _ i hi, if_pos (Nat.zero_le i), Nat.sub_zero, Vector.getElem_replicate]
  simp only [Vector.getElem_ofFn, Fin.getElem_fin]
  split_ifs with hlt
  · rw [List.getD_eq_getElem _ _ (by simpa using hlt)]
    simp [Frame.message]
  · rw [List.getD_eq_default _ _ (by simpa using hlt)]

/-- **Decoding an encoding returns the normalised frame.** -/
theorem decodeFrame_encodeFrame (f : Frame) :
    decodeFrame (encodeFrame f).active = { frame := f.normalise } := by
  rw [decodeFrame_of_shaped (encodeFrame_shaped f), if_pos (byteSum_encodeFrame f),
    frameOf_encodeFrame]

/-- **Encoding what an accepted buffer decodes to returns the buffer.** -/
theorem encodeFrame_decodeFrame {data : List UInt8} (h : (decodeFrame data).error = .none) :
    (encodeFrame (decodeFrame data).frame).active = data := by
  obtain ⟨hshape, hsum⟩ := (decodeFrame_ok_iff data).mp h
  rw [decodeFrame_of_shaped hshape, if_pos hsum]
  exact encodeFrame_frameOf hshape hsum

/-- What decodes is normalised. -/
theorem decodeFrame_isNormalised {data : List UInt8} (h : (decodeFrame data).error = .none) :
    (decodeFrame data).frame.IsNormalised := by
  have h' := congrArg DecodeResult.frame (decodeFrame_encodeFrame (decodeFrame data).frame)
  rw [encodeFrame_decodeFrame h] at h'
  exact h'.symm

/-! ### The prefix helper -/

/-- What the prefix helper reports is the length of a shaped prefix. -/
theorem frameLengthFromPrefix_shaped {data : List UInt8} (h : frameLengthFromPrefix data ≠ 0) :
    frameLengthFromPrefix data ≤ data.length ∧
    FrameShaped (data.take (frameLengthFromPrefix data)) := by
  have hsizes := sizes
  unfold frameLengthFromPrefix at h ⊢
  simp only [gt_iff_lt] at h ⊢
  split_ifs at h ⊢ with h₁ h₂ h₃ h₄
  · omega
  · omega
  · omega
  · rw [not_or, not_not, not_not] at h₂
    have hget : ∀ i, i < 7 → (data.take (kFrameOverhead + (data.getD 6 0).toNat)).getD i 0 =
        data.getD i 0 := by
      intro i hi
      have hi' : i < data.length := by omega
      rw [List.getD_eq_getElem _ _ (by rw [List.length_take]; omega), List.getElem_take]
      exact (List.getD_eq_getElem _ _ hi').symm
    refine ⟨h₄, ?_, ?_, ?_, ?_⟩
    · rw [hget 0 (by omega), h₂.1]
    · rw [hget 1 (by omega), h₂.2]
    · rw [hget 6 (by omega)]; omega
    · rw [hget 6 (by omega), List.length_take]; omega
  · omega

/-- A shaped buffer is found whatever follows it. -/
theorem frameLengthFromPrefix_append {data : List UInt8} (h : FrameShaped data)
    (rest : List UInt8) : frameLengthFromPrefix (data ++ rest) = data.length := by
  have hsizes := sizes
  have hlength := h.length
  have hget : ∀ i, i < 7 → (data ++ rest).getD i 0 = data.getD i 0 := by
    intro i hi
    rw [List.getD_append _ _ _ _ (by omega)]
  unfold frameLengthFromPrefix
  rw [List.length_append, hget 0 (by omega), hget 1 (by omega), hget 6 (by omega), h.magic,
    h.version]
  simp only [gt_iff_lt, ne_eq, not_true_eq_false, or_self, if_false, Nat.not_lt.mpr h.bound]
  rw [if_neg (by omega), if_pos (by omega), hlength]

/-! ### The codec as a bijection -/

/-- A frame in the form a receiver recovers it. -/
abbrev NormalisedFrame := {f : Frame // f.IsNormalised}

/-- A buffer the strict decoder accepts. -/
abbrev AcceptedBuffer := {data : List UInt8 // (decodeFrame data).error = .none}

/-- Encoding and decoding, as inverse maps between normalised frames and accepted
buffers. -/
def codecEquiv : NormalisedFrame ≃ AcceptedBuffer where
  toFun f := ⟨(encodeFrame f.val).active, by rw [decodeFrame_encodeFrame]⟩
  invFun data := ⟨(decodeFrame data.val).frame, decodeFrame_isNormalised data.property⟩
  left_inv f := Subtype.ext (by
    show (decodeFrame (encodeFrame f.val).active).frame = f.val
    rw [decodeFrame_encodeFrame]
    exact f.property)
  right_inv data := Subtype.ext (encodeFrame_decodeFrame data.property)

/-- The fields of a normalised frame. -/
theorem Frame.normalise_spec (f : Frame) :
    f.normalise.type = f.type ∧ f.normalise.flags = f.flags ∧ f.normalise.nodeId = f.nodeId ∧
    f.normalise.sequence = f.sequence ∧
    f.normalise.payloadLength.toNat = min f.payloadLength.toNat kMaxPayloadSize ∧
    ∀ (i : ℕ) (hi : i < kMaxPayloadSize), f.normalise.payload[i] =
      if i < f.normalise.payloadLength.toNat then f.payload[i] else 0 := by
  have hlen : f.normalise.payloadLength.toNat = f.messageLength := by
    rw [normalise, toNat_ofNat_messageLength]
  refine ⟨f.type_normalise, f.flags_normalise, f.nodeId_normalise, f.sequence_normalise, hlen, ?_⟩
  intro i hi
  rw [hlen, normalise]
  simp

/-- **The codec is exact.**  Decoding an encoding recovers every frame up to
normalisation, encoding recovers every accepted buffer byte for byte, so the
accepted buffers are the encodings and the two maps are inverse bijections
between normalised frames and accepted buffers. -/
theorem codec_exact :
    (∀ f : Frame, (decodeEncodedFrame (encodeFrame f)).ok = true ∧
      let g := (decodeEncodedFrame (encodeFrame f)).frame
      g.type = f.type ∧ g.flags = f.flags ∧ g.nodeId = f.nodeId ∧ g.sequence = f.sequence ∧
      g.payloadLength.toNat = min f.payloadLength.toNat kMaxPayloadSize ∧
      ∀ (i : ℕ) (hi : i < kMaxPayloadSize),
        g.payload[i] = if i < g.payloadLength.toNat then f.payload[i] else 0) ∧
    (∀ data : List UInt8, (decodeFrame data).ok = true →
      (encodeFrame (decodeFrame data).frame).length = data.length ∧
      (encodeFrame (decodeFrame data).frame).active = data) ∧
    {data | (decodeFrame data).ok = true} = Set.range (fun f => (encodeFrame f).active) ∧
    ∃ e : NormalisedFrame ≃ AcceptedBuffer,
      (∀ f, (e f).val = (encodeFrame f.val).active) ∧
      ∀ data, (e.symm data).val = (decodeFrame data.val).frame := by
  refine ⟨fun f => ?_, fun data h => ?_, ?_, codecEquiv, fun _ => rfl, fun _ => rfl⟩
  · rw [decodeEncodedFrame, decodeFrame_encodeFrame]
    exact ⟨rfl, f.normalise_spec⟩
  · rw [encodeFrame_length, encodeFrame_decodeFrame ((decodeFrame_ok_iff_error data).mp h)]
    exact ⟨rfl, rfl⟩
  · ext data
    constructor
    · intro h
      exact ⟨(decodeFrame data).frame,
        encodeFrame_decodeFrame ((decodeFrame_ok_iff_error data).mp h)⟩
    · rintro ⟨f, rfl⟩
      exact (decodeFrame_ok_iff_error _).mpr (by rw [decodeFrame_encodeFrame])

end PicoMesh
