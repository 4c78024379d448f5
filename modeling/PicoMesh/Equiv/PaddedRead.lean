import PicoMesh.Equiv.Frame
import PicoMesh.Transport

/-!
# Padded reads

Both `receive` functions leave the bytes that the bus delivered to them in the
destination and return one length for them (`receivedLength`).  Strict decoding
of that many bytes succeeds exactly when some prefix of what was delivered is a
frame: the trimming helper never loses a frame, and its fallback to the whole
read never makes one up.
-/

namespace PicoMesh

/-- The length that a controller returns for the bytes it read. -/
def receivedLength (r : List UInt8) : ℕ :=
  if frameLengthFromPrefix r ≠ 0 then frameLengthFromPrefix r else r.length

theorem WireControllerTransport.receive_length (transport : WireControllerTransport)
    (requestFrom : UInt8 → UInt8 → ℕ × List UInt8) (capacity : ℕ) :
    (transport.receive requestFrom capacity).2 =
      receivedLength (transport.receive requestFrom capacity).1 := by
  unfold receive
  by_cases hcapacity : capacity = 0
  · rw [if_pos hcapacity]
    rfl
  · rw [if_neg hcapacity]
    rfl

/-! ### Frames in front of padding -/

section

variable {p r : List UInt8}

/-- **A frame in front is found**: the returned length is its length. -/
theorem receivedLength_of_front (hp : p <+: r) (hok : (decodeFrame p).ok = true) :
    receivedLength r = p.length ∧ r.take (receivedLength r) = p := by
  obtain ⟨rest, rfl⟩ := hp
  rw [decodeFrame_ok_iff_error, decodeFrame_ok_iff] at hok
  have hpositive : p.length ≠ 0 := List.length_eq_zero_iff.not.mpr hok.1.ne_nil
  have hlength : receivedLength (p ++ rest) = p.length := by
    rw [receivedLength, frameLengthFromPrefix_append hok.1, if_pos hpositive]
  rw [hlength]
  exact ⟨rfl, List.take_left⟩

/-- **Decoding what was read succeeds exactly when a frame is in front.** -/
theorem decodeFrame_received_iff :
    (decodeFrame (r.take (receivedLength r))).ok = true ↔
      ∃ p, p <+: r ∧ (decodeFrame p).ok = true := by
  constructor
  · intro h
    exact ⟨_, List.take_prefix _ _, h⟩
  · rintro ⟨p, hp, hok⟩
    rwa [(receivedLength_of_front hp hok).2]

theorem decodeFrame_encodeFrame_ok (f : Frame) :
    (decodeFrame (encodeFrame f).active).ok = true := by
  rw [decodeFrame_encodeFrame]
  rfl

/-- No encoding is a proper prefix of another. -/
theorem encodeFrame_eq_of_isPrefix {f g : Frame}
    (h : (encodeFrame f).active <+: (encodeFrame g).active) :
    (encodeFrame f).active = (encodeFrame g).active := by
  have hf := (receivedLength_of_front h (decodeFrame_encodeFrame_ok f)).2
  have hg := (receivedLength_of_front (List.prefix_refl _) (decodeFrame_encodeFrame_ok g)).2
  exact hf.symm.trans hg

/-- A read of an encoding and padding yields the frame. -/
theorem decodeFrame_padded (f : Frame) (padding : List UInt8) :
    decodeFrame (((encodeFrame f).active ++ padding).take
      (receivedLength ((encodeFrame f).active ++ padding))) = { frame := f.normalise } := by
  rw [(receivedLength_of_front (List.prefix_append _ padding) (decodeFrame_encodeFrame_ok f)).2,
    decodeFrame_encodeFrame]

/-- A read of only a part of an encoding is rejected. -/
theorem decodeFrame_cut {f : Frame} (hp : p <+: (encodeFrame f).active)
    (hne : p ≠ (encodeFrame f).active) :
    (decodeFrame (p.take (receivedLength p))).ok = false := by
  rw [Bool.eq_false_iff]
  intro hok
  -- a frame in front of the part would be in front of the whole
  have hfront := (List.take_prefix (receivedLength p) p).trans hp
  have hwhole := receivedLength_of_front hfront hok
  have hself := receivedLength_of_front (List.prefix_refl _) (decodeFrame_encodeFrame_ok f)
  have htake : p.take (receivedLength p) = (encodeFrame f).active := hwhole.2.symm.trans hself.2
  have hback : (encodeFrame f).active <+: p := htake ▸ List.take_prefix _ p
  exact hne (hp.eq_of_length_le hback.length_le)

end

/-! ### Reads -/

/-- A **controller read**: what the bus delivered, then the bytes that `receive` stored and the
length that it returned. -/
inductive ControllerRead (r : List UInt8) : List UInt8 × ℕ → Prop where
  /-- `i2c_read_blocking` says how many of the bytes it was asked for it stored, or that it
  failed. -/
  | i2c (transport : I2cControllerTransport) (inst : I2cInst)
      (readBlocking : I2cInst → UInt8 → ℕ → ℤ × List UInt8) (capacity : ℕ) (received : ℤ)
      (stored : List UInt8) (hinst : transport.instance? = some inst) (hcapacity : 0 < capacity)
      (hread : readBlocking inst transport.address capacity = (received, stored))
      (hstored : received ≤ stored.length) (hdelivered : stored.take received.toNat = r) :
      ControllerRead r (transport.receive readBlocking capacity)
  /-- `requestFrom` says how many bytes came, and `read` gives them one by one as long as there
  are any. -/
  | wire (transport : WireControllerTransport) (requestFrom : UInt8 → UInt8 → ℕ × List UInt8)
      (capacity available : ℕ) (readable : List UInt8) (hcapacity : 0 < capacity)
      (hread : requestFrom transport.address (UInt8.ofNat (min capacity kMaxEncodedFrameSize)) =
        (available, readable)) (hdelivered : readable.take (min capacity available) = r) :
      ControllerRead r (transport.receive requestFrom capacity)

/-- **Both controllers store what was delivered**, and return one length for it. -/
theorem ControllerRead.eq {r : List UInt8} {result : List UInt8 × ℕ}
    (h : ControllerRead r result) : result = (r, receivedLength r) := by
  cases h with
  | i2c transport inst readBlocking capacity received stored hinst hcapacity hread hstored
      hdelivered =>
    subst hdelivered
    unfold I2cControllerTransport.receive
    simp only [hinst, hread, if_neg hcapacity.ne']
    by_cases hfailed : received ≤ 0
    · rw [if_pos hfailed, Int.toNat_of_nonpos hfailed, List.take_zero]
      rfl
    · have hlength : (stored.take received.toNat).length = received.toNat := by
        rw [List.length_take]
        omega
      rw [if_neg hfailed, receivedLength, hlength]
  | wire transport requestFrom capacity available readable hcapacity hread hdelivered =>
    subst hdelivered
    have hrequested : (if capacity < kMaxEncodedFrameSize then capacity
        else kMaxEncodedFrameSize) = min capacity kMaxEncodedFrameSize := by
      split_ifs <;> omega
    unfold WireControllerTransport.receive
    simp only [hrequested, hread, if_neg hcapacity.ne']
    rfl

/-- Every byte string is what some read obtains. -/
theorem exists_controllerRead (r : List UInt8) : ∃ result, ControllerRead r result := by
  let transport : I2cControllerTransport := { instance? := some .i2c0, address := 0x20 }
  refine ⟨_, .i2c transport .i2c0 (fun _ _ _ => (r.length, r)) (r.length + 1) r.length r rfl
    (Nat.succ_pos _) rfl (Int.le_refl _) ?_⟩
  rw [Int.toNat_natCast, List.take_length]

/-- The bytes that are decoded after a read. -/
def frameBytes (result : List UInt8 × ℕ) : List UInt8 := result.1.take result.2

/-- **Padded reads decode exactly when a frame is a prefix.**  Any byte string can be read, and of
every one that a read of either controller obtains, `receive` stores the bytes and returns a length
for which strict decoding succeeds exactly when some prefix is decodable; that prefix is then the
only one, its length is the returned one, and the frame decoded is its own.  So no encoding is a
proper prefix of another, a read of an encoding and padding yields its frame, and a read of a part
of one is rejected. -/
theorem padded_read_exact :
    (∀ r, ∃ result, ControllerRead r result) ∧
    (∀ r result, ControllerRead r result →
      result = (r, receivedLength r) ∧
      ((decodeFrame (frameBytes result)).ok = true ↔ ∃ p, p <+: r ∧ (decodeFrame p).ok = true) ∧
      ∀ p, p <+: r → (decodeFrame p).ok = true →
        p.length = result.2 ∧ p = frameBytes result ∧
        decodeFrame (frameBytes result) = decodeFrame p) ∧
    (∀ f g : Frame, (encodeFrame f).active <+: (encodeFrame g).active →
      (encodeFrame f).active = (encodeFrame g).active) ∧
    (∀ (f : Frame) (padding : List UInt8) result,
      ControllerRead ((encodeFrame f).active ++ padding) result →
      decodeFrame (frameBytes result) = { frame := f.normalise }) ∧
    ∀ (f : Frame) p result, p <+: (encodeFrame f).active → p ≠ (encodeFrame f).active →
      ControllerRead p result → (decodeFrame (frameBytes result)).ok = false := by
  refine ⟨exists_controllerRead, fun r result hread => ?_,
    fun _ _ h => encodeFrame_eq_of_isPrefix h, fun f padding result hread => ?_,
    fun f p result hp hne hread => ?_⟩
  · obtain rfl := hread.eq
    refine ⟨rfl, decodeFrame_received_iff, fun p hp hok => ?_⟩
    obtain ⟨hlength, htake⟩ := receivedLength_of_front hp hok
    exact ⟨hlength.symm, htake.symm, congrArg decodeFrame htake⟩
  · obtain rfl := hread.eq
    exact decodeFrame_padded f padding
  · obtain rfl := hread.eq
    exact decodeFrame_cut hp hne

/-- Reads of an empty frame: by the Pico with zeros behind it, by the Arduino with what an idle bus
gives, and by the Arduino again when only five bytes come. -/
theorem padded_read_exact_example :
    let frame := (encodeFrame {}).active
    let readBlocking : I2cInst → UInt8 → ℕ → ℤ × List UInt8 := fun _ _ length =>
      (length, (frame ++ List.replicate length 0).take length)
    let pico : I2cControllerTransport := { instance? := some .i2c0, address := 0x20 }
    let arduino : WireControllerTransport := { address := 0x42 }
    decodeFrame (frameBytes (pico.receive readBlocking 40)) = { frame := {} } ∧
    decodeFrame (frameBytes
      (arduino.receive (fun _ _ => (40, frame ++ List.replicate 32 0xFF)) 64)) =
      { frame := {} } ∧
    (decodeFrame (frameBytes (arduino.receive (fun _ _ => (5, frame.take 5)) 64))).ok = false := by
  intro frame readBlocking pico arduino
  have hpico : ControllerRead (frame ++ List.replicate 32 0) (pico.receive readBlocking 40) :=
    .i2c pico .i2c0 readBlocking 40 40 (frame ++ List.replicate 32 0) rfl (by omega)
      (by decide) (by decide) (by decide)
  have harduino : ControllerRead (frame ++ List.replicate 32 0xFF)
      (arduino.receive (fun _ _ => (40, frame ++ List.replicate 32 0xFF)) 64) :=
    .wire arduino _ 64 40 (frame ++ List.replicate 32 0xFF) (by omega) rfl (by decide)
  have hcut : ControllerRead (frame.take 5) (arduino.receive (fun _ _ => (5, frame.take 5)) 64) :=
    .wire arduino _ 64 5 (frame.take 5) (by omega) rfl (by decide)
  refine ⟨?_, ?_, ?_⟩
  · exact padded_read_exact.2.2.2.1 {} (List.replicate 32 0) _ hpico
  · exact padded_read_exact.2.2.2.1 {} (List.replicate 32 0xFF) _ harduino
  · exact padded_read_exact.2.2.2.2 {} (frame.take 5) _ (List.take_prefix 5 frame) (by decide) hcut

end PicoMesh
