import PicoMesh.Equiv.StreamInvariant
import PicoMesh.FuzzFrameDecoder

/-!
# The fuzz target never fails

No input makes `invariant_failure` run (`fuzz_target_passes`): the prefix helper
stays within the input and the frame size, what the strict decoder accepts comes
back from an encoding, the stream decoder never retains more than a frame and
reports only frames that the strict decoder accepts again.
-/

namespace PicoMesh

theorem framesEqual_self (f : Frame) : framesEqual f f = true := by
  simp [framesEqual]

theorem fuzzExact_eq (data : List UInt8) : fuzzExact data = some () := by
  have hsizes := sizes
  have hbounded : frameLengthFromPrefix data ≤ data.length ∧
      frameLengthFromPrefix data ≤ kMaxEncodedFrameSize := by
    by_cases hzero : frameLengthFromPrefix data = 0
    · rw [hzero]
      exact ⟨Nat.zero_le _, Nat.zero_le _⟩
    · obtain ⟨hle, hshape⟩ := frameLengthFromPrefix_shaped hzero
      have hlength := hshape.length
      have hbound := hshape.bound
      rw [List.length_take, Nat.min_eq_left hle] at hlength
      exact ⟨hle, by omega⟩
  unfold fuzzExact
  simp only
  rw [if_neg (by omega)]
  split_ifs with hok hlength hfailed
  · -- an accepted input is all of the frame that it begins with
    rw [decodeFrame_ok_iff_error, decodeFrame_ok_iff] at hok
    have hwhole := frameLengthFromPrefix_append hok.1 []
    rw [List.append_nil] at hwhole
    exact absurd hwhole hlength
  · rw [decodeFrame_ok_iff_error] at hok
    have hnormalised := decodeFrame_isNormalised hok
    rw [decodeEncodedFrame, decodeFrame_encodeFrame, hnormalised, framesEqual_self] at hfailed
    cases hfailed
  · rfl
  · rfl

/-- **The loop never fails**, from any state that holds a candidate. -/
theorem fuzzStream_eq {stream : StreamDecoder} {c : Candidate} (h : stream.Represents c)
    (data : List UInt8) : ∃ stream', fuzzStream stream data = some stream' := by
  induction data generalizing stream c with
  | nil => exact ⟨stream, rfl⟩
  | cons byte data ih =>
    have hnext := (StreamDecoder.feed_represents h byte).1
    have hretained : (stream.feed byte).1.bufferedSize < kMaxEncodedFrameSize := hnext.invariant.size
    unfold fuzzStream
    simp only
    rw [if_neg (by omega), if_neg]
    · exact ih hnext
    · rw [decodeEncodedFrame, decodeFrame_encodeFrame]
      rintro ⟨-, hfailed⟩
      cases hfailed

/-- **The fuzz target passes on every input.** -/
theorem fuzz_target_passes (data : List UInt8) : llvmFuzzerTestOneInput data = some 0 := by
  obtain ⟨stream, hstream⟩ := fuzzStream_eq StreamDecoder.represents_start data
  unfold llvmFuzzerTestOneInput
  rw [fuzzExact_eq, hstream]
  rfl

end PicoMesh
