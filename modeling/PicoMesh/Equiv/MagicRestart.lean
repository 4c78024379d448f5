import PicoMesh.Equiv.StreamDecoder

/-!
# A magic byte that ends a candidate

The version and length checks keep a magic byte on which they fail, so the frame
that it starts is delivered.  The strict decoder's judgement at the declared
length does not: `magic_restart_iff` says that a rejecting magic byte starts the
next frame exactly when it does not complete the candidate.
-/

namespace PicoMesh

namespace Candidate

/-- What a magic byte leaves behind that ends a candidate with an error. -/
theorem step_magic_of_frameError {c : Candidate}
    (h : (c.step kFrameMagic).2.status = .frameError) :
    (c.step kFrameMagic).1 =
      if (c.bytes ++ [kFrameMagic]).length =
        kFrameOverhead + ((c.bytes ++ [kFrameMagic]).getD 6 0).toNat then empty else magic := by
  have hsizes := sizes
  have hlen : (c.bytes ++ [kFrameMagic]).length = c.bytes.length + 1 := by
    rw [List.length_append, List.length_singleton]
  unfold step at h ⊢
  by_cases hne : c.bytes = []
  · rw [dif_pos hne, if_pos rfl] at h
    cases h
  by_cases hversion : c.bytes.length = 1 ∧ kFrameMagic ≠ kProtocolVersion
  · rw [dif_neg hne, dif_pos hversion, if_neg (by omega)]
    rfl
  by_cases hbound : c.bytes.length = 6 ∧ kFrameMagic.toNat > kMaxPayloadSize
  · rw [dif_neg hne, dif_neg hversion, dif_pos hbound, if_neg (by omega)]
    rfl
  by_cases hlength : (c.bytes ++ [kFrameMagic]).length =
      kFrameOverhead + ((c.bytes ++ [kFrameMagic]).getD 6 0).toNat
  · rw [dif_neg hne, dif_neg hversion, dif_neg hbound, dif_pos hlength, if_pos hlength]
  · rw [dif_neg hne, dif_neg hversion, dif_neg hbound, dif_neg hlength] at h
    cases h

/-- An encoding is a magic byte and its other bytes. -/
theorem encodeFrame_active_eq_cons (g : Frame) :
    [kFrameMagic] ++ (encodeFrame g).active.drop 1 = (encodeFrame g).active := by
  rw [encodeFrame_active]
  rfl

/-- The other bytes, fed to a lone magic byte. -/
theorem outputs_magic_encodeFrame (g : Frame) :
    candidateParser.outputs magic ((encodeFrame g).active.drop 1) =
      List.replicate ((encodeFrame g).active.length - 2) .needMore ++
        [{ status := .frameReady, frame := g.normalise }] := by
  have hcons := encodeFrame_active_eq_cons g
  have hlength := length_encodeFrame_active g
  have hsizes := sizes
  have hrest : (encodeFrame g).active.drop 1 ≠ [] := by
    rw [ne_eq, List.drop_eq_nil_iff]
    omega
  have hshaped : FrameShaped (magic.bytes ++ (encodeFrame g).active.drop 1) := by
    rw [bytes_magic, hcons]
    exact encodeFrame_shaped g
  rw [(magic.run_shaped _ (List.cons_ne_nil _ _) hrest hshaped).2, bytes_magic, hcons,
    List.length_drop, Nat.sub_sub, verdict, if_pos (byteSum_encodeFrame g), frameOf_encodeFrame]

/-- Fed to the empty state, they begin with noise. -/
theorem outputs_empty_encodeFrame (g : Frame) :
    candidateParser.outputs empty ((encodeFrame g).active.drop 1) ≠
      List.replicate ((encodeFrame g).active.length - 2) .needMore ++
        [{ status := .frameReady, frame := g.normalise }] := by
  have hlength := length_encodeFrame_active g
  have hsizes := sizes
  obtain ⟨rest, hrest⟩ : ∃ rest, (encodeFrame g).active.drop 1 = kProtocolVersion :: rest := by
    rw [encodeFrame_active]
    exact ⟨_, rfl⟩
  obtain ⟨k, hk⟩ : ∃ k, (encodeFrame g).active.length - 2 = k + 1 :=
    ⟨(encodeFrame g).active.length - 3, by omega⟩
  have hnoise : candidateParser.step empty kProtocolVersion =
      (empty, { status := .discarded, error := .badMagic }) :=
    step_empty_of_ne (show kProtocolVersion ≠ kFrameMagic by decide)
  rw [hrest, hk, Mealy.outputs_cons, hnoise]
  intro heq
  cases (List.cons.inj heq).1

end Candidate

/-- The candidate is complete with one more byte. -/
theorem StreamDecoder.Represents.complete_iff {d : StreamDecoder} {c : Candidate}
    (h : d.Represents c) (byte : UInt8) :
    (c.bytes ++ [byte]).length = kFrameOverhead + ((c.bytes ++ [byte]).getD 6 0).toNat ↔
      d.size + 1 = d.expectedLength := by
  have hsizes := sizes
  rw [List.length_append, List.length_singleton, h.size, h.expected]
  split_ifs with hheader
  · rw [List.getD_append _ _ _ _ (by omega)]
  · exact iff_of_false (by omega) not_false

/-- **When a rejected magic byte starts the next frame.**  If a magic byte ends a
candidate with an error, then the other bytes of an encoding deliver its frame
exactly if the magic byte was not the last byte of the candidate's declared
length, that is, if it was not the checksum that failed. -/
theorem magic_restart_iff {d : StreamDecoder} (hreach : decoderCalls.Reachable d)
    (g : Frame) (hreject : (d.feed kFrameMagic).2.status = .frameError) :
    streamDecoder.outputs (d.feed kFrameMagic).1 ((encodeFrame g).active.drop 1) =
        List.replicate ((encodeFrame g).active.length - 2) .needMore ++
          [{ status := .frameReady, frame := g.normalise }] ↔
      d.size + 1 ≠ d.expectedLength := by
  obtain ⟨c, hrep⟩ := StreamDecoder.exists_represents hreach
  obtain ⟨hnext, hanswer⟩ := StreamDecoder.feed_represents hrep kFrameMagic
  have hstep := Candidate.step_magic_of_frameError (c := c) (by rw [← hanswer]; exact hreject)
  rw [(StreamDecoder.outputs_eq hnext _).1, hstep, ne_eq, ← hrep.complete_iff kFrameMagic]
  split_ifs with hcomplete
  · exact iff_of_false (Candidate.outputs_empty_encodeFrame g) (not_not.mpr hcomplete)
  · exact iff_of_true (Candidate.outputs_magic_encodeFrame g) hcomplete

/-- The version check fails on a second magic byte. -/
theorem magic_restart_iff_example :
    streamDecoder.outputs
        ((decoderCalls.run decoderCalls.start [.feed kFrameMagic]).feed kFrameMagic).1
        ((encodeFrame {}).active.drop 1) =
      List.replicate ((encodeFrame {}).active.length - 2) .needMore ++
        [{ status := .frameReady, frame := Frame.normalise {} }] :=
  (magic_restart_iff ⟨[.feed kFrameMagic], rfl⟩ {} (by decide)).mpr (by decide)

/-- **A lost payload byte costs the next frame.**  A frame of one payload byte arrives
without it; the magic byte of the intact frame after it completes the candidate,
fails its checksum and is gone. -/
theorem lost_byte_loses_next_frame :
    ¬∀ d : StreamDecoder, decoderCalls.Reachable d → ∀ g : Frame,
      (d.feed kFrameMagic).2.status = .frameError →
      streamDecoder.outputs (d.feed kFrameMagic).1 ((encodeFrame g).active.drop 1) =
        List.replicate ((encodeFrame g).active.length - 2) .needMore ++
          [{ status := .frameReady, frame := g.normalise }] := by
  intro halways
  -- the encoding of a frame with payload 5, without that byte
  have hshortened := halways _ ⟨[.feed 0xB7, .feed 0x01, .feed 0x01, .feed 0, .feed 0, .feed 0,
    .feed 1, .feed 0x41], rfl⟩ {} (by decide)
  revert hshortened
  decide

end PicoMesh
