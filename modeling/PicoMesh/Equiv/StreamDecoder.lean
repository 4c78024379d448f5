import PicoMesh.CandidateParser

/-!
# The stream decoder refines the candidate parser

`Represents d c` relates a decoder state to a candidate: the live part of the
buffer holds its bytes, and `expected_length_` is known exactly from the
seventh byte on.  `feed_represents` carries it over one byte, so by the
simulation rule a decoder and the parser answer every byte string alike
(`outputs_eq`), and whatever is proved of the parser holds of the decoder.
-/

namespace PicoMesh

namespace StreamDecoder

/-- The decoder state `d` holds the candidate `c`. -/
structure Represents (d : StreamDecoder) (c : Candidate) : Prop where
  bytes : d.candidate = c.bytes
  size : d.size = c.bytes.length
  expected : d.expectedLength =
    if kFrameHeaderSize ≤ c.bytes.length then kFrameOverhead + (c.bytes.getD 6 0).toNat else 0

/-! ### The primitive operations -/

theorem represents_start : Represents {} .empty where
  bytes := rfl
  size := rfl
  expected := rfl

theorem Represents.reset {d : StreamDecoder} {c : Candidate} (_ : d.Represents c) :
    d.reset.Represents .empty where
  bytes := rfl
  size := rfl
  expected := rfl

theorem getD_buffer {d : StreamDecoder} {c : List UInt8} (h : d.candidate = c)
    {i : ℕ} (hi : i < c.length) : d.buffer.getD i 0 = c.getD i 0 := by
  subst h
  have hbuffer : i < kMaxEncodedFrameSize := by
    have hlength := hi
    rw [candidate, List.length_take, Vector.length_toList] at hlength
    omega
  rw [List.getD_eq_getElem _ _ hi]
  simp [candidate, Vector.getD, hbuffer]

/-- Pushing a byte appends it to the candidate. -/
theorem candidate_push (d : StreamDecoder) (byte : UInt8) (h : d.size < kMaxEncodedFrameSize) :
    (d.push byte).candidate = d.candidate ++ [byte] := by
  rw [candidate, candidate, push, Vector.toList_setIfInBounds]
  exact take_succ_set _ _ _ (by simpa using h)

/-- Abandoning a candidate keeps at most the magic byte that broke it. -/
theorem fail_represents (d : StreamDecoder) (error : DecodeError) (byte : UInt8) :
    (d.fail error byte).1.Represents (.restart byte) ∧
    (d.fail error byte).2 = { status := .frameError, error } := by
  refine ⟨?_, rfl⟩
  unfold fail Candidate.restart
  simp only
  by_cases h : byte = kFrameMagic
  · rw [if_pos h, if_pos h]
    refine ⟨?_, rfl, rfl⟩
    rw [candidate, Vector.toList_setIfInBounds, h]
    exact take_succ_set _ 0 _ (by simp)
  · rw [if_neg h, if_neg h]
    exact ⟨rfl, rfl, rfl⟩

@[simp] theorem learnLength_size (d : StreamDecoder) : d.learnLength.size = d.size := by
  unfold learnLength; split_ifs <;> rfl

@[simp] theorem learnLength_buffer (d : StreamDecoder) : d.learnLength.buffer = d.buffer := by
  unfold learnLength; split_ifs <;> rfl

/-- Once a byte is pushed and the header seen, `expected_length_` is the length
the candidate declares. -/
theorem expectedLength_push {d : StreamDecoder} {c : Candidate} (h : d.Represents c)
    (byte : UInt8) :
    (d.push byte).learnLength.expectedLength =
      if kFrameHeaderSize ≤ (c.bytes ++ [byte]).length then
        kFrameOverhead + ((c.bytes ++ [byte]).getD 6 0).toNat
      else 0 := by
  have hsizes := sizes
  have hroom := c.viable.length_lt
  have hpush : (d.push byte).candidate = c.bytes ++ [byte] := by
    rw [candidate_push d byte (by rw [h.size]; omega), h.bytes]
  have hplen : (c.bytes ++ [byte]).length = c.bytes.length + 1 := by simp
  have hpsize : (d.push byte).size = c.bytes.length + 1 := by rw [push, h.size]
  unfold learnLength
  rw [hpsize, hplen]
  by_cases h7 : c.bytes.length + 1 = kFrameHeaderSize
  · rw [if_pos h7, if_pos (by omega)]
    rw [getD_buffer hpush (by omega)]
  · have hexp : (d.push byte).expectedLength = d.expectedLength := rfl
    rw [if_neg h7, hexp, h.expected]
    by_cases hlong : kFrameHeaderSize ≤ c.bytes.length
    · rw [if_pos hlong, if_pos (by omega), List.getD_append _ _ _ _ (by omega)]
    · rw [if_neg hlong, if_neg (by omega)]

/-! ### One byte -/

/-- Without a candidate only a magic byte starts one. -/
theorem feed_represents_empty {d : StreamDecoder} (h : d.Represents .empty) (byte : UInt8) :
    (d.feed byte).1.Represents (Candidate.empty.step byte).1 ∧
      (d.feed byte).2 = (Candidate.empty.step byte).2 := by
  obtain ⟨hbytes, hsize, hexp⟩ := h
  have hsize0 : d.size = 0 := hsize
  unfold feed
  rw [if_pos hsize0]
  by_cases hmagic : byte = kFrameMagic
  · rw [if_neg (not_not.mpr hmagic), hmagic, Candidate.step_empty_magic]
    refine ⟨⟨?_, ?_, ?_⟩, rfl⟩
    · rw [candidate_push _ _ (by rw [hsize0]; decide), hbytes]
      rfl
    · show d.size + 1 = 1
      rw [hsize0]
    · exact hexp
  · rw [if_pos hmagic, Candidate.step_empty_of_ne hmagic]
    exact ⟨⟨hbytes, hsize, hexp⟩, rfl⟩

/-- **The step of the simulation.** -/
theorem feed_represents {d : StreamDecoder} {c : Candidate} (h : d.Represents c) (byte : UInt8) :
    (d.feed byte).1.Represents (c.step byte).1 ∧ (d.feed byte).2 = (c.step byte).2 := by
  have hsizes := sizes
  have hroom := c.viable.length_lt
  have hlearn := expectedLength_push h byte
  by_cases hnil : c.bytes = []
  · rw [Candidate.eq_empty_of_bytes hnil] at h ⊢
    exact feed_represents_empty h byte
  obtain ⟨hbytes, hsize, hexp⟩ := h
  unfold feed
  have hpos := List.length_pos_iff.mpr hnil
  have hpush := candidate_push d byte (by omega)
  rw [hbytes] at hpush
  have hpsize : (d.push byte).size = c.bytes.length + 1 := by rw [push, hsize]
  have hplen : (c.bytes ++ [byte]).length = c.bytes.length + 1 := by simp
  have hlast : (c.bytes ++ [byte]).getD c.bytes.length 0 = byte := by simp
  have hget : ∀ i, i = c.bytes.length → (d.push byte).buffer.getD i 0 = byte := by
    intro i hi
    rw [getD_buffer hpush (by omega), hi, hlast]
  rw [if_neg (by omega), if_neg (by omega)]
  unfold Candidate.step
  simp only [dif_neg hnil, hpsize, learnLength_size, learnLength_buffer, hlearn]
  by_cases hversion : c.bytes.length = 1 ∧ byte ≠ kProtocolVersion
  · rw [dif_pos hversion, if_pos ⟨by omega, by rw [hget 1 (by omega)]; exact hversion.2⟩]
    exact fail_represents _ _ _
  rw [dif_neg hversion, if_neg (by
    rintro ⟨h2, hne⟩
    exact hversion ⟨by omega, by rwa [hget 1 (by omega)] at hne⟩)]
  by_cases hbound : c.bytes.length = 6 ∧ byte.toNat > kMaxPayloadSize
  · rw [dif_pos hbound, if_pos ⟨by omega, by rw [hget 6 (by omega)]; exact hbound.2⟩]
    exact fail_represents _ _ _
  rw [dif_neg hbound, if_neg (by
    rintro ⟨h7, hgt⟩
    exact hbound ⟨by omega, by rwa [hget 6 (by omega)] at hgt⟩)]
  have hcand : (d.push byte).buffer.toList.take (c.bytes.length + 1) = c.bytes ++ [byte] := by
    rw [← hpsize]; exact hpush
  by_cases hlength : (c.bytes ++ [byte]).length =
      kFrameOverhead + ((c.bytes ++ [byte]).getD 6 0).toNat
  · -- the declared length is reached: the strict decoder judges
    have h7 : kFrameHeaderSize ≤ (c.bytes ++ [byte]).length := by omega
    have hshape : FrameShaped (c.bytes ++ [byte]) :=
      c.shaped_of_length byte hlength
    rw [dif_pos hlength, if_pos h7, if_pos ⟨by omega, by omega⟩, hcand,
      decodeFrame_of_shaped hshape]
    unfold Candidate.verdict
    by_cases hsum : byteSum (c.bytes ++ [byte]) = 0
    · rw [if_pos hsum, if_pos hsum]
      exact ⟨⟨rfl, rfl, rfl⟩, rfl⟩
    · rw [if_neg hsum, if_neg hsum]
      exact ⟨⟨rfl, rfl, rfl⟩, rfl⟩
  · rw [dif_neg hlength, if_neg (by split_ifs <;> omega)]
    refine ⟨⟨?_, ?_, hlearn⟩, rfl⟩
    · rw [candidate, learnLength_size, learnLength_buffer, hpsize, hcand]
    · rw [learnLength_size, hpsize, hplen]

/-! ### Runs -/

/-- The decoder and the parser, as a simulation for the library. -/
theorem simulation :
    Mealy.Simulation streamDecoder candidateParser id (fun _ _ => True) Represents where
  answer _ _ byte h _ := (feed_represents h byte).2.symm
  next _ _ byte h _ := (feed_represents h byte).1

/-- **The stream decoder refines the candidate parser**: fed the same bytes from
related states they give the same results and end in related states. -/
theorem outputs_eq {d : StreamDecoder} {c : Candidate} (h : d.Represents c)
    (data : List UInt8) :
    streamDecoder.outputs d data = candidateParser.outputs c data ∧
    (streamDecoder.run d data).Represents (candidateParser.run c data) := by
  have hall : streamDecoder.Along (fun _ _ => True) d data :=
    Mealy.along_of_forall _ fun _ _ => trivial
  have hout := simulation.outputs h hall
  have hrun := simulation.run h hall
  rw [List.map_id] at hout hrun
  exact ⟨hout.symm, hrun⟩

/-- A fresh decoder gives the parser's results. -/
theorem outputs_start (data : List UInt8) :
    streamDecoder.outputs streamDecoder.start data =
      candidateParser.outputs candidateParser.start data :=
  (outputs_eq represents_start data).1

theorem run_start (data : List UInt8) :
    (streamDecoder.run streamDecoder.start data).Represents
      (candidateParser.run candidateParser.start data) :=
  (outputs_eq represents_start data).2

/-- Every state that calls lead to holds some candidate. -/
theorem exists_represents {d : StreamDecoder} (h : decoderCalls.Reachable d) :
    ∃ c, d.Represents c := by
  refine h.invariant (I := fun d => ∃ c, d.Represents c) ⟨_, represents_start⟩ ?_
  rintro d op ⟨c, hc⟩
  cases op with
  | feed byte => exact ⟨_, (feed_represents hc byte).1⟩
  | reset => exact ⟨_, hc.reset⟩

end StreamDecoder

end PicoMesh
