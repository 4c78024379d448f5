import PicoMesh.Equiv.StreamDecoder

/-!
# Delivery over a noisy stream

A stream is cut into segments: encoded frames, corrupted frames, oversized
headers and noise.  `Report` is what a receiver listens for, and
`Segment.reports` is the report a segment owes at each of its bytes: its own at
the last byte, none elsewhere.  `stream_delivery` says that a fresh decoder
gives exactly these.

The decoder may enter a segment holding the magic byte that ended the noise
before it.  `noiseState` is the candidate a run of noise leaves behind, and the
induction over the segments carries the noise read since the last segment that
was not noise.
-/

namespace PicoMesh

/-! ### Streams -/

/-- What a receiver learns from a result. -/
inductive Report where
  | frame (f : Frame)
  | badChecksum
  | payloadTooLarge
  deriving DecidableEq, Repr

/-- The report a result carries, if any. -/
def StreamResult.report? (r : StreamResult) : Option Report :=
  match r.status, r.error with
  | .frameReady, _ => some (.frame r.frame)
  | .frameError, .badChecksum => some .badChecksum
  | .frameError, .payloadTooLarge => some .payloadTooLarge
  | _, _ => none

/-- One segment of a stream. -/
inductive Segment where
  /-- The encoding of a frame. -/
  | frame (f : Frame)
  /-- A byte string of the length of an encoding, with its magic, version and
  length bytes and a byte sum that is not zero modulo 256. -/
  | corrupted (f : Frame) (data : List UInt8) (length : data.length = (encodeFrame f).length)
      (header : ∀ i ∈ [0, 1, 6], data.getD i 0 = (encodeFrame f).active.getD i 0)
      (sum : (data.map UInt8.toNat).sum % 256 ≠ 0)
  /-- A header that declares more than the maximum payload. -/
  | oversized (type flags nodeId sequence length : UInt8)
      (large : length.toNat > kMaxPayloadSize) (not_magic : length ≠ kFrameMagic)
  /-- Any bytes. -/
  | noise (data : List UInt8)

namespace Segment

/-- The bytes of a segment. -/
def bytes : Segment → List UInt8
  | .frame f => (encodeFrame f).active
  | .corrupted _ data _ _ _ => data
  | .oversized type flags nodeId sequence length _ _ =>
    [kFrameMagic, kProtocolVersion, type, flags, nodeId, sequence, length]
  | .noise data => data

/-- The report a segment owes at each of its bytes. -/
def reports : Segment → List (Option Report)
  | .frame f => List.replicate ((encodeFrame f).length - 1) none ++ [some (.frame f.normalise)]
  | .corrupted _ data _ _ _ => List.replicate (data.length - 1) none ++ [some .badChecksum]
  | .oversized .. => List.replicate 6 none ++ [some .payloadTooLarge]
  | .noise data => List.replicate data.length none

end Segment

/-- The maximal runs of consecutive noise, the first one continuing `acc`. -/
def noiseRunsFrom (acc : List UInt8) : List Segment → List (List UInt8)
  | [] => [acc]
  | .noise data :: segments => noiseRunsFrom (acc ++ data) segments
  | _ :: segments => acc :: noiseRunsFrom [] segments

/-- The maximal runs of consecutive noise in a stream. -/
def noiseRuns (segments : List Segment) : List (List UInt8) := noiseRunsFrom [] segments

/-- The noise could start a frame: it holds the magic byte right before the
version byte. -/
def MimicsFrame (data : List UInt8) : Prop := [kFrameMagic, kProtocolVersion] <:+: data

instance (data : List UInt8) : Decidable (MimicsFrame data) :=
  inferInstanceAs (Decidable (_ <:+: _))

/-! ### Noise -/

/-- The candidate a run of noise leaves behind. -/
def noiseState (noise : List UInt8) : Candidate :=
  if noise.getLast? = some kFrameMagic then .magic else .empty

theorem noiseState_concat (noise : List UInt8) (byte : UInt8) :
    noiseState (noise ++ [byte]) = .restart byte := by
  simp [noiseState, Candidate.restart]

/-- A noise byte reports nothing and leaves what the longer run leaves. -/
theorem step_noiseState (noise : List UInt8) (byte : UInt8)
    (h : ¬ MimicsFrame (noise ++ [byte])) :
    ((noiseState noise).step byte).1 = noiseState (noise ++ [byte]) ∧
    ((noiseState noise).step byte).2.report? = none := by
  rw [noiseState_concat]
  -- only a magic byte at the end of the noise makes a difference
  by_cases hlast : noise.getLast? = some kFrameMagic
  · -- the byte after a magic byte is not the version byte
    have hbyte : byte ≠ kProtocolVersion := by
      rintro rfl
      obtain ⟨front, rfl⟩ := List.getLast?_eq_some_iff.mp hlast
      exact h ⟨front, [], by simp⟩
    rw [noiseState, if_pos hlast, Candidate.step_magic_of_ne hbyte]
    exact ⟨rfl, rfl⟩
  · rw [noiseState, if_neg hlast]
    refine ⟨Candidate.step_empty_fst byte, ?_⟩
    by_cases hmagic : byte = kFrameMagic
    · rw [hmagic]; rfl
    · rw [Candidate.step_empty_of_ne hmagic]; rfl

/-- A run of noise reports nothing. -/
theorem run_noiseState (noise data : List UInt8) (h : ¬ MimicsFrame (noise ++ data)) :
    candidateParser.run (noiseState noise) data = noiseState (noise ++ data) ∧
    (candidateParser.outputs (noiseState noise) data).map StreamResult.report? =
      List.replicate data.length none := by
  induction data generalizing noise with
  | nil => simp
  | cons byte data ih =>
    have happ : noise ++ byte :: data = noise ++ [byte] ++ data := by simp
    rw [happ] at h
    have hbyte : ¬ MimicsFrame (noise ++ [byte]) :=
      fun h' => h (h'.trans (List.infix_append' [] _ _))
    obtain ⟨hnext, hreport⟩ := step_noiseState noise byte hbyte
    obtain ⟨hrun, hout⟩ := ih (noise ++ [byte]) h
    have hstep : candidateParser.step (noiseState noise) byte = (noiseState noise).step byte := rfl
    rw [Mealy.run_cons, Mealy.outputs_cons, hstep, hnext, hrun, List.map_cons, hreport, hout, happ]
    exact ⟨rfl, by rw [List.length_cons, List.replicate_succ]⟩

/-! ### Segments that start with the magic byte -/

/-- Whatever noise left behind, a magic byte reports nothing and starts a
candidate. -/
theorem noiseState_magic (noise data : List UInt8) :
    candidateParser.run (noiseState noise) (kFrameMagic :: data) =
      candidateParser.run .magic data ∧
    (candidateParser.outputs (noiseState noise) (kFrameMagic :: data)).map StreamResult.report? =
      none :: (candidateParser.outputs .magic data).map StreamResult.report? := by
  have hstep : (candidateParser.step (noiseState noise) kFrameMagic).1 = .magic ∧
      (candidateParser.step (noiseState noise) kFrameMagic).2.report? = none := by
    unfold noiseState
    split_ifs <;> exact ⟨rfl, rfl⟩
  rw [Mealy.run_cons, Mealy.outputs_cons, List.map_cons, hstep.1, hstep.2]
  exact ⟨rfl, rfl⟩

/-- A frame-shaped segment reports its verdict at its last byte. -/
theorem run_shaped_noiseState (noise data : List UInt8) (h : FrameShaped data) :
    candidateParser.run (noiseState noise) data = .empty ∧
    (candidateParser.outputs (noiseState noise) data).map StreamResult.report? =
      List.replicate (data.length - 1) none ++ [(Candidate.verdict data).report?] := by
  have hlen := h.length
  match data with
  | [] | [_] => simp at hlen
  | first :: next :: rest =>
    obtain rfl : first = kFrameMagic := by simpa using h.magic
    obtain ⟨hrun, hout⟩ := noiseState_magic noise (next :: rest)
    obtain ⟨hrun', hout'⟩ := Candidate.magic.run_shaped (next :: rest) (by simp) (by simp) h
    have hquiet : StreamResult.needMore.report? = none := rfl
    rw [hrun, hout, hrun', hout', List.map_append, List.map_replicate, hquiet]
    exact ⟨rfl, by simp [List.replicate_succ]⟩

/-- An oversized header reports its length field. -/
theorem run_oversized_noiseState (noise : List UInt8) (type flags nodeId sequence length : UInt8)
    (large : length.toNat > kMaxPayloadSize) (not_magic : length ≠ kFrameMagic) :
    let data := [kFrameMagic, kProtocolVersion, type, flags, nodeId, sequence, length]
    candidateParser.run (noiseState noise) data = .empty ∧
    (candidateParser.outputs (noiseState noise) data).map StreamResult.report? =
      List.replicate 6 none ++ [some .payloadTooLarge] := by
  intro data
  obtain ⟨hrun, hout⟩ :=
    noiseState_magic noise [kProtocolVersion, type, flags, nodeId, sequence, length]
  have hviable :
      Viable (Candidate.magic.bytes ++ [kProtocolVersion, type, flags, nodeId, sequence]) := by
    -- six header bytes, whatever the four in the middle are
    have hlen : (Candidate.magic.bytes ++
      [kProtocolVersion, type, flags, nodeId, sequence]).length = 6 := rfl
    have hsizes := sizes
    exact ⟨fun _ => rfl, fun _ => rfl, fun h => by omega, fun h => by omega⟩
  obtain ⟨hrun', hout'⟩ :=
    Candidate.magic.run_viable [kProtocolVersion, type, flags, nodeId, sequence] (by simp) hviable
  have hcut : [kProtocolVersion, type, flags, nodeId, sequence, length] =
      [kProtocolVersion, type, flags, nodeId, sequence] ++ [length] := rfl
  have hstep : candidateParser.step ⟨_, hviable⟩ length =
      (.restart length, { status := .frameError, error := .payloadTooLarge }) :=
    Candidate.step_oversized ⟨_, hviable⟩ rfl large
  rw [hrun, hout, hcut, Mealy.run_concat, Mealy.outputs_concat, hrun', hout', hstep,
    Candidate.restart_of_ne not_magic]
  exact ⟨rfl, rfl⟩

/-- A corrupted frame passes every check but the last. -/
theorem shaped_of_header {f : Frame} {data : List UInt8}
    (length : data.length = (encodeFrame f).length)
    (header : ∀ i ∈ [0, 1, 6], data.getD i 0 = (encodeFrame f).active.getD i 0) :
    FrameShaped data := by
  have hshape := encodeFrame_shaped f
  refine ⟨?_, ?_, ?_, ?_⟩
  · rw [header 0 (by simp), hshape.magic]
  · rw [header 1 (by simp), hshape.version]
  · rw [header 6 (by simp)]; exact hshape.bound
  · rw [length, encodeFrame_length, header 6 (by simp)]; exact hshape.length

/-- Every segment but noise does its own reports and leaves no candidate. -/
theorem run_segment (noise : List UInt8) (s : Segment) (h : ∀ data, s ≠ .noise data) :
    candidateParser.run (noiseState noise) s.bytes = .empty ∧
    (candidateParser.outputs (noiseState noise) s.bytes).map StreamResult.report? = s.reports := by
  cases s with
  | frame f =>
    obtain ⟨hrun, hout⟩ := run_shaped_noiseState noise _ (encodeFrame_shaped f)
    rw [Candidate.verdict, if_pos (byteSum_encodeFrame f), frameOf_encodeFrame,
      ← encodeFrame_length] at hout
    exact ⟨hrun, hout⟩
  | corrupted f data length header sum =>
    obtain ⟨hrun, hout⟩ := run_shaped_noiseState noise data (shaped_of_header length header)
    rw [Candidate.verdict, if_neg (by rw [← UInt8.toNat_inj, toNat_byteSum]; exact sum)] at hout
    exact ⟨hrun, hout⟩
  | oversized type flags nodeId sequence length large not_magic =>
    exact run_oversized_noiseState noise type flags nodeId sequence length large not_magic
  | noise data => exact absurd rfl (h data)

/-! ### Whole streams -/

/-- Some maximal run continues the noise read so far. -/
theorem exists_prefix_mem_noiseRunsFrom (acc : List UInt8) (segments : List Segment) :
    ∃ run ∈ noiseRunsFrom acc segments, acc <+: run := by
  induction segments generalizing acc with
  | nil => exact ⟨acc, by simp [noiseRunsFrom], List.prefix_refl acc⟩
  | cons s segments ih =>
    cases s with
    | noise data =>
      obtain ⟨run, hmem, hprefix⟩ := ih (acc ++ data)
      exact ⟨run, hmem, (List.prefix_append acc data).trans hprefix⟩
    | frame | corrupted | oversized =>
      exact ⟨acc, by simp [noiseRunsFrom], List.prefix_refl acc⟩

/-- The induction over the segments, with the noise read since the last segment
that was not noise. -/
theorem reports_from (noise : List UInt8) (segments : List Segment)
    (h : ∀ run ∈ noiseRunsFrom noise segments, ¬ MimicsFrame run) :
    (candidateParser.outputs (noiseState noise) (segments.flatMap Segment.bytes)).map
      StreamResult.report? = segments.flatMap Segment.reports := by
  induction segments generalizing noise with
  | nil => rfl
  | cons s segments ih =>
    rw [List.flatMap_cons, List.flatMap_cons, Mealy.outputs_append, List.map_append]
    -- noise extends the current run, any other segment ends it
    by_cases hs : ∃ data, s = .noise data
    · obtain ⟨data, rfl⟩ := hs
      have hdata : ¬ MimicsFrame (noise ++ data) := by
        obtain ⟨run, hmem, hprefix⟩ := exists_prefix_mem_noiseRunsFrom (noise ++ data) segments
        exact fun h' => h run hmem (h'.trans hprefix.isInfix)
      obtain ⟨hrun, hout⟩ := run_noiseState noise data hdata
      rw [Segment.bytes, hrun, hout, ih _ h]
      rfl
    · rw [not_exists] at hs
      obtain ⟨hrun, hout⟩ := run_segment noise s hs
      have hrest : ∀ run ∈ noiseRunsFrom [] segments, ¬ MimicsFrame run := by
        intro run hmem
        refine h run ?_
        cases s with
        | noise data => exact absurd rfl (hs data)
        | frame | corrupted | oversized => exact List.mem_cons_of_mem _ hmem
      rw [hrun, hout]
      exact congrArg _ (ih [] hrest)

/-- **Stream delivery with noise and corruption.**  Over every stream whose runs
of noise do not mimic the start of a frame, a fresh decoder gives each segment's
reports at its own bytes, in stream order, and no others. -/
theorem stream_delivery (segments : List Segment)
    (h : ∀ run ∈ noiseRuns segments, ¬ MimicsFrame run) :
    (streamDecoder.outputs streamDecoder.start (segments.flatMap Segment.bytes)).map
      StreamResult.report? = segments.flatMap Segment.reports := by
  rw [StreamDecoder.outputs_start]
  exact reports_from [] segments h

/-- A stream with every kind of segment, the noise ending in a magic byte. -/
theorem stream_delivery_example :
    (streamDecoder.outputs streamDecoder.start
      ([.noise [0x00, 0xB7, 0xB7], .frame { sequence := 5 },
        .corrupted {} [0xB7, 1, 2, 3, 4, 5, 0, 9] rfl (by decide) (by decide),
        .oversized 2 0 5 24 33 (by decide) (by decide),
        .frame { sequence := 6 }].flatMap Segment.bytes)).map StreamResult.report? =
      [.noise [0x00, 0xB7, 0xB7], .frame { sequence := 5 },
        .corrupted {} [0xB7, 1, 2, 3, 4, 5, 0, 9] rfl (by decide) (by decide),
        .oversized 2 0 5 24 33 (by decide) (by decide),
        .frame { sequence := 6 }].flatMap Segment.reports :=
  stream_delivery _ (by decide)

end PicoMesh
