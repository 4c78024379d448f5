import PicoMesh.Equiv.StreamDecoder

/-!
# Bounded resynchronisation

Whatever a decoder was fed before, it delivers a clean stream of frames (their
encodings hold the magic byte at index 0 only) from 38 bytes on.  The decoder
enters the stream holding some candidate.  `exists_capture` follows that
candidate until it is gone: it has swallowed at most 38 bytes, the worst case
being a two-byte candidate whose length field is taken from the stream.  From
then on the parser is either in the empty state, and skips to the next frame
since no magic byte comes before it (`exists_tail`), or in the state a fresh
parser would be in.
-/

namespace PicoMesh

/-- The encoding holds the magic byte only where it starts. -/
def Frame.MagicOnlyFirst (f : Frame) : Prop := kFrameMagic ∉ (encodeFrame f).active.drop 1

instance (f : Frame) : Decidable f.MagicOnlyFirst := inferInstanceAs (Decidable (¬ _))

/-- The concatenated encodings of a list of frames. -/
def wireStream (frames : List Frame) : List UInt8 :=
  frames.flatMap fun f => (encodeFrame f).active

/-- The offset at which the encoding of the `i`-th frame begins. -/
def beginsAt (frames : List Frame) (i : ℕ) : ℕ := (wireStream (frames.take i)).length

/-! ### A stream read from the empty state -/

/-- The results a frame owes: the frame at its last byte. -/
def frameResults (f : Frame) : List StreamResult :=
  List.replicate ((encodeFrame f).active.length - 1) .needMore ++
    [{ status := .frameReady, frame := f.normalise }]

theorem encodeFrame_length_pos (f : Frame) : 8 ≤ (encodeFrame f).active.length := by
  rw [length_encodeFrame_active]
  have := sizes
  omega

@[simp] theorem length_frameResults (f : Frame) :
    (frameResults f).length = (encodeFrame f).active.length := by
  have := encodeFrame_length_pos f
  simp [frameResults]
  omega

@[simp] theorem wireStream_nil : wireStream [] = [] := rfl

@[simp] theorem wireStream_cons (f : Frame) (frames : List Frame) :
    wireStream (f :: frames) = (encodeFrame f).active ++ wireStream frames := rfl

/-- From the empty state every frame of a stream is delivered. -/
theorem outputs_wireStream (frames : List Frame) :
    candidateParser.run .empty (wireStream frames) = .empty ∧
    candidateParser.outputs .empty (wireStream frames) = frames.flatMap frameResults := by
  induction frames with
  | nil => exact ⟨rfl, rfl⟩
  | cons f frames ih =>
    obtain ⟨hrun, hout⟩ := Candidate.run_shaped_empty _ (encodeFrame_shaped f)
    rw [Candidate.verdict, if_pos (byteSum_encodeFrame f), frameOf_encodeFrame] at hout
    rw [wireStream_cons, Mealy.run_append, Mealy.outputs_append, hrun, hout, ih.1, ih.2]
    exact ⟨rfl, rfl⟩

@[simp] theorem beginsAt_zero (frames : List Frame) : beginsAt frames 0 = 0 := rfl

@[simp] theorem beginsAt_cons_succ (f : Frame) (frames : List Frame) (i : ℕ) :
    beginsAt (f :: frames) (i + 1) = (encodeFrame f).active.length + beginsAt frames i := by
  simp [beginsAt]

theorem beginsAt_mono (frames : List Frame) {i j : ℕ} (h : i ≤ j) :
    beginsAt frames i ≤ beginsAt frames j := by
  obtain ⟨rest, hrest⟩ := List.take_prefix_take_left (l := frames) h
  rw [beginsAt, beginsAt, wireStream, wireStream, ← hrest, List.flatMap_append, List.length_append]
  omega

theorem beginsAt_succ (frames : List Frame) (i : ℕ) (hi : i < frames.length) :
    beginsAt frames (i + 1) = beginsAt frames i + (encodeFrame frames[i]).active.length := by
  rw [beginsAt, beginsAt, List.take_succ_eq_append_getElem hi, wireStream, wireStream,
    List.flatMap_append, List.length_append]
  simp

theorem beginsAt_le (frames : List Frame) (i : ℕ) :
    beginsAt frames i ≤ (wireStream frames).length := by
  conv_rhs => rw [← List.take_append_drop i frames]
  rw [wireStream, List.flatMap_append, List.length_append]
  exact Nat.le_add_right _ _

theorem length_flatMap_frameResults (frames : List Frame) :
    (frames.flatMap frameResults).length = (wireStream frames).length := by
  induction frames with
  | nil => rfl
  | cons f frames ih =>
    rw [List.flatMap_cons, List.length_append, length_frameResults, ih, wireStream_cons,
      List.length_append]

/-- The results of the frames from the `k`-th on, within those of all frames. -/
theorem getD_frameResults_drop (frames : List Frame) (k x : ℕ) :
    (frames.flatMap frameResults).getD (beginsAt frames k + x) .needMore =
      ((frames.drop k).flatMap frameResults).getD x .needMore := by
  have hlen := length_flatMap_frameResults (frames.take k)
  conv_lhs => rw [← List.take_append_drop k frames, List.flatMap_append]
  rw [List.getD_append_right _ _ _ _
      (by rw [hlen, List.take_append_drop]; exact Nat.le_add_right ..),
    hlen, List.take_append_drop]
  congr 1
  exact Nat.add_sub_cancel_left ..

/-- A frame is reported at its own last byte. -/
theorem getD_frameResults_last (frames : List Frame) (i : ℕ) (hi : i < frames.length) :
    (frames.flatMap frameResults).getD (beginsAt frames (i + 1) - 1) .needMore =
      { status := .frameReady, frame := frames[i].normalise } := by
  induction frames generalizing i with
  | nil => simp at hi
  | cons f frames ih =>
    have hpos := encodeFrame_length_pos f
    have hlen := length_frameResults f
    rw [List.flatMap_cons, beginsAt_cons_succ]
    cases i with
    | zero =>
      rw [beginsAt_zero, Nat.add_zero, List.getD_append _ _ _ _ (by omega), frameResults,
        List.getD_append_right _ _ _ _ (by simp)]
      simp
    | succ i =>
      have hi' : i < frames.length := by simpa using hi
      have hbegin : 0 < beginsAt frames (i + 1) := by
        obtain ⟨g, rest, rfl⟩ := List.exists_cons_of_ne_nil
          (List.ne_nil_of_length_pos (by omega : 0 < frames.length))
        rw [beginsAt_cons_succ]
        have := encodeFrame_length_pos g
        omega
      rw [List.getD_append_right _ _ _ _ (by omega), hlen, List.getElem_cons_succ, ← ih i hi']
      congr 1
      omega

/-- What may be returned at byte `j` of the stream: no error, and a frame only at
the last byte of one of the listed frames. -/
def Clean (frames : List Frame) (j : ℕ) (r : StreamResult) : Prop :=
  r.status ≠ .frameError ∧
  (r.status = .frameReady → ∃ (i : ℕ) (hi : i < frames.length),
    j + 1 = beginsAt frames (i + 1) ∧ r.frame = frames[i].normalise)

theorem clean_needMore (frames : List Frame) (j : ℕ) : Clean frames j .needMore :=
  ⟨by decide, fun h => absurd h (by decide)⟩

theorem clean_frameResults (frames : List Frame) (j : ℕ) :
    Clean frames j ((frames.flatMap frameResults).getD j .needMore) := by
  induction frames generalizing j with
  | nil => exact clean_needMore [] j
  | cons f frames ih =>
    have hpos := encodeFrame_length_pos f
    have hlen := length_frameResults f
    rw [List.flatMap_cons]
    by_cases hj : j < (encodeFrame f).active.length
    · rw [List.getD_append _ _ _ _ (by omega), frameResults]
      by_cases hlast : j < (encodeFrame f).active.length - 1
      · rw [List.getD_append _ _ _ _ (by simpa using hlast), List.getD_replicate]
        · exact clean_needMore _ j
        · exact hlast
      · obtain rfl : j = (encodeFrame f).active.length - 1 := by omega
        rw [List.getD_append_right _ _ _ _ (by simp)]
        refine ⟨by simp, fun _ => ⟨0, by simp, ?_, by simp⟩⟩
        rw [beginsAt_cons_succ, beginsAt_zero]
        omega
    · rw [List.getD_append_right _ _ _ _ (by omega), hlen]
      obtain ⟨herr, hready⟩ := ih (j - (encodeFrame f).active.length)
      refine ⟨herr, fun h => ?_⟩
      obtain ⟨i, hi, hpos', hframe⟩ := hready h
      refine ⟨i + 1, by simpa using hi, ?_, hframe⟩
      rw [beginsAt_cons_succ]
      omega

/-! ### A stream entered in the middle of a frame -/

/-- From byte `e` on, a clean stream is the rest of a frame without a magic byte,
then the frames that begin at or after `e`. -/
theorem exists_tail (frames : List Frame) (hclean : ∀ f ∈ frames, f.MagicOnlyFirst) (e : ℕ)
    (he : e ≤ (wireStream frames).length) :
    ∃ (k : ℕ) (tail : List UInt8),
      (wireStream frames).drop e = tail ++ wireStream (frames.drop k) ∧
      e + tail.length = beginsAt frames k ∧ kFrameMagic ∉ tail ∧
      ∀ m, e ≤ beginsAt frames m → k ≤ m := by
  induction frames generalizing e with
  | nil => exact ⟨0, [], by simp, by simpa using he, by simp, fun m _ => Nat.zero_le m⟩
  | cons f frames ih =>
    have hf := hclean f (by simp)
    rcases Nat.eq_zero_or_pos e with rfl | hpos
    · exact ⟨0, [], by simp, by simp, by simp, fun m _ => Nat.zero_le m⟩
    rcases Nat.le_total e (encodeFrame f).active.length with hle | hge
    · -- byte `e` lies in the first frame, past its magic byte
      refine ⟨1, (encodeFrame f).active.drop e, ?_, ?_, ?_, ?_⟩
      · rw [wireStream_cons, List.drop_append_of_le_length hle]
        rfl
      · rw [beginsAt_cons_succ, beginsAt_zero, List.length_drop]
        omega
      · intro hmem
        have hsplit : (encodeFrame f).active.drop e =
            ((encodeFrame f).active.drop 1).drop (e - 1) := by
          rw [List.drop_drop]; congr 1; omega
        rw [hsplit] at hmem
        exact hf (List.mem_of_mem_drop hmem)
      · intro m hm
        cases m with
        | zero => rw [beginsAt_zero] at hm; omega
        | succ m => omega
    · -- byte `e` lies behind the first frame
      rw [wireStream_cons, List.length_append] at he
      obtain ⟨k, tail, hdrop, hlen, hmagic, hleast⟩ :=
        ih (fun g hg => hclean g (List.mem_cons_of_mem _ hg))
          (e - (encodeFrame f).active.length) (by omega)
      refine ⟨k + 1, tail, ?_, ?_, hmagic, ?_⟩
      · rw [wireStream_cons, List.drop_append, List.drop_eq_nil_of_le hge, List.nil_append, hdrop]
        rfl
      · rw [beginsAt_cons_succ]
        omega
      · intro m hm
        cases m with
        | zero => rw [beginsAt_zero] at hm; omega
        | succ m =>
          rw [beginsAt_cons_succ] at hm
          have := hleast m (by omega)
          omega

/-! ### How far a false candidate reaches -/

/-- The bytes right after the first magic byte of a clean stream are not magic. -/
theorem wireStream_getD_ne (frames : List Frame) (hclean : ∀ f ∈ frames, f.MagicOnlyFirst)
    (i : ℕ) (hi : 0 < i) (hi' : i < 8) : (wireStream frames).getD i 0 ≠ kFrameMagic := by
  cases frames with
  | nil => simp; decide
  | cons f frames =>
    have hpos := encodeFrame_length_pos f
    rw [wireStream_cons, List.getD_append _ _ _ _ (by omega)]
    intro hmagic
    refine hclean f (by simp) ?_
    have hdrop : ((encodeFrame f).active.drop 1).getD (i - 1) 0 = kFrameMagic := by
      rw [← hmagic, List.getD_eq_getElem _ _ (by rw [List.length_drop]; omega),
        List.getD_eq_getElem _ _ (by omega), List.getElem_drop]
      congr 1
      omega
    rw [← hdrop, List.getD_eq_getElem _ _ (by rw [List.length_drop]; omega)]
    exact List.getElem_mem _

/-- A candidate whose length field passes its check is shaped once the declared
length has been fed. -/
theorem shaped_append_take (c : Candidate) (data : List UInt8) (field : UInt8)
    (hfield : (c.bytes ++ data).getD 6 0 = field) (hc : 2 ≤ c.bytes.length)
    (hbound : field.toNat ≤ kMaxPayloadSize)
    (hroom : kFrameOverhead + field.toNat ≤ c.bytes.length + data.length)
    (hshort : c.bytes.length ≤ kFrameOverhead + field.toNat) :
    FrameShaped (c.bytes ++ data.take (kFrameOverhead + field.toNat - c.bytes.length)) := by
  have hsizes := sizes
  set n := kFrameOverhead + field.toNat with hn
  have hget : ∀ i, i < n →
      (c.bytes ++ data.take (n - c.bytes.length)).getD i 0 = (c.bytes ++ data).getD i 0 := by
    intro i hi
    have htake : c.bytes ++ data.take (n - c.bytes.length) = (c.bytes ++ data).take n := by
      rw [List.take_append, List.take_of_length_le hshort]
    have hi' : i < (c.bytes ++ data).length := by rw [List.length_append]; omega
    rw [htake, List.getD_eq_getElem _ _ (by rw [List.length_take]; omega), List.getElem_take]
    exact (List.getD_eq_getElem _ _ hi').symm
  refine ⟨?_, ?_, ?_, ?_⟩
  · rw [hget 0 (by omega), List.getD_append _ _ _ _ (by omega)]
    exact c.viable.magic (by omega)
  · rw [hget 1 (by omega), List.getD_append _ _ _ _ (by omega)]
    exact c.viable.version hc
  · rw [hget 6 (by omega), hfield]
    exact hbound
  · rw [hget 6 (by omega), hfield, List.length_append, List.length_take]
    omega

/-- After `e` bytes of the stream the candidate is gone: the parser holds none, or
what a fresh parser would hold. -/
def GoneAfter (c : Candidate) (stream : List UInt8) (e : ℕ) : Prop :=
  candidateParser.run c (stream.take e) = .empty ∨
    candidateParser.run c (stream.take e) = candidateParser.run .empty (stream.take e)

/-- The version check fails on the magic byte of the stream and keeps it. -/
theorem goneAfter_lone_magic (c : Candidate) (h1 : c.bytes.length = 1) (next : List UInt8) :
    GoneAfter c (kFrameMagic :: next) 1 := by
  obtain ⟨first, hfirst⟩ := List.length_eq_one_iff.mp h1
  have hmagic : c = .magic := by
    apply Candidate.ext
    have hviable := c.viable.magic (by omega)
    rw [hfirst] at hviable ⊢
    rw [Candidate.bytes_magic, ← hviable]
    rfl
  right
  rw [hmagic]
  rfl

/-- A candidate whose length field passes its check runs to its declared length. -/
theorem goneAfter_declared (c : Candidate) {stream : List UInt8} (h2 : 2 ≤ c.bytes.length)
    (hlong : 38 ≤ stream.length)
    (hbound : ((c.bytes ++ stream).getD 6 0).toNat ≤ kMaxPayloadSize) :
    ∃ e ≤ 38, GoneAfter c stream e := by
  have hsizes := sizes
  set field := (c.bytes ++ stream).getD 6 0 with hfield
  have hshort : c.bytes.length < kFrameOverhead + field.toNat := by
    by_cases h7 : kFrameHeaderSize ≤ c.bytes.length
    · rw [hfield, List.getD_append _ _ _ _ (by omega)]
      exact c.viable.incomplete h7
    · omega
  have hshape := shaped_append_take c stream field hfield.symm h2 hbound (by omega) (by omega)
  -- 40 bytes at most are declared, and two of them came before the stream
  refine ⟨kFrameOverhead + field.toNat - c.bytes.length, by omega, Or.inl ?_⟩
  apply (c.run_shaped _ _ _ hshape).1
  · exact List.ne_nil_of_length_pos (by omega)
  · exact List.ne_nil_of_length_pos (by rw [List.length_take]; omega)

/-- A candidate whose length field is refused is gone after that byte, or is a lone
magic byte then. -/
theorem run_take_refused (c : Candidate) {stream : List UInt8} (h2 : 2 ≤ c.bytes.length)
    (h7 : c.bytes.length < kFrameHeaderSize) (hm : 6 - c.bytes.length < stream.length)
    (hbound : stream[6 - c.bytes.length].toNat > kMaxPayloadSize) :
    candidateParser.run c (stream.take (6 - c.bytes.length + 1)) =
      .restart stream[6 - c.bytes.length] := by
  have hsizes := sizes
  have h0 : c.bytes ≠ [] := List.ne_nil_of_length_pos (by omega)
  have hlen6 : (c.bytes ++ stream.take (6 - c.bytes.length)).length = 6 := by
    rw [List.length_append, List.length_take]
    omega
  have hviable : Viable (c.bytes ++ stream.take (6 - c.bytes.length)) := by
    refine ⟨fun _ => ?_, fun _ => ?_, fun h => by omega, fun h => by omega⟩
    · rw [List.getD_append _ _ _ _ (by omega)]
      exact c.viable.magic (by omega)
    · rw [List.getD_append _ _ _ _ (by omega)]
      exact c.viable.version (by omega)
  have hstep : candidateParser.step ⟨_, hviable⟩ stream[6 - c.bytes.length] =
      (.restart stream[6 - c.bytes.length],
        { status := .frameError, error := .payloadTooLarge }) :=
    Candidate.step_oversized ⟨_, hviable⟩ hlen6 hbound
  rw [List.take_succ_eq_append_getElem hm, Mealy.run_concat, (c.run_viable _ h0 hviable).1, hstep]

/-- A refused length field that lies in a clean stream is magic only if it is the
stream's first byte, where a fresh parser would hold it too. -/
theorem goneAfter_refused (c : Candidate) (frames : List Frame)
    (hclean : ∀ f ∈ frames, f.MagicOnlyFirst) {next : List UInt8}
    (hnext : wireStream frames = kFrameMagic :: next) (h2 : 2 ≤ c.bytes.length)
    (hlong : 38 ≤ (wireStream frames).length)
    (hbound : ((c.bytes ++ wireStream frames).getD 6 0).toNat > kMaxPayloadSize) :
    ∃ e ≤ 38, GoneAfter c (wireStream frames) e := by
  have hsizes := sizes
  have h7 : c.bytes.length < kFrameHeaderSize := by
    by_contra h7
    rw [List.getD_append _ _ _ _ (by omega)] at hbound
    exact absurd (c.viable.bound (by omega)) (Nat.not_le.mpr hbound)
  have hm : 6 - c.bytes.length < (wireStream frames).length := by omega
  rw [List.getD_append_right _ _ _ _ (by omega), List.getD_eq_getElem _ _ hm] at hbound
  have hrun := run_take_refused c h2 h7 hm hbound
  refine ⟨6 - c.bytes.length + 1, by omega, ?_⟩
  by_cases hmagic : (wireStream frames)[6 - c.bytes.length] = kFrameMagic
  · have h6 : 6 - c.bytes.length = 0 := by
      by_contra hpos
      apply wireStream_getD_ne frames hclean (6 - c.bytes.length) (by omega) (by omega)
      rw [List.getD_eq_getElem _ _ hm, hmagic]
    right
    rw [hrun, hmagic, h6, hnext]
    rfl
  · left
    rw [hrun, Candidate.restart_of_ne hmagic]

/-- **A false candidate swallows at most 38 bytes of a clean stream.** -/
theorem exists_capture (c : Candidate) (frames : List Frame)
    (hclean : ∀ f ∈ frames, f.MagicOnlyFirst) (hlong : 38 ≤ (wireStream frames).length) :
    ∃ e ≤ 38, GoneAfter c (wireStream frames) e := by
  obtain ⟨next, hnext⟩ : ∃ next, wireStream frames = kFrameMagic :: next := by
    cases frames with
    | nil => simp at hlong
    | cons f rest =>
      rw [wireStream_cons, encodeFrame_active f]
      exact ⟨_, rfl⟩
  rcases Nat.lt_or_ge c.bytes.length 2 with hlt | h2
  · rcases Nat.eq_zero_or_pos c.bytes.length with h0 | hpos
    · exact ⟨0, by omega, Or.inl (Candidate.eq_empty_of_bytes (List.eq_nil_of_length_eq_zero h0))⟩
    · rw [hnext]
      exact ⟨1, by omega, goneAfter_lone_magic c (by omega) next⟩
  · -- the length field decides: it is the candidate's own or a byte of the stream
    rcases Nat.lt_or_ge kMaxPayloadSize ((c.bytes ++ wireStream frames).getD 6 0).toNat with
      hrefused | hbound
    · exact goneAfter_refused c frames hclean hnext h2 hlong hrefused
    · exact goneAfter_declared c h2 hlong hbound

/-! ### Resynchronisation -/

/-- From byte 38 on, the parser's results are those a fresh parser would give,
but for discarded bytes before the next frame. -/
theorem getD_outputs_of_capture (c : Candidate) (frames : List Frame)
    (hclean : ∀ f ∈ frames, f.MagicOnlyFirst) (hlong : 38 ≤ (wireStream frames).length) :
    ∃ k, (∀ m, 38 ≤ beginsAt frames m → k ≤ beginsAt frames m) ∧
      (∀ j, k ≤ j → (candidateParser.outputs c (wireStream frames)).getD j .needMore =
        (frames.flatMap frameResults).getD j .needMore) ∧
      ∀ j, 38 ≤ j → j < k → (candidateParser.outputs c (wireStream frames)).getD j .needMore =
        { status := .discarded, error := .badMagic } := by
  obtain ⟨e, he, hcapture⟩ := exists_capture c frames hclean hlong
  set stream := wireStream frames with hstream
  have hcut : stream = stream.take e ++ stream.drop e := (List.take_append_drop e stream).symm
  have hlen : (stream.take e).length = e := by rw [List.length_take]; omega
  have hfresh := outputs_wireStream frames
  have hsplit : ∀ c', candidateParser.outputs c' stream = candidateParser.outputs c' (stream.take e)
      ++ candidateParser.outputs (candidateParser.run c' (stream.take e)) (stream.drop e) := by
    intro c'
    conv_lhs => rw [hcut]
    rw [Mealy.outputs_append]
  have hlater : ∀ c' j, e ≤ j → (candidateParser.outputs c' stream).getD j .needMore =
      (candidateParser.outputs (candidateParser.run c' (stream.take e)) (stream.drop e)).getD
        (j - e) .needMore := by
    intro c' j hj
    rw [hsplit, List.getD_append_right _ _ _ _ (by rw [Mealy.length_outputs]; omega),
      Mealy.length_outputs, hlen]
  rcases hcapture with hempty | hsame
  · -- no candidate: the rest of the frame is noise, the next one is read from its start
    obtain ⟨k, tail, hdrop, htail, hmagic, hleast⟩ :=
      exists_tail frames hclean e (by rw [← hstream]; omega)
    rw [← hstream] at hdrop
    obtain ⟨hrunTail, houtTail⟩ := Candidate.run_noise tail hmagic
    have hrest : candidateParser.outputs .empty (stream.drop e) =
        List.replicate tail.length { status := .discarded, error := .badMagic } ++
          (frames.drop k).flatMap frameResults := by
      rw [hdrop, Mealy.outputs_append, hrunTail, houtTail, (outputs_wireStream _).2]
    refine ⟨beginsAt frames k, fun m hm => ?_, fun j hj => ?_, fun j hj hj' => ?_⟩
    · exact beginsAt_mono frames (hleast m (by omega))
    · obtain ⟨x, rfl⟩ := Nat.exists_eq_add_of_le hj
      rw [hlater c _ (by omega), hempty, hrest,
        List.getD_append_right _ _ _ _ (by rw [List.length_replicate]; omega),
        List.length_replicate, getD_frameResults_drop]
      congr 1
      omega
    · rw [hlater c j (by omega), hempty, hrest, List.getD_append _ _ _ _ (by simp; omega),
        List.getD_replicate _ (by omega)]
  · -- a fresh parser's state: its results from here on
    refine ⟨e, fun m hm => by omega, fun j hj => ?_, fun j hj hj' => by omega⟩
    rw [hlater c j hj, hsame, ← hlater .empty j hj, hstream, hfresh.2]

/-- **Bounded resynchronisation.**  After any history, over any list of frames
whose encodings hold the magic byte at index 0 only, the decoder reports every
frame that begins at offset 38 or later at its own last byte, and from offset 38
on returns no error and no other frame. -/
theorem bounded_resynchronisation (history : List UInt8) (frames : List Frame)
    (hclean : ∀ f ∈ frames, f.MagicOnlyFirst) :
    let results := streamDecoder.outputs (streamDecoder.run streamDecoder.start history)
      (wireStream frames)
    (∀ (i : ℕ) (hi : i < frames.length), 38 ≤ beginsAt frames i →
      results.getD (beginsAt frames (i + 1) - 1) .needMore =
        { status := .frameReady, frame := frames[i].normalise }) ∧
    ∀ j, 38 ≤ j → j < (wireStream frames).length →
      (results.getD j .needMore).status ≠ .frameError ∧
      ((results.getD j .needMore).status = .frameReady → ∃ (i : ℕ) (hi : i < frames.length),
        j + 1 = beginsAt frames (i + 1) ∧
        (results.getD j .needMore).frame = frames[i].normalise) := by
  intro results
  set c := candidateParser.run candidateParser.start history
  have hresults : results = candidateParser.outputs c (wireStream frames) :=
    (StreamDecoder.outputs_eq (StreamDecoder.run_start history) _).1
  rw [hresults]
  by_cases hlong : 38 ≤ (wireStream frames).length
  · obtain ⟨k, hbegins, hlater, hearlier⟩ := getD_outputs_of_capture c frames hclean hlong
    refine ⟨fun i hi h38 => ?_, fun j h38 hj => ?_⟩
    · have hk := hbegins i h38
      have hsucc := beginsAt_succ frames i hi
      have hpos := encodeFrame_length_pos frames[i]
      rw [hlater _ (by omega), getD_frameResults_last frames i hi]
    · rcases Nat.lt_or_ge j k with hlt | hge
      · rw [hearlier j h38 hlt]
        exact ⟨by decide, fun h => absurd h (by decide)⟩
      · rw [hlater j hge]
        exact clean_frameResults frames j
  · -- a stream of fewer than 38 bytes promises nothing
    refine ⟨fun i _ h38 => ?_, fun j h38 hj => absurd (h38.trans hj.le) hlong⟩
    exact absurd (h38.trans (beginsAt_le frames i)) hlong

/-- Six frames after a history that ends inside a header: the false candidate
takes its length field from the first frame. -/
theorem bounded_resynchronisation_example :
    let frames : List Frame := [{ nodeId := 32 }, { sequence := 1 }, { sequence := 2 },
      { sequence := 3 }, { sequence := 4 }, { sequence := 5 }]
    let results := streamDecoder.outputs
      (streamDecoder.run streamDecoder.start [0x55, 0xB7, 0x01]) (wireStream frames)
    (∀ (i : ℕ) (hi : i < frames.length), 38 ≤ beginsAt frames i →
      results.getD (beginsAt frames (i + 1) - 1) .needMore =
        { status := .frameReady, frame := frames[i].normalise }) ∧
    ∀ j, 38 ≤ j → j < (wireStream frames).length →
      (results.getD j .needMore).status ≠ .frameError ∧
      ((results.getD j .needMore).status = .frameReady → ∃ (i : ℕ) (hi : i < frames.length),
        j + 1 = beginsAt frames (i + 1) ∧
        (results.getD j .needMore).frame = frames[i].normalise) :=
  bounded_resynchronisation [0x55, 0xB7, 0x01] _ (by decide)

end PicoMesh
