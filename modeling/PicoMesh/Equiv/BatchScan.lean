import PicoMesh.Equiv.StreamDecoder

/-!
# The incremental decoder against a whole-buffer parser

`batchScan` reads a complete buffer front to back, deciding at each position
from the bytes ahead whether to skip one byte, skip a broken header, judge a
frame or stop.  `scan_eq` shows by induction on the scan that the candidate
parser, fed the same bytes one at a time, reports the same frames and ends
with the bytes the scan left over; `streamDecoder_eq_batchScan` is that
statement for the decoder, with the position of every reported frame.
-/

namespace PicoMesh

/-- The frames a list of results reports. -/
def readyFrames (results : List StreamResult) : List Frame :=
  results.filterMap fun r => if r.status = .frameReady then some r.frame else none

/-- The whole-buffer parser, on the rest of the buffer from the scan position
on: the frames found and the number of bytes of the incomplete candidate it
stopped at. -/
def batchScan (b : List UInt8) : List Frame × ℕ :=
  if b = [] then ([], 0)
  else if b.getD 0 0 ≠ kFrameMagic then batchScan (b.drop 1)
  else if 1 < b.length ∧ b.getD 1 0 ≠ kProtocolVersion then batchScan (b.drop 1)
  else if 6 < b.length ∧ (b.getD 6 0).toNat > kMaxPayloadSize then batchScan (b.drop 6)
  else if frameLengthFromPrefix b ≠ 0 then
    let decoded := decodeFrame (b.take (frameLengthFromPrefix b))
    let later := batchScan (b.drop (frameLengthFromPrefix b))
    ((if decoded.ok then [decoded.frame] else []) ++ later.1, later.2)
  else ([], b.length)
termination_by b.length
decreasing_by
  all_goals
    have := List.length_pos_iff.mpr ‹b ≠ []›
    rw [List.length_drop]
    omega

/-- The results of a fresh decoder fed `b` byte by byte. -/
def decoderResults (b : List UInt8) : List StreamResult :=
  streamDecoder.outputs streamDecoder.start b

/-- The result at byte `k` of `b`. -/
def resultAt (b : List UInt8) (k : ℕ) : StreamResult := (decoderResults b).getD k .needMore

/-! ### Reported frames -/

@[simp] theorem readyFrames_nil : readyFrames [] = [] := rfl

@[simp] theorem readyFrames_append (r s : List StreamResult) :
    readyFrames (r ++ s) = readyFrames r ++ readyFrames s := by
  simp [readyFrames]

theorem readyFrames_cons_of_ne {r : StreamResult} (rs : List StreamResult)
    (h : r.status ≠ .frameReady) : readyFrames (r :: rs) = readyFrames rs := by
  simp [readyFrames, h]

@[simp] theorem readyFrames_replicate_needMore (n : ℕ) :
    readyFrames (List.replicate n .needMore) = [] := by
  induction n with
  | zero => rfl
  | succ n ih => rw [List.replicate_succ, readyFrames_cons_of_ne _ (by decide), ih]

/-- A verdict reports a frame exactly when the strict decoder accepts. -/
theorem readyFrames_verdict {data : List UInt8} (h : FrameShaped data) :
    readyFrames [Candidate.verdict data] =
      if (decodeFrame data).ok then [(decodeFrame data).frame] else [] := by
  rw [decodeFrame_of_shaped h, Candidate.verdict]
  by_cases hsum : byteSum data = 0
  · rw [if_pos hsum, if_pos hsum]; rfl
  · rw [if_neg hsum, if_neg hsum]; rfl

/-! ### The prefix helper -/

/-- A buffer that starts like a frame and holds no complete one is a viable
candidate. -/
theorem viable_of_frameLengthFromPrefix {data : List UInt8} (hmagic : data.getD 0 0 = kFrameMagic)
    (hversion : 1 < data.length → data.getD 1 0 = kProtocolVersion)
    (hbound : 6 < data.length → (data.getD 6 0).toNat ≤ kMaxPayloadSize)
    (h : frameLengthFromPrefix data = 0) : Viable data := by
  have hsizes := sizes
  refine ⟨fun _ => hmagic, fun h' => hversion (by omega), fun h' => hbound (by omega),
    fun h' => ?_⟩
  unfold frameLengthFromPrefix at h
  simp only [gt_iff_lt] at h
  rw [if_neg (by omega), if_neg (by rw [hmagic, hversion (by omega)]; simp),
    if_neg (by have := hbound (by omega); omega)] at h
  split_ifs at h with h₄ <;> omega

/-! ### The simulation -/

/-- A byte that broke a candidate is read again as if it were the first: this is
why the scan moves on by one byte, and by six after a bad length field. -/
theorem readyFrames_restart (byte : UInt8) (data : List UInt8) :
    readyFrames (candidateParser.outputs .empty (byte :: data)) =
      readyFrames (candidateParser.outputs (.restart byte) data) ∧
    candidateParser.run .empty (byte :: data) = candidateParser.run (.restart byte) data := by
  have hfst : (candidateParser.step .empty byte).1 = .restart byte := Candidate.step_empty_fst byte
  have hready : (candidateParser.step .empty byte).2.status ≠ .frameReady := by
    intro h
    have := (Candidate.step_frameReady h).1.length
    simp at this
  rw [Mealy.outputs_cons, Mealy.run_cons, hfst, readyFrames_cons_of_ne _ hready]
  exact ⟨rfl, rfl⟩

/-- The parser reports the same frames from `b` and from `b'` on, and is left with
the same candidate. -/
def SameReports (b b' : List UInt8) : Prop :=
  readyFrames (candidateParser.outputs .empty b) =
      readyFrames (candidateParser.outputs .empty b') ∧
    candidateParser.run .empty b = candidateParser.run .empty b'

/-- A byte of noise is passed over. -/
theorem sameReports_noise {first : UInt8} (rest : List UInt8) (hnoise : first ≠ kFrameMagic) :
    SameReports (first :: rest) rest := by
  have hstep : candidateParser.step .empty first =
      (.empty, { status := .discarded, error := .badMagic }) := Candidate.step_empty_of_ne hnoise
  unfold SameReports
  rw [Mealy.outputs_cons, Mealy.run_cons, hstep, readyFrames_cons_of_ne _ (by decide)]
  exact ⟨rfl, rfl⟩

/-- A second byte that is not the version is read again at position one. -/
theorem sameReports_version {second : UInt8} (rest : List UInt8)
    (hversion : second ≠ kProtocolVersion) :
    SameReports (kFrameMagic :: second :: rest) (second :: rest) := by
  have hfirst : candidateParser.step .empty kFrameMagic = (.magic, .needMore) := rfl
  have hsecond : candidateParser.step .magic second =
      (.restart second, { status := .frameError, error := .unsupportedVersion }) :=
    Candidate.step_magic_of_ne hversion
  obtain ⟨hready, hrun⟩ := readyFrames_restart second rest
  unfold SameReports
  rw [hready, hrun, Mealy.outputs_cons, Mealy.run_cons, hfirst, Mealy.outputs_cons, Mealy.run_cons,
    hsecond, readyFrames_cons_of_ne _ (by decide), readyFrames_cons_of_ne _ (by simp)]
  exact ⟨rfl, rfl⟩

/-- A length field that is too large is read again at position six. -/
theorem sameReports_oversized {front : List UInt8} {field : UInt8} (rest : List UInt8)
    (hviable : Viable front) (hfront : front.length = 6) (hfield : field.toNat > kMaxPayloadSize) :
    SameReports (front ++ field :: rest) (field :: rest) := by
  obtain ⟨hrun, hout⟩ :=
    Candidate.run_viable_empty front (List.ne_nil_of_length_pos (by omega)) hviable
  have hstep : candidateParser.step ⟨front, hviable⟩ field =
      (.restart field, { status := .frameError, error := .payloadTooLarge }) :=
    Candidate.step_oversized _ hfront hfield
  obtain ⟨hready, hrestart⟩ := readyFrames_restart field rest
  unfold SameReports
  rw [hready, hrestart, Mealy.outputs_append, Mealy.run_append, hrun, hout, Mealy.outputs_cons,
    Mealy.run_cons, hstep, readyFrames_append, readyFrames_replicate_needMore,
    readyFrames_cons_of_ne _ (by simp), List.nil_append]
  exact ⟨rfl, rfl⟩

/-- A frame-shaped prefix is judged by the strict decoder and passed over. -/
theorem readyFrames_shaped {front : List UInt8} (rest : List UInt8) (hshape : FrameShaped front) :
    readyFrames (candidateParser.outputs .empty (front ++ rest)) =
      (if (decodeFrame front).ok then [(decodeFrame front).frame] else []) ++
        readyFrames (candidateParser.outputs .empty rest) ∧
    candidateParser.run .empty (front ++ rest) = candidateParser.run .empty rest := by
  obtain ⟨hrun, hout⟩ := Candidate.run_shaped_empty front hshape
  rw [Mealy.outputs_append, Mealy.run_append, hrun, hout, readyFrames_append, readyFrames_append,
    readyFrames_replicate_needMore, readyFrames_verdict hshape, List.nil_append]
  exact ⟨rfl, rfl⟩

/-- The first six bytes of a buffer that starts like a frame. -/
theorem viable_take_six {b : List UInt8} (hlen : 6 < b.length) (hmagic : b.getD 0 0 = kFrameMagic)
    (hversion : b.getD 1 0 = kProtocolVersion) : Viable (b.take 6) := by
  have hsizes := sizes
  have htake : (b.take 6).length = 6 := by rw [List.length_take]; omega
  have hget : ∀ i, i < 6 → (b.take 6).getD i 0 = b.getD i 0 := by
    intro i hi
    conv_rhs => rw [← List.take_append_drop 6 b]
    rw [List.getD_append _ _ _ _ (by omega)]
  refine ⟨fun _ => ?_, fun _ => ?_, fun h => by omega, fun h => by omega⟩
  · rw [hget 0 (by omega), hmagic]
  · rw [hget 1 (by omega), hversion]

/-- **The parser reports what the scan finds and keeps what it leaves over.** -/
theorem scan_eq (b : List UInt8) :
    readyFrames (candidateParser.outputs .empty b) = (batchScan b).1 ∧
    (candidateParser.run .empty b).bytes.length = (batchScan b).2 := by
  -- induction on the scan: one case for each thing it does at a position
  fun_induction batchScan b with
  | case1 => exact ⟨rfl, rfl⟩
  | case2 b hne hnoise ih =>
    obtain ⟨first, rest, rfl⟩ := List.exists_cons_of_ne_nil hne
    obtain ⟨hready, hrun⟩ := sameReports_noise rest (show first ≠ kFrameMagic from hnoise)
    rw [hready, hrun]
    exact ih
  | case3 b hne hmagic hversion ih =>
    obtain ⟨hlen, hversion⟩ := hversion
    match b with
    | first :: second :: rest =>
      obtain rfl : first = kFrameMagic := not_not.mp hmagic
      obtain ⟨hready, hrun⟩ :=
        sameReports_version rest (show second ≠ kProtocolVersion from hversion)
      rw [hready, hrun]
      exact ih
  | case4 b hne hmagic hversion hbound ih =>
    obtain ⟨hlen, hbound⟩ := hbound
    rw [not_not] at hmagic
    rw [not_and, not_not] at hversion
    have htake : (b.take 6).length = 6 := by rw [List.length_take]; omega
    obtain ⟨field, rest, hfield⟩ : ∃ field rest, b.drop 6 = field :: rest :=
      List.exists_cons_of_ne_nil (by simp; omega)
    have hcut : b = b.take 6 ++ field :: rest := by
      rw [← hfield, List.take_append_drop]
    have hlarge : field.toNat > kMaxPayloadSize := by
      rw [hcut, List.getD_append_right _ _ _ _ (by omega), htake] at hbound
      exact hbound
    obtain ⟨hready, hrun⟩ := sameReports_oversized rest
      (viable_take_six hlen hmagic (hversion (by omega))) htake hlarge
    rw [← hcut] at hready hrun
    rw [hready, hrun, ← hfield]
    exact ih
  | case5 b hne hmagic hversion hbound hn decoded later ih =>
    obtain ⟨-, hshape⟩ := frameLengthFromPrefix_shaped hn
    obtain ⟨hready, hrun⟩ := readyFrames_shaped (b.drop (frameLengthFromPrefix b)) hshape
    rw [List.take_append_drop] at hready hrun
    rw [hready, hrun, ih.1]
    exact ⟨rfl, ih.2⟩
  | case6 b hne hmagic hversion hbound hn =>
    -- the scan stops: the rest of the buffer is a candidate
    rw [not_not] at hmagic hn
    rw [not_and, not_not] at hversion
    have hviable : Viable b := viable_of_frameLengthFromPrefix hmagic hversion
      (fun h => by by_contra h'; exact hbound ⟨h, by omega⟩) hn
    obtain ⟨hrun, hout⟩ := Candidate.run_viable_empty b hne hviable
    rw [hrun, hout, readyFrames_replicate_needMore]
    exact ⟨rfl, rfl⟩

/-! ### Where the frames lie -/

/-- A reported frame is the strict decoding of the last bytes fed, as many as its
encoding has, and leaves no candidate behind. -/
theorem frameReady_spec (data : List UInt8) (byte : UInt8)
    (h : (candidateParser.step (candidateParser.run .empty data) byte).2.status = .frameReady) :
    let c := candidateParser.run .empty data
    let g := (candidateParser.step c byte).2.frame
    (encodeFrame g).active = c.bytes ++ [byte] ∧ (encodeFrame g).active <:+ data ++ [byte] ∧
    decodeFrame (encodeFrame g).active = { frame := g } ∧
    (candidateParser.step c byte).1 = .empty := by
  intro c g
  obtain ⟨hshape, hsum, hframe, hempty⟩ := Candidate.step_frameReady h
  have hg : g = frameOf (c.bytes ++ [byte]) := hframe
  have henc : (encodeFrame g).active = c.bytes ++ [byte] := by
    rw [hg]; exact encodeFrame_frameOf hshape hsum
  have hsuffix : c.bytes <:+ data := by
    have := Candidate.run_bytes_suffix .empty data
    rwa [Candidate.bytes_empty, List.nil_append] at this
  refine ⟨henc, ?_, ?_, hempty⟩
  · rw [henc]
    exact (List.suffix_append_inj_of_length_eq rfl).mpr ⟨hsuffix, rfl⟩
  · rw [henc, decodeFrame_of_shaped hshape, if_pos hsum, hg]

/-- The `k`-th result of a fresh parser. -/
theorem getD_outputs (b : List UInt8) (k : ℕ) (hk : k < b.length) :
    (candidateParser.outputs .empty b).getD k .needMore =
      (candidateParser.step (candidateParser.run .empty (b.take k)) b[k]).2 := by
  rw [List.getD_eq_getElem _ _ (by simpa using hk)]
  exact candidateParser.getElem_outputs .empty b k hk _

/-- Between two reported frames at least the second one's encoding is fed. -/
theorem frameReady_disjoint (b : List UInt8) (j k : ℕ) (hjk : j < k) (hk : k < b.length)
    (hj : ((candidateParser.outputs .empty b).getD j .needMore).status = .frameReady)
    (hready : ((candidateParser.outputs .empty b).getD k .needMore).status = .frameReady) :
    j + 1 + (encodeFrame ((candidateParser.outputs .empty b).getD k .needMore).frame).length
      ≤ k + 1 := by
  have hj' : j < b.length := by omega
  rw [getD_outputs b j hj'] at hj
  rw [getD_outputs b k hk] at hready ⊢
  -- the report at `j` empties the candidate, so the one at `k` is fed after it
  have hempty := (frameReady_spec (b.take j) b[j] hj).2.2.2
  have hafter : candidateParser.run .empty (b.take (j + 1)) = .empty := by
    rw [List.take_succ_eq_append_getElem hj', Mealy.run_concat]
    exact hempty
  have hcut : b.take k = b.take (j + 1) ++ (b.take k).drop (j + 1) := by
    conv_lhs => rw [← List.take_append_drop (j + 1) (b.take k)]
    rw [List.take_take, Nat.min_eq_left (by omega)]
  have hbytes := Candidate.run_bytes_suffix .empty ((b.take k).drop (j + 1))
  rw [← hafter, ← Mealy.run_append, ← hcut, hafter, Candidate.bytes_empty, List.nil_append]
    at hbytes
  have hle := hbytes.length_le
  rw [List.length_drop, List.length_take] at hle
  rw [encodeFrame_length, (frameReady_spec (b.take k) b[k] hready).1, List.length_append,
    List.length_singleton]
  omega

/-- **The incremental decoder equals the whole-buffer parser.**  A fresh decoder
fed any byte string reports the frames of the batch scan and buffers what the
scan left over; each reported frame is the strict decoding of the last bytes
fed, and the byte ranges of the reported frames are disjoint and increasing. -/
theorem streamDecoder_eq_batchScan (b : List UInt8) :
    readyFrames (decoderResults b) = (batchScan b).1 ∧
    (streamDecoder.run streamDecoder.start b).bufferedSize = (batchScan b).2 ∧
    (∀ k, k < b.length → (resultAt b k).status = .frameReady →
      (encodeFrame (resultAt b k).frame).length ≤ k + 1 ∧
      decodeFrame ((b.take (k + 1)).drop (k + 1 - (encodeFrame (resultAt b k).frame).length)) =
        { frame := (resultAt b k).frame, error := .none }) ∧
    (∀ j k, j < k → k < b.length → (resultAt b j).status = .frameReady →
      (resultAt b k).status = .frameReady →
      (encodeFrame (resultAt b k).frame).length ≤ k + 1 ∧
      j + 1 ≤ k + 1 - (encodeFrame (resultAt b k).frame).length) := by
  have hresults : decoderResults b = candidateParser.outputs .empty b :=
    StreamDecoder.outputs_start b
  have hat : ∀ k, resultAt b k = (candidateParser.outputs .empty b).getD k .needMore := by
    intro k
    rw [resultAt, hresults]
  obtain ⟨hready, hleft⟩ := scan_eq b
  refine ⟨by rw [hresults, hready], ?_, fun k hk h => ?_, fun j k hjk hk hj h => ?_⟩
  · rw [← hleft]
    exact (StreamDecoder.run_start b).size
  · rw [hat, getD_outputs b k hk] at h ⊢
    obtain ⟨-, hsuffix, hdecode, -⟩ := frameReady_spec (b.take k) b[k] h
    rw [← List.take_succ_eq_append_getElem hk] at hsuffix
    have hlen : (b.take (k + 1)).length = k + 1 := by rw [List.length_take]; omega
    have hle := hsuffix.length_le
    have hdrop := List.suffix_iff_eq_drop.mp hsuffix
    rw [hlen] at hle hdrop
    rw [encodeFrame_length]
    exact ⟨hle, by rw [← hdrop, hdecode]⟩
  · rw [hat] at hj h ⊢
    have := frameReady_disjoint b j k hjk hk hj h
    omega

end PicoMesh
