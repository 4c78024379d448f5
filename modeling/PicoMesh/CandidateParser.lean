import PicoMesh.Equiv.Frame
import PicoMesh.StreamDecoder

/-!
# The stream decoder's abstract model: the candidate parser

The parser's whole state is the bytes of the current candidate frame.  A
candidate can only be a proper prefix of a frame-shaped buffer (`Viable`), and
that is a field of `Candidate`, so a state the decoder could not be in cannot be
written down.  A byte does one of five things to a candidate: it is discarded as
noise, it starts one, it breaks the version or the length field (and may start
the next one), it completes the candidate, or it extends it; `Candidate.step` has
one branch for each and one lemma for each.  The run lemmas say what whole byte
strings do: a viable string is absorbed silently (`run_viable`) and a
frame-shaped one is judged once, at its last byte (`run_shaped`).
-/

namespace PicoMesh

/-! ### Viable candidates -/

/-- A proper prefix of some frame-shaped buffer: the header bytes present so far
pass their checks and the declared length is not reached. -/
structure Viable (c : List UInt8) : Prop where
  magic : 1 ≤ c.length → c.getD 0 0 = kFrameMagic
  version : 2 ≤ c.length → c.getD 1 0 = kProtocolVersion
  bound : kFrameHeaderSize ≤ c.length → (c.getD 6 0).toNat ≤ kMaxPayloadSize
  incomplete : kFrameHeaderSize ≤ c.length → c.length < kFrameOverhead + (c.getD 6 0).toNat

theorem viable_nil : Viable [] := by
  constructor <;> intro h <;> simp at h

theorem viable_magic : Viable [kFrameMagic] := by
  constructor <;> intro h <;> first | rfl | simp at h

/-- A viable candidate leaves room in the buffer. -/
theorem Viable.length_lt {c : List UInt8} (h : Viable c) : c.length < kMaxEncodedFrameSize := by
  have hsizes := sizes
  by_cases h7 : kFrameHeaderSize ≤ c.length
  · have := h.bound h7
    have := h.incomplete h7
    omega
  · omega

/-- A proper prefix of a frame-shaped buffer is viable. -/
theorem FrameShaped.viable_of_append {c rest : List UInt8} (h : FrameShaped (c ++ rest))
    (hrest : rest ≠ []) : Viable c := by
  have hsizes := sizes
  obtain ⟨hmagic, hversion, hbound, hlength⟩ := h
  have hpos := List.length_pos_iff.mpr hrest
  rw [List.length_append] at hlength
  refine ⟨fun h => ?_, fun h => ?_, fun h => ?_, fun h => ?_⟩
  · rwa [List.getD_append _ _ _ _ (by omega)] at hmagic
  · rwa [List.getD_append _ _ _ _ (by omega)] at hversion
  · rwa [List.getD_append _ _ _ _ (by omega)] at hbound
  · rw [List.getD_append _ _ _ _ (by omega)] at hlength
    omega

/-- Viability passes to prefixes. -/
theorem Viable.of_append {c rest : List UInt8} (h : Viable (c ++ rest)) : Viable c := by
  -- the fields that the prefix has are those of the whole
  have hsizes := sizes
  have hlen : (c ++ rest).length = c.length + rest.length := List.length_append
  refine ⟨fun h' => ?_, fun h' => ?_, fun h' => ?_, fun h' => ?_⟩
  · have := h.magic (by omega)
    rwa [List.getD_append _ _ _ _ (by omega)] at this
  · have := h.version (by omega)
    rwa [List.getD_append _ _ _ _ (by omega)] at this
  · have := h.bound (by omega)
    rwa [List.getD_append _ _ _ _ (by omega)] at this
  · have := h.incomplete (by omega)
    rw [List.getD_append _ _ _ _ (by omega)] at this
    omega

/-! ### The parser -/

/-- The bytes of the current candidate frame. -/
@[ext] structure Candidate where
  bytes : List UInt8
  viable : Viable bytes

namespace Candidate

/-- No candidate. -/
def empty : Candidate := ⟨[], viable_nil⟩

/-- The candidate a lone magic byte makes. -/
def magic : Candidate := ⟨[kFrameMagic], viable_magic⟩

/-- What is left of a candidate that `byte` broke. -/
def restart (byte : UInt8) : Candidate := if byte = kFrameMagic then magic else empty

/-- The judgement on a completed candidate. -/
def verdict (data : List UInt8) : StreamResult :=
  if byteSum data = 0 then { status := .frameReady, frame := frameOf data }
  else { status := .frameError, error := .badChecksum }

/-- Extending a candidate by a byte that neither breaks nor completes it keeps
it viable. -/
theorem viable_append (c : Candidate) (byte : UInt8) (hne : c.bytes ≠ [])
    (hversion : ¬ (c.bytes.length = 1 ∧ byte ≠ kProtocolVersion))
    (hbound : ¬ (c.bytes.length = 6 ∧ byte.toNat > kMaxPayloadSize))
    (hlength : (c.bytes ++ [byte]).length ≠
      kFrameOverhead + ((c.bytes ++ [byte]).getD 6 0).toNat) :
    Viable (c.bytes ++ [byte]) := by
  have hsizes := sizes
  have hpos := List.length_pos_iff.mpr hne
  have hlen : (c.bytes ++ [byte]).length = c.bytes.length + 1 := by simp
  have hlast : (c.bytes ++ [byte]).getD c.bytes.length 0 = byte := by
    simp
  -- a field is the new byte, then its check was passed, or was there before
  refine ⟨fun _ => ?_, fun h => ?_, fun h => ?_, fun h => ?_⟩
  · rw [List.getD_append _ _ _ _ hpos]
    exact c.viable.magic hpos
  · by_cases h1 : c.bytes.length = 1
    · rw [← h1, hlast]
      by_contra hb
      exact hversion ⟨h1, hb⟩
    · rw [List.getD_append _ _ _ _ (by omega)]
      exact c.viable.version (by omega)
  · by_cases h6 : c.bytes.length = 6
    · rw [← h6, hlast]
      by_contra hb
      exact hbound ⟨h6, by omega⟩
    · rw [List.getD_append _ _ _ _ (by omega)]
      exact c.viable.bound (by omega)
  · by_cases h6 : c.bytes.length = 6
    · omega
    · rw [List.getD_append _ _ _ _ (by omega)] at hlength ⊢
      have := c.viable.incomplete (by omega)
      omega

/-- A candidate that a byte brings to its declared length is frame-shaped. -/
theorem shaped_of_length (c : Candidate) (byte : UInt8)
    (hlength : (c.bytes ++ [byte]).length =
      kFrameOverhead + ((c.bytes ++ [byte]).getD 6 0).toNat) :
    FrameShaped (c.bytes ++ [byte]) := by
  have hsizes := sizes
  have hlen : (c.bytes ++ [byte]).length = c.bytes.length + 1 := by simp
  refine ⟨?_, ?_, ?_, hlength⟩
  · rw [List.getD_append _ _ _ _ (by omega)]
    exact c.viable.magic (by omega)
  · rw [List.getD_append _ _ _ _ (by omega)]
    exact c.viable.version (by omega)
  · rw [List.getD_append _ _ _ _ (by omega)]
    exact c.viable.bound (by omega)

/-- One byte. -/
def step (c : Candidate) (byte : UInt8) : Candidate × StreamResult :=
  if hne : c.bytes = [] then
    if byte = kFrameMagic then (magic, .needMore)
    else (empty, { status := .discarded, error := .badMagic })
  else if hversion : c.bytes.length = 1 ∧ byte ≠ kProtocolVersion then
    (restart byte, { status := .frameError, error := .unsupportedVersion })
  else if hbound : c.bytes.length = 6 ∧ byte.toNat > kMaxPayloadSize then
    (restart byte, { status := .frameError, error := .payloadTooLarge })
  else if hlength : (c.bytes ++ [byte]).length =
      kFrameOverhead + ((c.bytes ++ [byte]).getD 6 0).toNat then
    (empty, verdict (c.bytes ++ [byte]))
  else (⟨c.bytes ++ [byte], c.viable_append byte hne hversion hbound hlength⟩, .needMore)

end Candidate

/-- The parser as a machine. -/
def candidateParser : Mealy Candidate UInt8 StreamResult where
  start := .empty
  step := Candidate.step

namespace Candidate

/-! ### One lemma for each thing a byte can do -/

@[simp] theorem bytes_empty : empty.bytes = [] := rfl

@[simp] theorem bytes_magic : magic.bytes = [kFrameMagic] := rfl

@[simp] theorem restart_magic : restart kFrameMagic = magic := rfl

theorem restart_of_ne {byte : UInt8} (h : byte ≠ kFrameMagic) : restart byte = empty :=
  if_neg h

theorem eq_empty_of_bytes {c : Candidate} (h : c.bytes = []) : c = empty := Candidate.ext h

@[simp] theorem step_empty_magic : empty.step kFrameMagic = (magic, .needMore) := rfl

theorem step_empty_of_ne {byte : UInt8} (h : byte ≠ kFrameMagic) :
    empty.step byte = (empty, { status := .discarded, error := .badMagic }) := by
  simp [step, h]

/-- Whatever a byte does from the empty state, the candidate it leaves is the
one a broken candidate would leave. -/
theorem step_empty_fst (byte : UInt8) : (empty.step byte).1 = restart byte := by
  by_cases h : byte = kFrameMagic
  · rw [h]; rfl
  · rw [step_empty_of_ne h, restart_of_ne h]

theorem step_magic_of_ne {byte : UInt8} (h : byte ≠ kProtocolVersion) :
    magic.step byte =
      (restart byte, { status := .frameError, error := .unsupportedVersion }) := by
  simp [step, h]

theorem step_oversized (c : Candidate) {byte : UInt8} (hc : c.bytes.length = 6)
    (h : byte.toNat > kMaxPayloadSize) :
    c.step byte = (restart byte, { status := .frameError, error := .payloadTooLarge }) := by
  have hne : c.bytes ≠ [] := by rintro h'; rw [h'] at hc; simp at hc
  simp [step, hne, hc, h]

/-- The byte that completes a shaped buffer. -/
theorem step_shaped (c : Candidate) {byte : UInt8} (h : FrameShaped (c.bytes ++ [byte])) :
    c.step byte = (empty, verdict (c.bytes ++ [byte])) := by
  have hsizes := sizes
  have hlen := h.length
  have hc : kFrameHeaderSize ≤ c.bytes.length := by
    rw [List.length_append, List.length_singleton] at hlen
    omega
  have hne : c.bytes ≠ [] := by rintro h'; rw [h'] at hc; simp at hc
  unfold step
  rw [dif_neg hne, dif_neg (by omega), dif_neg (by omega), dif_pos hlen]

/-- A byte that keeps a started candidate viable. -/
theorem step_viable (c : Candidate) {byte : UInt8} (hne : c.bytes ≠ [])
    (h : Viable (c.bytes ++ [byte])) : c.step byte = (⟨c.bytes ++ [byte], h⟩, .needMore) := by
  have hsizes := sizes
  have hlen : (c.bytes ++ [byte]).length = c.bytes.length + 1 := by simp
  have hlast : (c.bytes ++ [byte]).getD c.bytes.length 0 = byte := by
    simp
  -- each test that could break or complete the candidate fails
  unfold step
  rw [dif_neg hne, dif_neg, dif_neg, dif_neg]
  · intro h'
    by_cases h7 : kFrameHeaderSize ≤ (c.bytes ++ [byte]).length
    · exact absurd h' (h.incomplete h7).ne
    · omega
  · rintro ⟨h6, hb⟩
    have := h.bound (by omega)
    rw [← h6, hlast] at this
    omega
  · rintro ⟨h1, hb⟩
    have := h.version (by omega)
    rw [← h1, hlast] at this
    exact hb this

/-! ### What a candidate and a result say about the bytes fed -/

/-- The candidate is always a suffix of what was fed. -/
theorem step_bytes_suffix (c : Candidate) (byte : UInt8) :
    (c.step byte).1.bytes <:+ c.bytes ++ [byte] := by
  have hrestart : (restart byte).bytes <:+ c.bytes ++ [byte] := by
    by_cases h : byte = kFrameMagic
    · rw [h]; exact List.suffix_append _ _
    · rw [restart_of_ne h]; exact List.nil_suffix
  unfold step
  split_ifs with hne hmagic
  · rw [hmagic]; exact List.suffix_append _ _
  · exact List.nil_suffix
  · exact hrestart
  · exact hrestart
  · exact List.nil_suffix
  · exact List.suffix_refl _

theorem run_bytes_suffix (c : Candidate) (data : List UInt8) :
    (candidateParser.run c data).bytes <:+ c.bytes ++ data := by
  induction data generalizing c with
  | nil => simp
  | cons byte data ih =>
    have hstep := step_bytes_suffix c byte
    have happ : c.bytes ++ byte :: data = c.bytes ++ [byte] ++ data := by simp
    rw [Mealy.run_cons, happ]
    exact (ih _).trans ((List.suffix_append_inj_of_length_eq rfl).mpr ⟨hstep, rfl⟩)

/-- A frame is reported only when the candidate and the byte make a shaped buffer
of byte sum zero; the frame is the one read off it. -/
theorem step_frameReady {c : Candidate} {byte : UInt8}
    (h : (c.step byte).2.status = .frameReady) :
    FrameShaped (c.bytes ++ [byte]) ∧ byteSum (c.bytes ++ [byte]) = 0 ∧
    (c.step byte).2.frame = frameOf (c.bytes ++ [byte]) ∧ (c.step byte).1 = empty := by
  unfold step at h ⊢
  by_cases hne : c.bytes = []
  · rw [dif_pos hne] at h
    split_ifs at h
    cases h
  by_cases hversion : c.bytes.length = 1 ∧ byte ≠ kProtocolVersion
  · rw [dif_neg hne, dif_pos hversion] at h
    cases h
  by_cases hbound : c.bytes.length = 6 ∧ byte.toNat > kMaxPayloadSize
  · rw [dif_neg hne, dif_neg hversion, dif_pos hbound] at h
    cases h
  by_cases hlength : (c.bytes ++ [byte]).length =
      kFrameOverhead + ((c.bytes ++ [byte]).getD 6 0).toNat
  · rw [dif_neg hne, dif_neg hversion, dif_neg hbound, dif_pos hlength] at h ⊢
    by_cases hsum : byteSum (c.bytes ++ [byte]) = 0
    · rw [verdict, if_pos hsum]
      exact ⟨c.shaped_of_length byte hlength, hsum, rfl, rfl⟩
    · rw [verdict, if_neg hsum] at h
      cases h
  · rw [dif_neg hne, dif_neg hversion, dif_neg hbound, dif_neg hlength] at h
    cases h

/-! ### Whole byte strings -/

/-- A string that keeps the candidate viable is absorbed without an outcome. -/
theorem run_viable (c : Candidate) (data : List UInt8) (hne : c.bytes ≠ [])
    (h : Viable (c.bytes ++ data)) :
    candidateParser.run c data = ⟨c.bytes ++ data, h⟩ ∧
    candidateParser.outputs c data = List.replicate data.length .needMore := by
  induction data generalizing c with
  | nil => exact ⟨Candidate.ext (by simp), rfl⟩
  | cons byte data ih =>
    have happ : c.bytes ++ byte :: data = c.bytes ++ [byte] ++ data := by simp
    have hbyte : Viable (c.bytes ++ [byte]) := (happ ▸ h).of_append
    have hstep : candidateParser.step c byte = (⟨c.bytes ++ [byte], hbyte⟩, .needMore) :=
      c.step_viable hne hbyte
    obtain ⟨hrun, hout⟩ := ih ⟨c.bytes ++ [byte], hbyte⟩ (by simp) (by simpa using h)
    rw [Mealy.run_cons, Mealy.outputs_cons, hstep, hrun, hout]
    exact ⟨Candidate.ext (by simp), by rw [List.length_cons, List.replicate_succ]⟩

/-- A string that completes a started candidate to a shaped buffer is judged at
its last byte and nowhere else. -/
theorem run_shaped (c : Candidate) (data : List UInt8) (hne : c.bytes ≠ []) (hdata : data ≠ [])
    (h : FrameShaped (c.bytes ++ data)) :
    candidateParser.run c data = empty ∧
    candidateParser.outputs c data =
      List.replicate (data.length - 1) .needMore ++ [verdict (c.bytes ++ data)] := by
  -- all bytes but the last keep the candidate viable
  obtain ⟨front, last, rfl⟩ : ∃ front last, data = front ++ [last] :=
    ⟨data.dropLast, data.getLast hdata, (List.dropLast_append_getLast hdata).symm⟩
  rw [← List.append_assoc] at h
  have hfront : Viable (c.bytes ++ front) := h.viable_of_append (by simp)
  obtain ⟨hrun, hout⟩ := c.run_viable front hne hfront
  have hstep : candidateParser.step ⟨c.bytes ++ front, hfront⟩ last =
      (empty, verdict (c.bytes ++ front ++ [last])) := step_shaped _ h
  rw [Mealy.run_concat, Mealy.outputs_concat, hrun, hout, hstep, List.append_assoc]
  simp

/-- A viable string fed to the empty state becomes the candidate. -/
theorem run_viable_empty (data : List UInt8) (hdata : data ≠ []) (h : Viable data) :
    candidateParser.run empty data = ⟨data, h⟩ ∧
    candidateParser.outputs empty data = List.replicate data.length .needMore := by
  cases data with
  | nil => exact absurd rfl hdata
  | cons byte data =>
    obtain rfl : byte = kFrameMagic := by simpa using h.magic (by simp)
    have hstep : candidateParser.step empty kFrameMagic = (magic, .needMore) := step_empty_magic
    obtain ⟨hrun, hout⟩ := magic.run_viable data (by simp) h
    rw [Mealy.run_cons, Mealy.outputs_cons, hstep, hrun, hout]
    exact ⟨rfl, by rw [List.length_cons, List.replicate_succ]⟩

/-- A shaped buffer fed to the empty state is judged at its last byte. -/
theorem run_shaped_empty (data : List UInt8) (h : FrameShaped data) :
    candidateParser.run empty data = empty ∧
    candidateParser.outputs empty data =
      List.replicate (data.length - 1) .needMore ++ [verdict data] := by
  have hlen := h.length
  match data with
  | [] | [_] => simp at hlen
  | byte :: next :: rest =>
    obtain rfl : byte = kFrameMagic := by simpa using h.magic
    have hstep : candidateParser.step empty kFrameMagic = (magic, .needMore) := step_empty_magic
    obtain ⟨hrun, hout⟩ := magic.run_shaped (next :: rest) (by simp) (by simp) h
    rw [Mealy.run_cons, Mealy.outputs_cons, hstep, hrun, hout]
    exact ⟨rfl, by simp [List.replicate_succ]⟩

/-- Noise: bytes other than the magic byte leave the empty state alone. -/
theorem run_noise (data : List UInt8) (h : kFrameMagic ∉ data) :
    candidateParser.run empty data = empty ∧
    candidateParser.outputs empty data =
      List.replicate data.length { status := .discarded, error := .badMagic } := by
  induction data with
  | nil => exact ⟨rfl, rfl⟩
  | cons byte data ih =>
    rw [List.mem_cons, not_or] at h
    have hstep : candidateParser.step empty byte =
        (empty, { status := .discarded, error := .badMagic }) :=
      step_empty_of_ne (Ne.symm h.1)
    rw [Mealy.run_cons, Mealy.outputs_cons, hstep, (ih h.2).1, (ih h.2).2]
    exact ⟨rfl, by rw [List.length_cons, List.replicate_succ]⟩

end Candidate

end PicoMesh
