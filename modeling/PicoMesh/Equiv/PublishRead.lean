import PicoMesh.Equiv.PaddedRead
import PicoMesh.Equiv.ReceiveMailbox

/-!
# Reads are never torn

The main thread publishes frames while a controller reads.  `ReadLog` is what an
observer of the bus and of `publish()`'s results records: the frame accepted
last, the bytes of the read transaction under way, and the frame accepted last
when its first byte was served.  `Serves` ties the two transmit buffers, the
active index and the read index to it, and every atomic step keeps that
(`Serves.step`): what has been served of a transaction is the encoding of that
frame, then zeros (`served`).  With `padded_read_exact`'s lemmas this says what
the controller obtains (`torn_free_read`).
-/

namespace PicoMesh

/-! ### What an observer records -/

/-- The read transactions of a run. -/
structure ReadLog where
  /-- The frame that `publish()` accepted last. -/
  accepted : Option Frame := none
  /-- That frame, when the current transaction's first byte was served. -/
  atFirstByte : Option Frame := none
  /-- The bytes served in the current transaction. -/
  bytes : List UInt8 := []

/-- The record after a reply of the endpoint. -/
def ReadLog.note (log : ReadLog) : EndpointReply → ReadLog
  | .published frame true => { log with accepted := some frame }
  | .handled .rdReq transmitted =>
    { log with
      atFirstByte := if log.bytes = [] then log.accepted else log.atFirstByte
      bytes := log.bytes ++ transmitted }
  | .handled .stopDet _ => { log with bytes := [] }
  | .handled .txAbrt _ => { log with bytes := [] }
  | _ => log

/-- The record of a run. -/
def readLog (ops : List EndpointOp) : ReadLog := (endpointReplies ops).foldl ReadLog.note {}

theorem readLog_concat (ops : List EndpointOp) (op : EndpointOp) :
    readLog (ops ++ [op]) = (readLog ops).note ((endpointAfter ops).step op).2 := by
  rw [readLog, endpointReplies_concat, List.foldl_concat, ← readLog]

/-- What a controller obtains from a read transaction with these bytes. -/
def controllerRead (transport : I2cControllerTransport) (bytes : List UInt8) : DecodeResult :=
  let result := transport.receive (fun _ _ _ => (bytes.length, bytes)) bytes.length
  decodeFrame (result.1.take result.2)

/-! ### What is served of a frame -/

/-- The first `n` bytes of the encoding of a frame, followed by zeros. -/
def served (f : Frame) (n : ℕ) : List UInt8 :=
  (encodeFrame f).active.take n ++ List.replicate (n - (encodeFrame f).active.length) 0

/-- The next byte served. -/
theorem served_succ (f : Frame) (n : ℕ) :
    served f (n + 1) = served f n ++ [(encodeFrame f).active.getD n 0] := by
  unfold served
  by_cases hn : n < (encodeFrame f).active.length
  · rw [Nat.sub_eq_zero_of_le hn, Nat.sub_eq_zero_of_le hn.le, List.getD_eq_getElem _ _ hn,
      List.replicate_zero, List.append_nil, List.append_nil,
      List.take_succ_eq_append_getElem hn]
  · rw [List.getD_eq_default _ _ (by omega), List.take_of_length_le (by omega),
      List.take_of_length_le (by omega), Nat.sub_add_comm (by omega), List.replicate_succ',
      List.append_assoc]

@[simp] theorem length_served (f : Frame) (n : ℕ) : (served f n).length = n := by
  rw [served, List.length_append, List.length_take, List.length_replicate]
  omega

/-- A long enough read is the encoding and padding, a shorter one a part of it. -/
theorem served_of_le {f : Frame} {n : ℕ} (h : (encodeFrame f).active.length ≤ n) :
    served f n = (encodeFrame f).active ++
      List.replicate (n - (encodeFrame f).active.length) 0 := by
  rw [served, List.take_of_length_le h]

theorem served_of_lt {f : Frame} {n : ℕ} (h : n < (encodeFrame f).active.length) :
    served f n <+: (encodeFrame f).active ∧ served f n ≠ (encodeFrame f).active := by
  have hserved : served f n = (encodeFrame f).active.take n := by
    rw [served, Nat.sub_eq_zero_of_le h.le, List.replicate_zero, List.append_nil]
  constructor
  · rw [hserved]
    exact List.take_prefix _ _
  · intro heq
    have hlength := congrArg List.length heq
    rw [length_served] at hlength
    omega

/-! ### The controller -/

section

variable (inst : I2cInst) (address : UInt8) {bytes : List UInt8}

/-- The controller decodes the received length of the bytes. -/
theorem controllerRead_eq (bytes : List UInt8) :
    controllerRead { instance? := some inst, address } bytes =
      decodeFrame (bytes.take (receivedLength bytes)) := by
  unfold controllerRead I2cControllerTransport.receive receivedLength
  by_cases hnil : bytes = []
  · rw [hnil]
    rfl
  · have hlength : bytes.length ≠ 0 := List.length_eq_zero_iff.not.mpr hnil
    have hpositive : ¬(bytes.length : ℤ) ≤ 0 := by omega
    simp only [if_neg hlength, if_neg hpositive, Int.toNat_natCast, List.take_length]

/-- A long enough read of a frame yields it. -/
theorem controllerRead_served_of_le {f : Frame} {n : ℕ}
    (h : (encodeFrame f).active.length ≤ n) :
    controllerRead { instance? := some inst, address } (served f n) =
      { frame := f.normalise } := by
  rw [controllerRead_eq, served_of_le h, decodeFrame_padded]

/-- A shorter one yields an error. -/
theorem controllerRead_served_of_lt {f : Frame} {n : ℕ}
    (h : n < (encodeFrame f).active.length) :
    (controllerRead { instance? := some inst, address } (served f n)).ok = false := by
  obtain ⟨hpart, hne⟩ := served_of_lt h
  rw [controllerRead_eq]
  exact decodeFrame_cut hpart hne

/-- A read that starts with a zero yields an error. -/
theorem controllerRead_of_zero (h : bytes.getD 0 0 = 0) :
    (controllerRead { instance? := some inst, address } bytes).ok = false := by
  rw [controllerRead_eq, Bool.eq_false_iff, ne_eq, decodeFrame_received_iff]
  rintro ⟨p, ⟨rest, rfl⟩, hok⟩
  rw [decodeFrame_ok_iff_error, decodeFrame_ok_iff] at hok
  have hmagic := hok.1.magic
  rw [List.getD_append _ _ _ _ (List.length_pos_iff.mpr hok.1.ne_nil), hmagic] at h
  cases h

end

/-! ### The invariant -/

/-- The bytes of the frame that reads are answered with. -/
def wireBytes (accepted : Option Frame) : List UInt8 :=
  accepted.elim [] fun f => (encodeFrame f).active

namespace I2cPeripheralEndpoint

variable (endpoint : I2cPeripheralEndpoint)

/-- The bytes that a transmit buffer holds. -/
def sending : List UInt8 :=
  (readPair endpoint.txBuffers endpoint.txActiveIndex zeroBuffer).toList.take
    (readPair endpoint.txLengths endpoint.txActiveIndex 0).toNat

/-- All that reads depend on. -/
def txSide : Vector FrameBuffer 2 × Vector UInt8 2 × UInt8 × UInt8 :=
  (endpoint.txBuffers, endpoint.txLengths, endpoint.txActiveIndex, endpoint.txIndex)

theorem txSide_poll : endpoint.poll.1.txSide = endpoint.txSide := by
  unfold poll
  split_ifs <;> rfl

theorem txSide_receiveByte (byte : UInt8) :
    (endpoint.receiveByte byte).txSide = endpoint.txSide := by
  simp only [receiveByte]
  split_ifs <;> rfl

theorem txSide_completeReceiveFromIsr :
    endpoint.completeReceiveFromIsr.txSide = endpoint.txSide := by
  simp only [completeReceiveFromIsr]
  split_ifs <;> rfl

end I2cPeripheralEndpoint

/-- A `publish()` call under way has its frame in the inactive buffer. -/
structure PublishCall.Filled (call : PublishCall) (endpoint : I2cPeripheralEndpoint) : Prop where
  inactive : call.inactive = endpoint.txActiveIndex ^^^ 1
  length : call.length = (encodeFrame call.frame).active.length
  buffer : (readPair endpoint.txBuffers call.inactive zeroBuffer).toList.take call.length =
    (encodeFrame call.frame).active

/-- It stays there while the buffers and their roles stay. -/
theorem PublishCall.Filled.of_same {call : PublishCall}
    {endpoint endpoint' : I2cPeripheralEndpoint} (h : call.Filled endpoint)
    (hbuffers : endpoint'.txBuffers = endpoint.txBuffers)
    (hactive : endpoint'.txActiveIndex = endpoint.txActiveIndex) : call.Filled endpoint' where
  inactive := by
    rw [hactive]
    exact h.inactive
  length := h.length
  buffer := by
    rw [hbuffers]
    exact h.buffer

/-- What holds of the endpoint and the record after every run. -/
structure Serves (s : EndpointThread) (log : ReadLog) : Prop where
  activeIndex : s.endpoint.txActiveIndex.toNat < 2
  length : (readPair s.endpoint.txLengths s.endpoint.txActiveIndex 0).toNat =
    (wireBytes log.accepted).length
  sending : s.endpoint.sending = wireBytes log.accepted
  publishing : ∀ call, s.publishing = some call → call.Filled s.endpoint
  /-- The read index never passes the end. -/
  index : s.endpoint.txIndex.toNat ≤ (wireBytes log.accepted).length
  /-- Between transactions the read index is zero. -/
  between : log.bytes = [] → s.endpoint.txIndex = 0
  /-- No other frame is accepted while one is served. -/
  serving : log.bytes ≠ [] → ∀ f, log.atFirstByte = some f → log.accepted = some f ∧
    log.bytes = served f log.bytes.length ∧
    s.endpoint.txIndex.toNat = min log.bytes.length (encodeFrame f).active.length
  /-- Before the first frame is accepted, zeros are served. -/
  unserved : log.bytes ≠ [] → log.atFirstByte = none → log.bytes.getD 0 0 = 0

theorem length_encodeFrame_active_le (f : Frame) :
    (encodeFrame f).active.length ≤ kMaxEncodedFrameSize := by
  have hle := f.messageLength_le
  have hsizes := sizes
  rw [length_encodeFrame_active]
  omega

theorem encodeFrame_active_pos (f : Frame) : 0 < (encodeFrame f).active.length :=
  List.length_pos_iff.mpr (encodeFrame_shaped f).ne_nil

namespace Serves

variable {s : EndpointThread} {log : ReadLog}

theorem start : Serves {} {} where
  activeIndex := by decide
  length := congrArg UInt8.toNat readPair_replicate
  sending := by
    have hlength : readPair ({} : I2cPeripheralEndpoint).txLengths 0 0 = 0 := readPair_replicate
    unfold I2cPeripheralEndpoint.sending
    show (readPair ({} : I2cPeripheralEndpoint).txBuffers 0 zeroBuffer).toList.take
      (readPair ({} : I2cPeripheralEndpoint).txLengths 0 0).toNat = []
    rw [hlength]
    rfl
  publishing _ h := nomatch h
  index := by decide
  between _ := rfl
  serving h := absurd rfl h
  unserved h := absurd rfl h

/-! ### Publishing -/

/-- An encoding always fits a buffer. -/
theorem beginPublish_eq (endpoint : I2cPeripheralEndpoint) (frame : Frame) :
    endpoint.beginPublish frame =
      ({ endpoint with
          txBuffers := writePair endpoint.txBuffers (endpoint.txActiveIndex ^^^ 1)
            (copyAt (readPair endpoint.txBuffers (endpoint.txActiveIndex ^^^ 1) zeroBuffer) 0
              (encodeFrame frame).active) },
        some ⟨frame, endpoint.txActiveIndex ^^^ 1, (encodeFrame frame).active.length⟩) := by
  have hle := length_encodeFrame_active_le frame
  have hpos := encodeFrame_active_pos frame
  unfold I2cPeripheralEndpoint.beginPublish
  simp only [encodeFrame_length]
  rw [if_neg (by omega)]

theorem beginPublish (h : Serves s log) (frame : Frame) :
    Serves (s.step (.beginPublish frame)).1 (log.note (s.step (.beginPublish frame)).2) := by
  simp only [EndpointThread.step]
  split_ifs with hbusy hbegun
  · exact h
  · -- the inactive buffer is filled, the active one stays
    rw [beginPublish_eq]
    obtain ⟨hflip, hne⟩ := xor_one_of_lt h.activeIndex
    refine ⟨h.activeIndex, h.length, ?_, ?_, h.index, h.between, h.serving, h.unserved⟩
    · unfold I2cPeripheralEndpoint.sending
      simp only [readPair_writePair hflip, if_neg hne.symm]
      exact h.sending
    · intro call hcall
      obtain rfl := Option.some.inj hcall
      refine ⟨rfl, rfl, ?_⟩
      have hcopy := take_copyAt (readPair s.endpoint.txBuffers (s.endpoint.txActiveIndex ^^^ 1)
        zeroBuffer) 0 (encodeFrame frame).active
        (by rw [Nat.zero_add]; exact length_encodeFrame_active_le frame)
      rw [Nat.zero_add, List.take_zero, List.nil_append] at hcopy
      simp only [readPair_writePair hflip, if_true]
      exact hcopy
  · rw [beginPublish_eq] at hbegun
    exact absurd rfl hbegun

/-- The critical section of `publish()` when no byte of a transaction is served: the
buffers swap roles. -/
theorem commitPublish_of_idle (h : Serves s log) {call : PublishCall}
    (hcall : s.publishing = some call) (hindex : s.endpoint.txIndex = 0) :
    Serves { endpoint := (s.endpoint.commitPublish call).1, publishing := none }
      { log with accepted := some call.frame } := by
  obtain ⟨hinactive, hlength, hbuffer⟩ := h.publishing call hcall
  obtain ⟨hflip, hne⟩ := xor_one_of_lt h.activeIndex
  rw [← hinactive] at hflip
  have hle := length_encodeFrame_active_le call.frame
  have hsize : (UInt8.ofNat call.length).toNat = (encodeFrame call.frame).active.length := by
    have hsizes := sizes
    rw [UInt8.toNat_ofNat', hlength, Nat.mod_eq_of_lt (by omega)]
  have hread : readPair (writePair s.endpoint.txLengths call.inactive
      (UInt8.ofNat call.length)) call.inactive 0 = UInt8.ofNat call.length := by
    rw [readPair_writePair hflip, if_pos rfl]
  simp only [I2cPeripheralEndpoint.commitPublish]
  rw [if_neg (not_not.mpr hindex)]
  refine ⟨hflip, ?_, ?_, fun _ hnone => absurd hnone.symm (Option.some_ne_none _), ?_,
    fun _ => hindex, ?_, h.unserved⟩
  · simp only [hread, hsize]
    rfl
  · unfold I2cPeripheralEndpoint.sending
    simp only [hread, hsize]
    rw [← hlength]
    exact hbuffer
  · rw [hindex]
    exact Nat.zero_le _
  · -- a transaction that is served has moved the read index
    intro hbytes f hf
    have hserved := (h.serving hbytes f hf).2.2
    have hpos := encodeFrame_active_pos f
    have hsome : 0 < log.bytes.length := List.length_pos_iff.mpr hbytes
    have hzero : s.endpoint.txIndex.toNat = 0 := congrArg UInt8.toNat hindex
    omega

theorem commitPublish (h : Serves s log) :
    Serves (s.step .commitPublish).1 (log.note (s.step .commitPublish).2) := by
  simp only [EndpointThread.step]
  cases hcall : s.publishing with
  | none => exact h
  | some call =>
    by_cases hindex : s.endpoint.txIndex = 0
    · have haccepted : (s.endpoint.commitPublish call).2 = true := by
        simp only [I2cPeripheralEndpoint.commitPublish]
        rw [if_neg (not_not.mpr hindex)]
      show Serves { endpoint := (s.endpoint.commitPublish call).1, publishing := none }
        (log.note (.published call.frame (s.endpoint.commitPublish call).2))
      rw [haccepted]
      exact h.commitPublish_of_idle hcall hindex
    · -- refused: the buffers keep their roles
      simp only [I2cPeripheralEndpoint.commitPublish]
      rw [if_pos hindex]
      exact ⟨h.activeIndex, h.length, h.sending,
        fun _ hnone => absurd hnone.symm (Option.some_ne_none _), h.index, h.between, h.serving,
        h.unserved⟩

/-! ### The receive side -/

/-- Work on the receive side does not concern reads. -/
theorem of_txSide (h : Serves s log) {endpoint : I2cPeripheralEndpoint}
    (hside : endpoint.txSide = s.endpoint.txSide) : Serves { s with endpoint } log := by
  cases endpoint
  obtain ⟨rfl, rfl, rfl, rfl⟩ : _ = s.endpoint.txBuffers ∧ _ = s.endpoint.txLengths ∧
      _ = s.endpoint.txActiveIndex ∧ _ = s.endpoint.txIndex := by
    simpa only [I2cPeripheralEndpoint.txSide, Prod.mk.injEq] using hside
  exact ⟨h.activeIndex, h.length, h.sending,
    fun call hcall => (h.publishing call hcall).of_same rfl rfl, h.index, h.between, h.serving,
    h.unserved⟩

/-! ### Reading -/

/-- The end of a read transaction. -/
theorem endRead (h : Serves s log) :
    Serves { s with endpoint := { s.endpoint with txIndex := 0 } } { log with bytes := [] } where
  activeIndex := h.activeIndex
  length := h.length
  sending := h.sending
  publishing call hcall := (h.publishing call hcall).of_same rfl rfl
  index := Nat.zero_le _
  between _ := rfl
  serving hne := absurd rfl hne
  unserved hne := absurd rfl hne

/-- The handler serves the byte at the read index, and zeros from the end on. -/
theorem nextTxByte (h : Serves s log) :
    ∃ index : UInt8,
      index.toNat = min (s.endpoint.txIndex.toNat + 1) (wireBytes log.accepted).length ∧
      s.endpoint.nextTxByte = ({ s.endpoint with txIndex := index },
        (wireBytes log.accepted).getD s.endpoint.txIndex.toNat 0) := by
  have hlength := h.length
  have hindex := h.index
  have hbounded := UInt8.toNat_lt (readPair s.endpoint.txLengths s.endpoint.txActiveIndex 0)
  unfold I2cPeripheralEndpoint.nextTxByte
  by_cases hlt : s.endpoint.txIndex <
      readPair s.endpoint.txLengths s.endpoint.txActiveIndex 0
  · have hnat := UInt8.lt_iff_toNat_lt.mp hlt
    rw [if_pos hlt]
    refine ⟨s.endpoint.txIndex + 1, ?_, congrArg _ ?_⟩
    · rw [UInt8.toNat_add, UInt8.toNat_one, Nat.mod_eq_of_lt (by omega)]
      omega
    · -- within the length the buffer holds the encoding
      rw [← h.sending, I2cPeripheralEndpoint.sending, List.getD_eq_getElem?_getD,
        List.getElem?_take_of_lt hnat, Vector.getElem?_toList, Vector.getD,
        Array.getD_eq_getD_getElem?, Vector.getElem?_toArray]
  · have hnat := UInt8.lt_iff_toNat_lt.not.mp hlt
    rw [if_neg hlt]
    refine ⟨s.endpoint.txIndex, by omega, congrArg _ ?_⟩
    rw [List.getD_eq_default _ _ (by omega)]

/-- With one more byte, what is served is still the beginning of one frame. -/
theorem serving_succ (h : Serves s log) {index : UInt8}
    (hindex : index.toNat = min (s.endpoint.txIndex.toNat + 1) (wireBytes log.accepted).length)
    {f : Frame} (hf : (if log.bytes = [] then log.accepted else log.atFirstByte) = some f) :
    log.accepted = some f ∧
      log.bytes ++ [(wireBytes log.accepted).getD s.endpoint.txIndex.toNat 0] =
        served f (log.bytes.length + 1) ∧
      index.toNat = min (log.bytes.length + 1) (encodeFrame f).active.length := by
  by_cases hnil : log.bytes = []
  · -- the first byte of a transaction
    rw [if_pos hnil] at hf
    rw [h.between hnil, hf] at hindex
    rw [h.between hnil, hnil, List.length_nil, served_succ,
      List.eq_nil_of_length_eq_zero (length_served f 0), hf]
    exact ⟨rfl, rfl, hindex⟩
  · rw [if_neg hnil] at hf
    obtain ⟨haccepted, hbytes, htxIndex⟩ := h.serving hnil f hf
    have hwire : wireBytes log.accepted = (encodeFrame f).active := by
      rw [haccepted]
      rfl
    rw [hwire] at hindex ⊢
    refine ⟨haccepted, ?_, by omega⟩
    rw [served_succ, ← hbytes, htxIndex]
    congr 2
    -- past the end the read index stays
    rcases Nat.le_total log.bytes.length (encodeFrame f).active.length with hle | hge
    · rw [Nat.min_eq_left hle]
    · rw [Nat.min_eq_right hge, List.getD_eq_default _ _ le_rfl, List.getD_eq_default _ _ hge]

/-- Without a frame, what is served still begins with a zero. -/
theorem unserved_succ (h : Serves s log)
    (hnone : (if log.bytes = [] then log.accepted else log.atFirstByte) = none) :
    (log.bytes ++ [(wireBytes log.accepted).getD s.endpoint.txIndex.toNat 0]).getD 0 0 = 0 := by
  by_cases hnil : log.bytes = []
  · rw [if_pos hnil] at hnone
    rw [hnil, hnone]
    rfl
  · rw [if_neg hnil] at hnone
    rw [List.getD_append _ _ _ _ (List.length_pos_iff.mpr hnil)]
    exact h.unserved hnil hnone

theorem rdReq (h : Serves s log) :
    Serves (s.step (.irq .rdReq)).1 (log.note (s.step (.irq .rdReq)).2) := by
  obtain ⟨index, hindex, hnext⟩ := h.nextTxByte
  rw [EndpointThread.step_rdReq, hnext]
  refine ⟨h.activeIndex, h.length, h.sending,
    fun call hcall => (h.publishing call hcall).of_same rfl rfl, ?_, ?_, ?_, ?_⟩
  · show index.toNat ≤ (wireBytes log.accepted).length
    omega
  · intro hnil
    exact absurd hnil (List.append_ne_nil_of_right_ne_nil _ (List.cons_ne_nil _ _))
  · intro _ f hf
    simp only [ReadLog.note] at hf ⊢
    rw [List.length_append, List.length_singleton]
    exact h.serving_succ hindex hf
  · intro _ hnone
    simp only [ReadLog.note] at hnone ⊢
    exact h.unserved_succ hnone

/-- **Every atomic step keeps the invariant.** -/
protected theorem step (h : Serves s log) (op : EndpointOp) :
    Serves (s.step op).1 (log.note (s.step op).2) := by
  cases op with
  | beginPublish frame => exact h.beginPublish frame
  | commitPublish => exact h.commitPublish
  | poll => exact h.of_txSide s.endpoint.txSide_poll
  | irq event =>
    cases event with
    | rxFull byte => exact h.of_txSide (s.endpoint.txSide_receiveByte byte)
    | rdReq => exact h.rdReq
    | stopDet => exact (h.of_txSide s.endpoint.txSide_completeReceiveFromIsr).endRead
    | txAbrt => exact h.endRead
    | rxOver => exact h.of_txSide rfl

end Serves

/-- The invariant holds after every run. -/
theorem serves_after (ops : List EndpointOp) : Serves (endpointAfter ops) (readLog ops) := by
  induction ops using List.reverseRecOn with
  | nil => exact Serves.start
  | append_singleton ops op ih =>
    rw [endpointAfter_concat, readLog_concat]
    exact ih.step op

/-- A frame is recorded when `publish()` has accepted it. -/
theorem published_of_recorded (ops : List EndpointOp) (f : Frame)
    (h : (readLog ops).accepted = some f ∨ (readLog ops).atFirstByte = some f) :
    .published f true ∈ endpointReplies ops := by
  induction ops using List.reverseRecOn with
  | nil => exact h.elim nofun nofun
  | append_singleton ops op ih =>
    rw [readLog_concat] at h
    rw [endpointReplies_concat, List.mem_append, List.mem_singleton]
    revert h
    generalize ((endpointAfter ops).step op).2 = reply
    fun_cases ReadLog.note (readLog ops) reply with
    | case1 frame =>
      rintro (h | h)
      · rw [Option.some.inj h]
        exact .inr rfl
      · exact .inl (ih (.inr h))
    | case2 transmitted =>
      rintro (h | h)
      · exact .inl (ih (.inl h))
      · simp only at h
        split_ifs at h
        · exact .inl (ih (.inl h))
        · exact .inl (ih (.inr h))
    | case3 => exact fun h => .inl (ih h)
    | case4 => exact fun h => .inl (ih h)
    | case5 => exact fun h => .inl (ih h)

/-! ### The theorem -/

/-- The read transaction under way at the end of a run, which is any read
transaction of any run just before it ends, gives the controller the frame that
`publish()` had accepted last before its first byte if it is long enough for it
(`whole`), and an error otherwise (`failed`); so the controller only ever obtains
frames that `publish()` has accepted (`published`). -/
theorem torn_free_read (inst : I2cInst) (address : UInt8) (ops : List EndpointOp) :
    let log := readLog ops
    let obtained := controllerRead { instance? := some inst, address } log.bytes
    (∀ f, log.atFirstByte = some f → (encodeFrame f).active.length ≤ log.bytes.length →
      obtained = { frame := f.normalise }) ∧
    ((∀ f, log.atFirstByte = some f → log.bytes.length < (encodeFrame f).active.length) →
      obtained.ok = false) ∧
    (obtained.ok →
      ∃ f, .published f true ∈ endpointReplies ops ∧ obtained.frame = f.normalise) := by
  intro log obtained
  have hserves := serves_after ops
  have hwhole : ∀ f, log.atFirstByte = some f →
      (encodeFrame f).active.length ≤ log.bytes.length → obtained = { frame := f.normalise } := by
    intro f hf hle
    have hbytes : log.bytes ≠ [] :=
      List.length_pos_iff.mp ((encodeFrame_active_pos f).trans_le hle)
    show controllerRead _ log.bytes = _
    rw [(hserves.serving hbytes f hf).2.1]
    exact controllerRead_served_of_le inst address hle
  have hfailed : (∀ f, log.atFirstByte = some f →
      log.bytes.length < (encodeFrame f).active.length) → obtained.ok = false := by
    intro hshort
    by_cases hnil : log.bytes = []
    · exact controllerRead_of_zero inst address (by rw [hnil]; rfl)
    cases hf : log.atFirstByte with
    | none => exact controllerRead_of_zero inst address (hserves.unserved hnil hf)
    | some f =>
      show (controllerRead _ log.bytes).ok = false
      rw [(hserves.serving hnil f hf).2.1]
      exact controllerRead_served_of_lt inst address (hshort f hf)
  refine ⟨hwhole, hfailed, fun hok => ?_⟩
  by_contra hnone
  refine Bool.eq_false_iff.mp (hfailed fun f hf => ?_) hok
  by_contra hlong
  refine hnone ⟨f, published_of_recorded ops f (.inr hf), ?_⟩
  rw [hwhole f hf (Nat.le_of_not_lt hlong)]

end PicoMesh
