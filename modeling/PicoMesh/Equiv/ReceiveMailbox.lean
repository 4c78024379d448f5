import Mathlib.Data.List.Induction
import PicoMesh.Equiv.Frame
import PicoMesh.Library.Mailbox
import PicoMesh.PeripheralEndpoint

/-!
# The receive double buffer refines a one-place mailbox

`writeMailbox` is what the receive side is for: write transactions are collected
byte by byte, each completed one is offered to a `Mailbox`, and every poll takes
what is there.  `Holds` relates an endpoint to it through the two buffers, their
lengths and the indices, and every atomic step keeps that relation
(`holds_step`): the write buffer holds the beginning of the current write, and
an unread message is in the other buffer.  `receive_refines_mailbox` reads the
statement about runs off it.
-/

namespace PicoMesh

/-! ### Pairs -/

section Pair

variable {α : Type} {pair : Vector α 2} {i j : UInt8} {value default : α}

/-- A write to one of a pair, read back. -/
theorem readPair_writePair (hi : i.toNat < 2) :
    readPair (writePair pair i value) j default =
      if j = i then value else readPair pair j default := by
  unfold readPair writePair Vector.getD
  rw [Vector.toArray_setIfInBounds, Array.getD_eq_getD_getElem?, Array.getD_eq_getD_getElem?,
    Array.getElem?_setIfInBounds, Vector.size_toArray]
  by_cases hij : j = i
  · rw [if_pos (congrArg _ hij.symm), if_pos hij, if_pos hi, Option.getD_some]
  · rw [if_neg (fun h => hij (UInt8.toNat_inj.mp h.symm)), if_neg hij]

theorem readPair_replicate : readPair (Vector.replicate 2 value) i value = value := by
  unfold readPair Vector.getD
  rw [Array.getD_eq_getD_getElem?, Vector.toArray_replicate, Array.getElem?_replicate]
  split_ifs <;> rfl

/-- The other index of a pair. -/
theorem xor_one_of_lt (hi : i.toNat < 2) : (i ^^^ 1).toNat < 2 ∧ i ^^^ 1 ≠ i := by
  have hcases : i = 0 ∨ i = 1 := by
    rw [← UInt8.toNat_inj, ← UInt8.toNat_inj]
    show i.toNat = 0 ∨ i.toNat = 1
    omega
  rcases hcases with rfl | rfl <;> decide

end Pair

/-! ### The mailbox of writes -/

/-- The write transactions of a run: the non-empty ones that are complete, and the
bytes of the current one. -/
structure WriteLog where
  completed : List (List UInt8) := []
  current : List UInt8 := []
  /-- How many bytes did not fit a receive buffer or the FIFO. -/
  spilled : ℕ := 0
  deriving DecidableEq, Repr

/-- The write transactions after a step. -/
def WriteLog.note (log : WriteLog) : EndpointOp → WriteLog
  | .irq (.rxFull byte) =>
    { log with
      current := log.current ++ [byte]
      spilled :=
        if log.current.length < kMaxEncodedFrameSize then log.spilled else log.spilled + 1 }
  | .irq .stopDet =>
    if log.current = [] then log
    else { log with completed := log.completed ++ [log.current], current := [] }
  | .irq .rxOver => { log with spilled := log.spilled + 1 }
  | _ => log

theorem WriteLog.note_rxFull (log : WriteLog) (byte : UInt8) :
    log.note (.irq (.rxFull byte)) =
      { log with
        current := log.current ++ [byte]
        spilled :=
          if log.current.length < kMaxEncodedFrameSize then log.spilled else log.spilled + 1 } :=
  rfl

theorem WriteLog.note_stopDet (log : WriteLog) :
    log.note (.irq .stopDet) =
      if log.current = [] then log
      else { log with completed := log.completed ++ [log.current], current := [] } :=
  rfl

/-- The write transactions of a run of steps. -/
def writeLog (ops : List EndpointOp) : WriteLog := ops.foldl WriteLog.note {}

theorem writeLog_concat (ops : List EndpointOp) (op : EndpointOp) :
    writeLog (ops ++ [op]) = (writeLog ops).note op :=
  List.foldl_concat _ _ _ _

/-- A mailbox for writes. -/
structure WriteMailbox where
  log : WriteLog := {}
  mailbox : Mailbox (List UInt8) := .empty

/-- One step: a completed write is offered, as far as it is kept; a poll takes what
is pending and answers with it. -/
def WriteMailbox.step (keep : List UInt8 → List UInt8) (s : WriteMailbox) :
    EndpointOp → WriteMailbox × Option (List UInt8)
  | .irq .stopDet =>
    ({ log := s.log.note (.irq .stopDet)
       mailbox := if s.log.current = [] then s.mailbox else s.mailbox.offer (keep s.log.current) },
      none)
  | .poll => ({ s with mailbox := s.mailbox.take }, s.mailbox.pending)
  | op => ({ s with log := s.log.note op }, none)

/-- The mailbox that keeps what `keep` keeps of every write. -/
def writeMailbox (keep : List UInt8 → List UInt8) :
    Mealy WriteMailbox EndpointOp (Option (List UInt8)) where
  start := {}
  step := WriteMailbox.step keep

/-- The bytes of a write that fit a receive buffer. -/
def fitting (write : List UInt8) : List UInt8 := write.take kMaxEncodedFrameSize

theorem fitting_append (write : List UInt8) (byte : UInt8) :
    fitting (write ++ [byte]) =
      if write.length < kMaxEncodedFrameSize then fitting write ++ [byte] else fitting write := by
  unfold fitting
  split_ifs with hroom
  · rw [List.take_of_length_le (by simp; omega), List.take_of_length_le (by omega)]
  · rw [List.take_append_of_le_length (by omega)]

theorem fitting_eq_nil_iff (write : List UInt8) : fitting write = [] ↔ write = [] := by
  have hsizes := sizes
  rw [fitting, List.take_eq_nil_iff]
  constructor
  · rintro (hzero | hnil)
    · omega
    · exact hnil
  · exact Or.inr

/-- The mailbox after a run. -/
def writeMailboxAfter (keep : List UInt8 → List UInt8) (ops : List EndpointOp) : WriteMailbox :=
  (writeMailbox keep).run (writeMailbox keep).start ops

theorem writeMailboxAfter_concat (keep : List UInt8 → List UInt8) (ops : List EndpointOp)
    (op : EndpointOp) :
    writeMailboxAfter keep (ops ++ [op]) = ((writeMailboxAfter keep ops).step keep op).1 :=
  Mealy.run_concat _ _ _ _

/-- Every step notes the writes, and offers what it completes. -/
theorem WriteMailbox.step_log (keep : List UInt8 → List UInt8) (s : WriteMailbox)
    (op : EndpointOp) : (s.step keep op).1.log = s.log.note op := by
  cases op with
  | irq event => cases event <;> rfl
  | _ => rfl

/-- What a step answers is what it takes. -/
theorem WriteMailbox.step_taken (keep : List UInt8 → List UInt8) (s : WriteMailbox)
    (op : EndpointOp) :
    (s.step keep op).1.mailbox.taken = s.mailbox.taken ++ (s.step keep op).2.toList := by
  cases op with
  | poll => rfl
  | irq event =>
    cases event with
    | stopDet =>
      simp only [WriteMailbox.step, Option.toList_none, List.append_nil]
      split_ifs
      · rfl
      · exact Mailbox.taken_offer
    | _ => exact (List.append_nil _).symm
  | _ => exact (List.append_nil _).symm

/-- Only a poll takes an unread message away. -/
theorem WriteMailbox.step_pending (keep : List UInt8 → List UInt8) (s : WriteMailbox)
    {op : EndpointOp} (hop : op ≠ .poll) {message : List UInt8}
    (h : s.mailbox.pending = some message) :
    (s.step keep op).1.mailbox.pending = some message := by
  cases op with
  | poll => exact absurd rfl hop
  | irq event =>
    cases event with
    | stopDet =>
      simp only [WriteMailbox.step]
      split_ifs
      · exact h
      · exact Mailbox.pending_offer_of_some h
    | _ => exact h
  | _ => exact h

theorem log_writeMailboxAfter (keep : List UInt8 → List UInt8) (ops : List EndpointOp) :
    (writeMailboxAfter keep ops).log = writeLog ops := by
  induction ops using List.reverseRecOn with
  | nil => rfl
  | append_singleton ops op ih =>
    rw [writeMailboxAfter_concat, writeLog_concat, WriteMailbox.step_log, ih]

/-- What is offered is what is kept of the completed writes. -/
theorem offered_writeMailboxAfter (keep : List UInt8 → List UInt8) (ops : List EndpointOp) :
    (writeMailboxAfter keep ops).mailbox.offered = (writeLog ops).completed.map keep := by
  induction ops using List.reverseRecOn with
  | nil => rfl
  | append_singleton ops op ih =>
    have hlog := log_writeMailboxAfter keep ops
    rw [writeMailboxAfter_concat, writeLog_concat, ← hlog]
    rw [← hlog] at ih
    cases op with
    | irq event =>
      cases event with
      | stopDet =>
        simp only [WriteMailbox.step, WriteLog.note_stopDet]
        split_ifs
        · exact ih
        · rw [Mailbox.offered_offer, ih, List.map_append, List.map_singleton]
      | _ => exact ih
    | _ => exact ih

/-! ### The relation -/

namespace I2cPeripheralEndpoint

/-- Every index and every length is within the two buffers. -/
structure InBounds (endpoint : I2cPeripheralEndpoint) : Prop where
  writeIndex : endpoint.rxWriteIndex.toNat < 2
  readyIndex : endpoint.rxReadyIndex.toNat < 2
  length : ∀ i, (readPair endpoint.rxLengths i 0).toNat ≤ kMaxEncodedFrameSize

/-- The endpoint holds what the mailbox holds: the current write in the write
buffer, as far as it fits, and an unread message in the other one. -/
structure Holds (endpoint : I2cPeripheralEndpoint) (s : WriteMailbox) : Prop where
  inBounds : endpoint.InBounds
  receiving : endpoint.receiving = fitting s.log.current
  pending : s.mailbox.pending =
    if endpoint.rxReady then some (endpoint.held endpoint.rxReadyIndex) else none
  apart : endpoint.rxReady = true → endpoint.rxReadyIndex ≠ endpoint.rxWriteIndex

variable {endpoint : I2cPeripheralEndpoint} {s : WriteMailbox}

theorem length_held (h : endpoint.InBounds) (i : UInt8) :
    (endpoint.held i).length = (readPair endpoint.rxLengths i 0).toNat := by
  have hlength := h.length i
  rw [held, List.length_take, Vector.length_toList]
  omega

/-- A buffer whose recorded length is zero holds nothing. -/
theorem held_of_length {i : UInt8} (hlength : readPair endpoint.rxLengths i 0 = 0) :
    endpoint.held i = [] := by
  rw [held, hlength]
  rfl

theorem held_start (i : UInt8) : ({} : I2cPeripheralEndpoint).held i = [] :=
  held_of_length readPair_replicate

theorem inBounds_start : ({} : I2cPeripheralEndpoint).InBounds := by
  refine ⟨by decide, by decide, fun i => ?_⟩
  have hlength : readPair ({} : I2cPeripheralEndpoint).rxLengths i 0 = 0 := readPair_replicate
  rw [hlength]
  decide

theorem holds_start : Holds {} {} where
  inBounds := inBounds_start
  receiving := held_start 0
  pending := rfl
  apart h := nomatch h

/-! ### One byte -/

/-- A byte that fits is appended to the write buffer and to nothing else. -/
theorem held_receiveByte (h : endpoint.InBounds) (byte : UInt8) (i : UInt8)
    (hroom : endpoint.receiving.length < kMaxEncodedFrameSize) :
    (endpoint.receiveByte byte).held i =
      if i = endpoint.rxWriteIndex then endpoint.receiving ++ [byte] else endpoint.held i := by
  have hlength : endpoint.receiving.length = _ := length_held h endpoint.rxWriteIndex
  have hsize : (readPair endpoint.rxLengths endpoint.rxWriteIndex 0).toNat <
      kMaxEncodedFrameSize := by
    omega
  have hnext : (readPair endpoint.rxLengths endpoint.rxWriteIndex 0 + 1).toNat =
      (readPair endpoint.rxLengths endpoint.rxWriteIndex 0).toNat + 1 := by
    have hsizes := sizes
    rw [UInt8.toNat_add, UInt8.toNat_one]
    omega
  unfold receiveByte held
  rw [if_pos hsize]
  simp only [readPair_writePair h.writeIndex]
  split_ifs with hi
  · rw [hnext, Vector.toList_setIfInBounds,
      take_succ_set _ _ _ (by rw [Vector.length_toList]; omega)]
    rfl
  · rfl

/-- A byte that does not fit is counted and changes nothing else. -/
theorem receiveByte_of_full (h : endpoint.InBounds) (byte : UInt8)
    (hfull : ¬endpoint.receiving.length < kMaxEncodedFrameSize) :
    endpoint.receiveByte byte =
      { endpoint with droppedFrames := endpoint.droppedFrames + 1 } := by
  have hlength : endpoint.receiving.length = _ := length_held h endpoint.rxWriteIndex
  unfold receiveByte
  rw [if_neg (by omega)]

theorem InBounds.receiveByte (h : endpoint.InBounds) (byte : UInt8) :
    (endpoint.receiveByte byte).InBounds := by
  simp only [I2cPeripheralEndpoint.receiveByte]
  split_ifs with hroom
  · refine ⟨h.writeIndex, h.readyIndex, fun i => ?_⟩
    show (readPair (writePair endpoint.rxLengths _ _) i 0).toNat ≤ _
    rw [readPair_writePair h.writeIndex]
    split_ifs
    · rw [UInt8.toNat_add, UInt8.toNat_one]
      omega
    · exact h.length i
  · exact ⟨h.writeIndex, h.readyIndex, h.length⟩

/-- The indices and the ready flag are not touched. -/
theorem receiveByte_indices (byte : UInt8) :
    (endpoint.receiveByte byte).rxWriteIndex = endpoint.rxWriteIndex ∧
    (endpoint.receiveByte byte).rxReadyIndex = endpoint.rxReadyIndex ∧
    (endpoint.receiveByte byte).rxReady = endpoint.rxReady := by
  simp only [receiveByte]
  split_ifs <;> exact ⟨rfl, rfl, rfl⟩

theorem Holds.receiveByte (h : endpoint.Holds s) (byte : UInt8) :
    (endpoint.receiveByte byte).Holds { s with log := s.log.note (.irq (.rxFull byte)) } := by
  obtain ⟨hwrite, hready, hflag⟩ := endpoint.receiveByte_indices byte
  have hfits : endpoint.receiving.length < kMaxEncodedFrameSize ↔
      s.log.current.length < kMaxEncodedFrameSize := by
    rw [h.receiving, fitting, List.length_take]
    omega
  refine ⟨h.inBounds.receiveByte byte, ?_, ?_, ?_⟩
  · show (endpoint.receiveByte byte).held (endpoint.receiveByte byte).rxWriteIndex =
      fitting (s.log.current ++ [byte])
    rw [hwrite, fitting_append]
    split_ifs with hroom
    · rw [held_receiveByte h.inBounds byte _ (hfits.mpr hroom), if_pos rfl, h.receiving]
    · rw [receiveByte_of_full h.inBounds byte (fun hlt => hroom (hfits.mp hlt))]
      exact h.receiving
  · rw [hflag, hready]
    show s.mailbox.pending = _
    rw [h.pending]
    split_ifs with hr
    · -- the unread message is in the other buffer
      by_cases hroom : endpoint.receiving.length < kMaxEncodedFrameSize
      · rw [held_receiveByte h.inBounds byte _ hroom, if_neg (h.apart hr)]
      · rw [receiveByte_of_full h.inBounds byte hroom]
        rfl
    · rfl
  · rw [hflag, hready, hwrite]
    exact h.apart

/-! ### The end of a write -/

/-- Nothing has been received exactly when the recorded length is zero. -/
theorem receiving_eq_nil_iff (h : endpoint.InBounds) :
    endpoint.receiving = [] ↔ readPair endpoint.rxLengths endpoint.rxWriteIndex 0 = 0 := by
  rw [← List.length_eq_zero_iff, ← UInt8.toNat_inj]
  exact (length_held h endpoint.rxWriteIndex).symm ▸ Iff.rfl

/-- Setting a recorded length to zero empties that buffer and no other. -/
theorem held_empty {i : UInt8} (hi : i.toNat < 2) (j : UInt8) :
    { endpoint with rxLengths := writePair endpoint.rxLengths i 0 }.held j =
      if j = i then [] else endpoint.held j := by
  unfold held
  simp only [readPair_writePair hi]
  split_ifs <;> rfl

theorem InBounds.empty (h : endpoint.InBounds) {i : UInt8} (hi : i.toNat < 2) :
    { endpoint with rxLengths := writePair endpoint.rxLengths i 0 }.InBounds := by
  refine ⟨h.writeIndex, h.readyIndex, fun j => ?_⟩
  show (readPair (writePair endpoint.rxLengths i 0) j 0).toNat ≤ _
  rw [readPair_writePair hi]
  split_ifs
  · exact Nat.zero_le _
  · exact h.length j

theorem Holds.completeReceiveFromIsr (h : endpoint.Holds s) :
    endpoint.completeReceiveFromIsr.Holds (s.step fitting (.irq .stopDet)).1 := by
  have hreceiving := h.receiving
  have hempty := receiving_eq_nil_iff h.inBounds
  rw [hreceiving, fitting_eq_nil_iff] at hempty
  simp only [WriteMailbox.step, WriteLog.note_stopDet]
  unfold I2cPeripheralEndpoint.completeReceiveFromIsr
  simp only [← hempty]
  by_cases hnil : s.log.current = []
  · -- an empty write
    rw [if_pos hnil, if_pos hnil, if_pos hnil]
    exact h
  rw [if_neg hnil, if_neg hnil, if_neg hnil]
  by_cases hr : endpoint.rxReady = true
  · -- the mailbox is full: the write is discarded
    have hpending := h.pending
    rw [if_pos hr] at hpending
    rw [if_pos hr]
    have hother : endpoint.rxReadyIndex ≠ endpoint.rxWriteIndex := h.apart hr
    obtain ⟨hwrite, hready, hlength⟩ := h.inBounds.empty h.inBounds.writeIndex
    refine ⟨⟨hwrite, hready, hlength⟩, ?_, ?_, h.apart⟩
    · exact (held_empty h.inBounds.writeIndex _).trans (if_pos rfl)
    · rw [Mailbox.pending_offer_of_some hpending, if_pos hr]
      exact congrArg some
        ((held_empty h.inBounds.writeIndex _).trans (if_neg hother)).symm
  · -- the mailbox is empty: the buffers swap roles
    have hpending := h.pending
    rw [if_neg hr] at hpending
    rw [if_neg hr]
    obtain ⟨hflip, hne⟩ := xor_one_of_lt h.inBounds.writeIndex
    obtain ⟨-, -, hlength⟩ := h.inBounds.empty hflip
    refine ⟨⟨hflip, h.inBounds.writeIndex, hlength⟩, ?_, ?_, fun _ => hne.symm⟩
    · exact (held_empty hflip _).trans (if_pos rfl)
    · rw [Mailbox.pending_offer_of_none hpending, if_pos rfl, ← hreceiving]
      exact congrArg some ((held_empty hflip _).trans (if_neg hne.symm)).symm

/-! ### A poll -/

theorem Holds.poll (h : endpoint.Holds s) :
    endpoint.poll.1.Holds (s.step fitting .poll).1 ∧
      endpoint.poll.2.map PolledMessage.bytes = (s.step fitting .poll).2 := by
  have hpending := h.pending
  unfold I2cPeripheralEndpoint.poll
  by_cases hr : endpoint.rxReady = true
  · rw [if_pos hr] at hpending
    rw [if_neg (by rw [hr]; decide)]
    obtain ⟨hwrite, hready, hlength⟩ := h.inBounds.empty h.inBounds.readyIndex
    refine ⟨⟨⟨hwrite, hready, hlength⟩, ?_, rfl, fun hflag => nomatch hflag⟩, hpending.symm⟩
    exact ((held_empty h.inBounds.readyIndex _).trans (if_neg (h.apart hr).symm)).trans h.receiving
  · rw [if_neg hr] at hpending
    rw [if_pos (by rw [Bool.not_eq_true] at hr; rw [hr]; rfl)]
    refine ⟨⟨h.inBounds, h.receiving, ?_, h.apart⟩, hpending.symm⟩
    rw [if_neg hr]
    rfl

/-! ### Steps on the other side -/

/-- The fields that hold received bytes. -/
def receiveSide (endpoint : I2cPeripheralEndpoint) :
    Vector FrameBuffer 2 × Vector UInt8 2 × UInt8 × UInt8 × Bool :=
  (endpoint.rxBuffers, endpoint.rxLengths, endpoint.rxWriteIndex, endpoint.rxReadyIndex,
    endpoint.rxReady)

theorem Holds.of_receiveSide (h : endpoint.Holds s) {endpoint' : I2cPeripheralEndpoint}
    (hside : endpoint'.receiveSide = endpoint.receiveSide) : endpoint'.Holds s := by
  obtain ⟨⟨hwrite, hready, hlength⟩, hreceiving, hpending, hapart⟩ := h
  simp only [receiveSide, Prod.mk.injEq] at hside
  obtain ⟨hbuffers, hlengths, hwriteIndex, hreadyIndex, hflag⟩ := hside
  have hheld : endpoint'.held = endpoint.held := by
    funext i
    rw [held, hbuffers, hlengths, ← held]
  constructor
  · constructor <;> simp only [hwriteIndex, hreadyIndex, hlengths] <;> assumption
  · rw [I2cPeripheralEndpoint.receiving, hheld, hwriteIndex]
    exact hreceiving
  · rw [hflag, hheld, hreadyIndex, hpending]
  · rwa [hflag, hreadyIndex, hwriteIndex]

/-- A read changes nothing on this side, and drops nothing. -/
theorem receive_nextTxByte :
    endpoint.nextTxByte.1.receiveSide = endpoint.receiveSide ∧
      endpoint.nextTxByte.1.droppedFrames = endpoint.droppedFrames := by
  simp only [nextTxByte]
  split_ifs <;> exact ⟨rfl, rfl⟩

end I2cPeripheralEndpoint

/-! ### Runs -/

/-- The bytes that a step hands to `decode_frame`. -/
def EndpointReply.handed : EndpointReply → Option (List UInt8)
  | .polled message => message.map PolledMessage.bytes
  | _ => none

namespace EndpointThread

variable {s : EndpointThread} {m : WriteMailbox}

/-- Neither does a step of `publish()`, which hands nothing over either. -/
theorem receive_step_beginPublish (s : EndpointThread) (frame : Frame) :
    (s.step (.beginPublish frame)).1.endpoint.receiveSide = s.endpoint.receiveSide ∧
      (s.step (.beginPublish frame)).1.endpoint.droppedFrames = s.endpoint.droppedFrames ∧
      (s.step (.beginPublish frame)).2.handed = none := by
  simp only [EndpointThread.step, I2cPeripheralEndpoint.beginPublish]
  split_ifs <;> exact ⟨rfl, rfl, rfl⟩

theorem receive_step_commitPublish (s : EndpointThread) :
    (s.step .commitPublish).1.endpoint.receiveSide = s.endpoint.receiveSide ∧
      (s.step .commitPublish).1.endpoint.droppedFrames = s.endpoint.droppedFrames ∧
      (s.step .commitPublish).2.handed = none := by
  simp only [EndpointThread.step]
  cases s.publishing with
  | none => exact ⟨rfl, rfl, rfl⟩
  | some call =>
    simp only [I2cPeripheralEndpoint.commitPublish]
    split_ifs <;> exact ⟨rfl, rfl, rfl⟩

/-- **Every atomic step keeps the relation**, and hands over what the mailbox
gives. -/
theorem holds_step (h : s.endpoint.Holds m) (op : EndpointOp) :
    (s.step op).1.endpoint.Holds (m.step fitting op).1 ∧
      (s.step op).2.handed = (m.step fitting op).2 := by
  cases op with
  | beginPublish frame =>
    obtain ⟨hside, -, hhanded⟩ := s.receive_step_beginPublish frame
    exact ⟨h.of_receiveSide hside, hhanded⟩
  | commitPublish =>
    obtain ⟨hside, -, hhanded⟩ := s.receive_step_commitPublish
    exact ⟨h.of_receiveSide hside, hhanded⟩
  | poll => exact h.poll
  | irq event =>
    cases event with
    | rxFull byte => exact ⟨h.receiveByte byte, rfl⟩
    | rdReq => exact ⟨h.of_receiveSide I2cPeripheralEndpoint.receive_nextTxByte.1, rfl⟩
    | stopDet => exact ⟨h.completeReceiveFromIsr.of_receiveSide rfl, rfl⟩
    | txAbrt => exact ⟨h.of_receiveSide rfl, rfl⟩
    | rxOver =>
      have hside : (s.step (.irq .rxOver)).1.endpoint.Holds m := h.of_receiveSide rfl
      exact ⟨⟨hside.inBounds, hside.receiving, hside.pending, hside.apart⟩, rfl⟩

end EndpointThread

/-- The endpoint and the mailbox, as a simulation for the library. -/
theorem writeMailbox_simulation :
    Mealy.Simulation (peripheralEndpoint.mapOutput EndpointReply.handed) (writeMailbox fitting) id
      (fun _ _ => True) (fun s m => s.endpoint.Holds m) where
  answer _ _ op h _ := (EndpointThread.holds_step h op).2.symm
  next _ _ op h _ := (EndpointThread.holds_step h op).1

/-- The polls of a run hand over what the mailbox gives, and the endpoint holds what
it holds. -/
theorem refines_after (ops : List EndpointOp) :
    (endpointReplies ops).map EndpointReply.handed =
        (writeMailbox fitting).outputs (writeMailbox fitting).start ops ∧
      (endpointAfter ops).endpoint.Holds (writeMailboxAfter fitting ops) := by
  have hstart : peripheralEndpoint.start.endpoint.Holds (writeMailbox fitting).start :=
    I2cPeripheralEndpoint.holds_start
  have hall : (peripheralEndpoint.mapOutput EndpointReply.handed).Along (fun _ _ => True)
      peripheralEndpoint.start ops := Mealy.along_of_forall _ fun _ _ => trivial
  have houtputs := writeMailbox_simulation.outputs hstart hall
  have hrun := writeMailbox_simulation.run hstart hall
  rw [List.map_id, Mealy.outputs_mapOutput] at houtputs
  rw [List.map_id, Mealy.run_mapOutput] at hrun
  exact ⟨houtputs.symm, hrun⟩

theorem handed_eq (ops : List EndpointOp) :
    (endpointReplies ops).map EndpointReply.handed =
      (writeMailbox fitting).outputs (writeMailbox fitting).start ops :=
  (refines_after ops).1

theorem holds_after (ops : List EndpointOp) :
    (endpointAfter ops).endpoint.Holds (writeMailboxAfter fitting ops) :=
  (refines_after ops).2

/-- The messages that the polls of a run hand to `decode_frame`, in order. -/
def polledMessages (ops : List EndpointOp) : List (List UInt8) :=
  (endpointReplies ops).filterMap EndpointReply.handed

/-- They are the messages taken from the mailbox. -/
theorem polledMessages_eq (ops : List EndpointOp) :
    polledMessages ops = (writeMailboxAfter fitting ops).mailbox.taken := by
  induction ops using List.reverseRecOn with
  | nil => rfl
  | append_singleton ops op ih =>
    have hhanded := (EndpointThread.holds_step (holds_after ops) op).2
    rw [polledMessages, endpointReplies_concat, List.filterMap_append, ← polledMessages, ih,
      writeMailboxAfter_concat, WriteMailbox.step_taken, ← hhanded]
    rfl

/-- The message that the next poll would hand over. -/
def I2cPeripheralEndpoint.pendingMessage (endpoint : I2cPeripheralEndpoint) :
    Option (List UInt8) :=
  if endpoint.rxReady then some (endpoint.held endpoint.rxReadyIndex) else none

theorem pendingMessage_eq (ops : List EndpointOp) :
    (endpointAfter ops).endpoint.pendingMessage =
      (writeMailboxAfter fitting ops).mailbox.pending :=
  (holds_after ops).pending.symm

/-- **The receive double buffer refines a one-place mailbox.**  The polls of any run
hand to `decode_frame` what a mailbox gives that stores the first 40 bytes of a
completed write if it is empty and discards the write otherwise.  So each
message is the beginning of one write, messages come in the order of the writes
and at most once each, nothing but a poll changes an unread message, and all
indices stay within the two buffers. -/
theorem receive_refines_mailbox (ops : List EndpointOp) :
    (endpointReplies ops).map EndpointReply.handed =
      (writeMailbox fitting).outputs (writeMailbox fitting).start ops ∧
    (polledMessages ops).Sublist ((writeLog ops).completed.map fitting) ∧
    (∀ op message, op ≠ .poll → (endpointAfter ops).endpoint.pendingMessage = some message →
      (endpointAfter (ops ++ [op])).endpoint.pendingMessage = some message) ∧
    (endpointAfter ops).endpoint.InBounds := by
  refine ⟨handed_eq ops, ?_, ?_, (holds_after ops).inBounds⟩
  · rw [polledMessages_eq, ← offered_writeMailboxAfter]
    exact Mailbox.taken_sublist _
  · intro op message hop hpending
    rw [pendingMessage_eq] at hpending ⊢
    rw [writeMailboxAfter_concat]
    exact WriteMailbox.step_pending fitting _ hop hpending

end PicoMesh
