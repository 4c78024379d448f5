import Mathlib.Data.List.ReduceOption
import PicoMesh.Equiv.ReceiveMailbox

/-!
# What interrupt latency changes

`interruptSchedule` lets received bytes and a STOP wait for the handler.  A call
of the handler reads one byte before it completes the write, so a STOP that finds
two unread bytes cuts the write off, and a STOP without an unread byte takes
along a first byte of the next write that arrives before the handler runs.
`Unhurried` excludes exactly these two.  `Lags` ties the endpoint to the writes on
the bus: they are ahead of it by the unread bytes, and every unhurried step keeps
that (`Lags.step`).  So the strings completed by an unhurried schedule are those
of the schedule that runs the handler after every event
(`latency_irrelevant`).
-/

namespace PicoMesh

/-! ### Schedules -/

/-- The non-empty strings that `complete_receive_from_isr()` completes in a
schedule, in order. -/
def completedStrings (ops : List ScheduleOp) : List (List UInt8) :=
  (interruptSchedule.outputs interruptSchedule.start ops).reduceOption

/-- The same events, with the handler running after every byte and every STOP. -/
def immediately (ops : List ScheduleOp) : List ScheduleOp :=
  ops.flatMap fun
    | .arrive byte => [.arrive byte, .irq]
    | .stop => [.stop, .irq]
    | .irq => []
    | .poll => [.poll]

/-- A STOP occurs when the previous one has been serviced. -/
def Serviced (s : AttachedEndpoint) (op : ScheduleOp) : Prop :=
  op = .stop → s.hw.stopDet = false

/-- No event waits for the handler. -/
def AttachedEndpoint.Settled (s : AttachedEndpoint) : Prop :=
  s.hw.rxFifo = [] ∧ s.hw.stopDet = false

/-- A STOP finds at most one unread byte, and if it finds none the handler runs
before the next byte arrives. -/
def Unhurried (s : AttachedEndpoint) : ScheduleOp → Prop
  | .arrive _ => s.hw.stopDet = true → s.hw.rxFifo ≠ []
  | .stop => s.hw.rxFifo.length ≤ 1
  | .irq => True
  | .poll => True

instance (s : AttachedEndpoint) (op : ScheduleOp) : Decidable (Serviced s op) :=
  inferInstanceAs (Decidable (op = .stop → s.hw.stopDet = false))

instance (s : AttachedEndpoint) : Decidable s.Settled :=
  inferInstanceAs (Decidable (s.hw.rxFifo = [] ∧ s.hw.stopDet = false))

instance (s : AttachedEndpoint) : ∀ op, Decidable (Unhurried s op)
  | .arrive _ => inferInstanceAs (Decidable (s.hw.stopDet = true → s.hw.rxFifo ≠ []))
  | .stop => inferInstanceAs (Decidable (s.hw.rxFifo.length ≤ 1))
  | .irq => .isTrue trivial
  | .poll => .isTrue trivial

/-- The write transactions after an event of a schedule. -/
def WriteLog.observe (log : WriteLog) : ScheduleOp → WriteLog
  | .arrive byte => log.note (.irq (.rxFull byte))
  | .stop => log.note (.irq .stopDet)
  | .irq => log
  | .poll => log

/-- The write transactions of a schedule. -/
def scheduledWrites (ops : List ScheduleOp) : WriteLog := ops.foldl WriteLog.observe {}

/-! ### A call of the handler -/

namespace AttachedEndpoint

/-- Only received bytes and a STOP are pending. -/
structure Receiving (s : AttachedEndpoint) : Prop where
  rdReq : s.hw.rdReq = false
  txAbrt : s.hw.txAbrt = false
  rxOver : s.hw.rxOver = false

variable {s : AttachedEndpoint} {m : WriteMailbox}

/-- The state after the RX_FULL branch. -/
def read (s : AttachedEndpoint) : AttachedEndpoint := if s.hw.rxFifo = [] then s else s.serveRxFull

theorem handleIrq_of_receiving (h : s.Receiving) :
    s.handleIrq = if s.hw.stopDet then s.read.serveStopDet else s.read := by
  obtain ⟨hrdReq, htxAbrt, hrxOver⟩ := h
  unfold handleIrq read
  simp only [I2cHw.rawIntrStat, hrdReq, htxAbrt, hrxOver, Bool.false_eq_true, if_false,
    Bool.not_eq_true', List.isEmpty_eq_false_iff, ne_eq, ite_not]

theorem completes_eq (s : AttachedEndpoint) :
    s.completes = if s.hw.stopDet ∧ s.read.endpoint.receiving ≠ [] then
      some s.read.endpoint.receiving else none := by
  unfold completes read
  simp only [I2cHw.rawIntrStat, Bool.not_eq_true', List.isEmpty_eq_false_iff, ne_eq, ite_not]

/-- The handler reads one byte, if there is one. -/
theorem holds_read (h : s.endpoint.Holds m) :
    ∃ m' : WriteMailbox, s.read.endpoint.Holds m' ∧ m'.log.completed = m.log.completed ∧
      m'.log.current = m.log.current ++ s.hw.rxFifo.take 1 := by
  unfold read
  cases hfifo : s.hw.rxFifo with
  | nil => exact ⟨m, h, rfl, (List.append_nil _).symm⟩
  | cons byte rest =>
    have hbyte : s.hw.dataCmd = byte := by
      rw [I2cHw.dataCmd, hfifo]
      rfl
    refine ⟨(m.step fitting (.irq (.rxFull byte))).1, ?_, rfl, rfl⟩
    rw [if_neg (List.cons_ne_nil _ _), serveRxFull, hbyte]
    exact h.receiveByte byte

theorem hw_read (s : AttachedEndpoint) :
    s.read.hw = { s.hw with rxFifo := s.hw.rxFifo.tail } := by
  unfold read
  split_ifs with hnil
  · rw [hnil, List.tail_nil, ← hnil]
  · rfl

theorem Receiving.read (h : s.Receiving) : s.read.Receiving := by
  constructor <;> rw [hw_read]
  · exact h.rdReq
  · exact h.txAbrt
  · exact h.rxOver

theorem Receiving.step (h : s.Receiving) (op : ScheduleOp) : (s.step op).1.Receiving := by
  cases op with
  | irq =>
    show s.handleIrq.Receiving
    rw [handleIrq_of_receiving h]
    obtain ⟨hrdReq, htxAbrt, hrxOver⟩ := h.read
    split_ifs <;> exact ⟨hrdReq, htxAbrt, hrxOver⟩
  | _ => exact ⟨h.rdReq, h.txAbrt, h.rxOver⟩

/-- One call is enough for a byte and a STOP. -/
theorem Receiving.settled_handleIrq (h : s.Receiving) (hone : s.hw.rxFifo.length ≤ 1) :
    s.handleIrq.Settled := by
  have hread : s.read.hw.rxFifo = [] := by
    rw [hw_read]
    exact List.drop_one.symm.trans (List.drop_eq_nil_of_le hone)
  rw [handleIrq_of_receiving h]
  cases hstop : s.hw.stopDet with
  | true => exact ⟨hread, rfl⟩
  | false => exact ⟨hread, (congrArg I2cHw.stopDet s.hw_read).trans hstop⟩

end AttachedEndpoint

/-! ### The writes on the bus and the endpoint -/

/-- The end of a write. -/
theorem WriteLog.fields_note_stopDet (log : WriteLog) :
    (log.note (.irq .stopDet)).current = [] ∧
    (log.note (.irq .stopDet)).completed =
      log.completed ++ if log.current = [] then [] else [log.current] := by
  rw [WriteLog.note_stopDet]
  split_ifs with hnil
  · exact ⟨hnil, (List.append_nil _).symm⟩
  · exact ⟨rfl, rfl⟩

/-- The endpoint, which has seen the writes of `m`, lags behind the writes on the bus
by the unread bytes.  While a STOP is latched, the first of them still belongs to
the write that has ended. -/
structure Lags (s : AttachedEndpoint) (m : WriteMailbox) (log : WriteLog) : Prop where
  receiving : s.Receiving
  holds : s.endpoint.Holds m
  running : s.hw.stopDet = false →
    log.completed = m.log.completed ∧ log.current = m.log.current ++ s.hw.rxFifo
  latched : s.hw.stopDet = true →
    log.completed = m.log.completed ++
      (if m.log.current ++ s.hw.rxFifo.take 1 = [] then [] else
        [m.log.current ++ s.hw.rxFifo.take 1]) ∧
    log.current = s.hw.rxFifo.tail

namespace Lags

variable {s : AttachedEndpoint} {m : WriteMailbox} {log : WriteLog}

theorem start : Lags {} {} {} where
  receiving := ⟨rfl, rfl, rfl⟩
  holds := I2cPeripheralEndpoint.holds_start
  running _ := ⟨rfl, rfl⟩
  latched h := nomatch h

theorem arrive (h : Lags s m log) (byte : UInt8) (hunhurried : Unhurried s (.arrive byte)) :
    Lags (s.step (.arrive byte)).1 m (log.observe (.arrive byte)) where
  receiving := ⟨h.receiving.rdReq, h.receiving.txAbrt, h.receiving.rxOver⟩
  holds := h.holds
  running hstop := by
    obtain ⟨hcompleted, hcurrent⟩ := h.running hstop
    refine ⟨hcompleted, ?_⟩
    show log.current ++ [byte] = m.log.current ++ (s.hw.rxFifo ++ [byte])
    rw [hcurrent, List.append_assoc]
  latched hstop := by
    obtain ⟨hcompleted, hcurrent⟩ := h.latched hstop
    have hunread := hunhurried hstop
    have hpos := List.length_pos_iff.mpr hunread
    constructor
    · show log.completed = m.log.completed ++
        (if m.log.current ++ (s.hw.rxFifo ++ [byte]).take 1 = [] then [] else
          [m.log.current ++ (s.hw.rxFifo ++ [byte]).take 1])
      rw [List.take_append_of_le_length hpos]
      exact hcompleted
    · show log.current ++ [byte] = (s.hw.rxFifo ++ [byte]).tail
      rw [List.tail_append_of_ne_nil hunread, hcurrent]

theorem stop (h : Lags s m log) (hserviced : Serviced s .stop) (hunhurried : Unhurried s .stop) :
    Lags (s.step .stop).1 m (log.observe .stop) where
  receiving := ⟨h.receiving.rdReq, h.receiving.txAbrt, h.receiving.rxOver⟩
  holds := h.holds
  running hstop := nomatch hstop
  latched _ := by
    obtain ⟨hcompleted, hcurrent⟩ := h.running (hserviced rfl)
    obtain ⟨hnone, hended⟩ := log.fields_note_stopDet
    have hone : s.hw.rxFifo.length ≤ 1 := hunhurried
    constructor
    · show (log.note (.irq .stopDet)).completed = m.log.completed ++
        (if m.log.current ++ s.hw.rxFifo.take 1 = [] then [] else
          [m.log.current ++ s.hw.rxFifo.take 1])
      rw [hended, List.take_of_length_le hone, hcompleted, hcurrent]
    · show (log.note (.irq .stopDet)).current = s.hw.rxFifo.tail
      rw [hnone, ← List.drop_one, List.drop_eq_nil_of_le hone]

theorem poll (h : Lags s m log) : Lags (s.step .poll).1 (m.step fitting .poll).1 log where
  receiving := ⟨h.receiving.rdReq, h.receiving.txAbrt, h.receiving.rxOver⟩
  holds := h.holds.poll.1
  running := h.running
  latched := h.latched

/-- Without a STOP the handler reads a byte. -/
theorem irq_of_running (h : Lags s m log) (hstop : s.hw.stopDet = false) :
    ∃ m', Lags s.handleIrq m' log ∧
      m'.log.completed.map fitting = m.log.completed.map fitting ++ s.completes.toList := by
  obtain ⟨read, hholds, hcompleted, hcurrent⟩ := AttachedEndpoint.holds_read h.holds
  obtain ⟨hall, hrunning⟩ := h.running hstop
  rw [AttachedEndpoint.handleIrq_of_receiving h.receiving, AttachedEndpoint.completes_eq, hstop,
    if_neg Bool.false_ne_true, if_neg (fun hand => Bool.false_ne_true hand.1)]
  refine ⟨read, ⟨h.receiving.read, hholds, fun _ => ⟨?_, ?_⟩, fun hlatched => ?_⟩, ?_⟩
  · rw [hall, hcompleted]
  · rw [hrunning, hcurrent, s.hw_read, List.append_assoc, ← List.drop_one, List.take_append_drop]
  · rw [s.hw_read, hstop] at hlatched
    cases hlatched
  · rw [hcompleted]
    exact (List.append_nil _).symm

/-- With one it completes the write that has ended. -/
theorem irq_of_latched (h : Lags s m log) (hstop : s.hw.stopDet = true) :
    ∃ m', Lags s.handleIrq m' log ∧
      m'.log.completed.map fitting = m.log.completed.map fitting ++ s.completes.toList := by
  obtain ⟨read, hholds, hcompleted, hcurrent⟩ := AttachedEndpoint.holds_read h.holds
  have hread := h.receiving.read
  obtain ⟨hall, hnext⟩ := h.latched hstop
  rw [← hcurrent] at hall
  obtain ⟨hnone, hended⟩ := read.log.fields_note_stopDet
  rw [AttachedEndpoint.handleIrq_of_receiving h.receiving, AttachedEndpoint.completes_eq, hstop,
    if_pos rfl]
  refine ⟨(read.step fitting (.irq .stopDet)).1,
    ⟨⟨hread.rdReq, hread.txAbrt, hread.rxOver⟩, hholds.completeReceiveFromIsr.of_receiveSide rfl,
      fun _ => ⟨?_, ?_⟩, fun hlatched => nomatch hlatched⟩, ?_⟩
  · show log.completed = (read.log.note (.irq .stopDet)).completed
    rw [hended, hall, hcompleted]
  · show log.current = (read.log.note (.irq .stopDet)).current ++ s.read.hw.rxFifo
    rw [hnone, hnext, s.hw_read]
    rfl
  · show (read.log.note (.irq .stopDet)).completed.map fitting = _
    have hempty := fitting_eq_nil_iff read.log.current
    rw [hended, List.map_append, hcompleted, hholds.receiving]
    by_cases hnil : read.log.current = []
    · rw [if_pos hnil, if_neg (fun hand => hand.2 (hempty.mpr hnil))]
      rfl
    · rw [if_neg hnil, if_pos ⟨rfl, fun hfit => hnil (hempty.mp hfit)⟩]
      rfl

/-- The handler catches up. -/
theorem irq (h : Lags s m log) :
    ∃ m', Lags (s.step .irq).1 m' log ∧
      m'.log.completed.map fitting = m.log.completed.map fitting ++ s.completes.toList := by
  cases hstop : s.hw.stopDet with
  | false => exact h.irq_of_running hstop
  | true => exact h.irq_of_latched hstop

/-- **Every unhurried step keeps the relation**, and completes what the endpoint has
seen completed. -/
protected theorem step (h : Lags s m log) (op : ScheduleOp) (hserviced : Serviced s op)
    (hunhurried : Unhurried s op) :
    ∃ m', Lags (s.step op).1 m' (log.observe op) ∧
      m'.log.completed.map fitting = m.log.completed.map fitting ++ (s.step op).2.toList := by
  cases op with
  | arrive byte => exact ⟨m, h.arrive byte hunhurried, (List.append_nil _).symm⟩
  | stop => exact ⟨m, h.stop hserviced hunhurried, (List.append_nil _).symm⟩
  | irq => exact h.irq
  | poll => exact ⟨_, h.poll, (List.append_nil _).symm⟩

end Lags

/-! ### Whole schedules -/

/-- The attached endpoint after a schedule. -/
def attachedAfter (ops : List ScheduleOp) : AttachedEndpoint :=
  interruptSchedule.run interruptSchedule.start ops

/-- Every step of a schedule meets a condition. -/
def Throughout (C : AttachedEndpoint → ScheduleOp → Prop) (ops : List ScheduleOp) : Prop :=
  interruptSchedule.Along C interruptSchedule.start ops

instance (C : AttachedEndpoint → ScheduleOp → Prop) [∀ s op, Decidable (C s op)]
    (ops : List ScheduleOp) : Decidable (Throughout C ops) :=
  inferInstanceAs (Decidable (interruptSchedule.Along C interruptSchedule.start ops))

theorem throughout_concat (C : AttachedEndpoint → ScheduleOp → Prop) (ops : List ScheduleOp)
    (op : ScheduleOp) :
    Throughout C (ops ++ [op]) ↔ Throughout C ops ∧ C (attachedAfter ops) op := by
  rw [Throughout, Mealy.along_append, Mealy.along_cons, ← Throughout]
  exact and_congr_right fun _ => and_iff_left trivial

theorem lags_after {ops : List ScheduleOp} (hserviced : Throughout Serviced ops)
    (hunhurried : Throughout Unhurried ops) :
    ∃ m, Lags (attachedAfter ops) m (scheduledWrites ops) ∧
      completedStrings ops = m.log.completed.map fitting := by
  induction ops using List.reverseRecOn with
  | nil => exact ⟨{}, Lags.start, rfl⟩
  | append_singleton ops op ih =>
    rw [throughout_concat] at hserviced hunhurried
    obtain ⟨m, hlags, hstrings⟩ := ih hserviced.1 hunhurried.1
    obtain ⟨m', hlags', hstrings'⟩ := hlags.step op hserviced.2 hunhurried.2
    refine ⟨m', ?_, ?_⟩
    · rw [attachedAfter, Mealy.run_concat, scheduledWrites, List.foldl_concat]
      exact hlags'
    · rw [hstrings', ← hstrings, completedStrings, Mealy.outputs_concat, List.reduceOption_append]
      rfl

/-- An unhurried schedule completes writes of the bus, and all of them once no event
waits. -/
theorem completedStrings_of_unhurried {ops : List ScheduleOp}
    (hserviced : Throughout Serviced ops) (hunhurried : Throughout Unhurried ops) :
    completedStrings ops <+: (scheduledWrites ops).completed.map fitting ∧
    ((attachedAfter ops).Settled →
      completedStrings ops = (scheduledWrites ops).completed.map fitting) := by
  obtain ⟨m, hlags, hstrings⟩ := lags_after hserviced hunhurried
  rw [hstrings]
  refine ⟨?_, fun hsettled => by rw [(hlags.running hsettled.2).1]⟩
  apply List.IsPrefix.map
  cases hstop : (attachedAfter ops).hw.stopDet with
  | false =>
    exact ⟨[], (List.append_nil _).trans (hlags.running hstop).1.symm⟩
  | true =>
    rw [(hlags.latched hstop).1]
    exact List.prefix_append _ _

/-- In the immediate schedule no event waits. -/
theorem immediately_unhurried {s : AttachedEndpoint} (hreceiving : s.Receiving)
    (hsettled : s.Settled) (ops : List ScheduleOp) :
    interruptSchedule.Along Serviced s (immediately ops) ∧
    interruptSchedule.Along Unhurried s (immediately ops) ∧
    (interruptSchedule.run s (immediately ops)).Settled := by
  induction ops generalizing s with
  | nil => exact ⟨trivial, trivial, hsettled⟩
  | cons op ops ih =>
    cases op with
    | arrive byte =>
      have hone : (s.step (.arrive byte)).1.hw.rxFifo.length ≤ 1 := by
        show (s.hw.rxFifo ++ [byte]).length ≤ 1
        rw [hsettled.1]
        exact le_rfl
      have harrived : (s.step (.arrive byte)).1.Receiving := hreceiving.step _
      obtain ⟨hserviced, hunhurried, hafter⟩ :=
        ih (harrived.step .irq) (harrived.settled_handleIrq hone)
      exact ⟨⟨nofun, nofun, hserviced⟩,
        ⟨fun hstop => absurd (hsettled.2.symm.trans hstop) Bool.false_ne_true, trivial, hunhurried⟩,
        hafter⟩
    | stop =>
      have hnone : s.hw.rxFifo.length ≤ 1 := by
        rw [hsettled.1]
        exact Nat.zero_le _
      have hstopped : (s.step .stop).1.Receiving := hreceiving.step _
      obtain ⟨hserviced, hunhurried, hafter⟩ :=
        ih (hstopped.step .irq) (hstopped.settled_handleIrq hnone)
      exact ⟨⟨fun _ => hsettled.2, nofun, hserviced⟩, ⟨hnone, trivial, hunhurried⟩, hafter⟩
    | irq => exact ih hreceiving hsettled
    | poll =>
      obtain ⟨hserviced, hunhurried, hafter⟩ := ih (hreceiving.step .poll) hsettled
      exact ⟨⟨nofun, hserviced⟩, ⟨trivial, hunhurried⟩, hafter⟩

theorem scheduledWrites_immediately (ops : List ScheduleOp) :
    scheduledWrites (immediately ops) = scheduledWrites ops := by
  induction ops using List.reverseRecOn with
  | nil => rfl
  | append_singleton ops op ih =>
    unfold immediately scheduledWrites at ih ⊢
    rw [List.flatMap_append, List.foldl_append, List.foldl_append, ih]
    cases op <;> rfl

/-- **When latency does not matter.**  The strings that an unhurried schedule completes
are, in every state reached, the first of those completed by the schedule that
runs the handler after every byte and every STOP, and they are all of them once
no event waits for the handler. -/
theorem latency_irrelevant (ops : List ScheduleOp) (hserviced : Throughout Serviced ops)
    (hunhurried : Throughout Unhurried ops) :
    completedStrings ops <+: completedStrings (immediately ops) ∧
    ((attachedAfter ops).Settled → completedStrings ops = completedStrings (immediately ops)) := by
  obtain ⟨hserviced', hunhurried', hsettled⟩ :=
    immediately_unhurried (s := interruptSchedule.start) ⟨rfl, rfl, rfl⟩ ⟨rfl, rfl⟩ ops
  rw [(completedStrings_of_unhurried hserviced' hunhurried').2 hsettled,
    scheduledWrites_immediately]
  exact completedStrings_of_unhurried hserviced hunhurried

/-- Two writes, with a STOP and the next byte pending in one call. -/
theorem latency_irrelevant_example :
    let ops := [.arrive 1, .arrive 2, .irq, .stop, .arrive 3, .irq, .irq, .stop, .irq]
    (attachedAfter ops).Settled ∧ completedStrings ops = completedStrings (immediately ops) := by
  have hsettled : (attachedAfter [.arrive 1, .arrive 2, .irq, .stop, .arrive 3, .irq, .irq, .stop,
      .irq]).Settled := by decide
  exact ⟨hsettled, (latency_irrelevant _ (by decide) (by decide)).2 hsettled⟩

/-- **A late handler cuts a write off.**  The STOP finds two unread bytes; the handler
completes the write with the first of them, and the second one becomes a part of
the next write. -/
theorem late_stop_cuts_write :
    ¬∀ ops : List ScheduleOp, Throughout Serviced ops → (attachedAfter ops).Settled →
      completedStrings ops = completedStrings (immediately ops) := by
  intro halways
  have hstrings := halways [.arrive 1, .arrive 2, .stop, .irq, .irq] (by decide) (by decide)
  revert hstrings
  decide

end PicoMesh
