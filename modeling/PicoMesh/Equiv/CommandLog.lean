import PicoMesh.Equiv.LogRecovery
import PicoMesh.Equiv.WireLink

/-!
# The books of the reliable command sketch

Whatever the bus does and however the two boards take turns, the sketch's log is
one command's story after the other's (`CommandTrace`): a command is queued, sent
up to three times, numbered from one, and then acknowledged or given up; only
acknowledgements that match nothing come in between.  So the summariser's books
balance under every sequence number, and what is missing in them is the command
still pending (`command_log_books`).
-/

namespace PicoMesh

/-! ### One command after the other -/

/-- The sequence number that is printed of a command. -/
def printedSequence (number : ℕ) : ℤ := (UInt8.ofNat number).toNat

/-- What is printed of the result of a send. -/
def printedResult (sent : Bool) : List Char := (if sent then "ok" else "bus-error").toList

/-- **A log of commands that are pending one at a time**: `next` commands have been queued, and the
last one has been sent `attempts` times if `some attempts` is pending. -/
inductive CommandTrace : ℕ → Option ℕ → List LogEvent → Prop where
  | start : CommandTrace 0 none []
  | queued {next : ℕ} {events : List LogEvent} (h : CommandTrace next none events) :
      CommandTrace (next + 1) (some 0) (events ++ [.queued (printedSequence next)])
  | sent {next attempts : ℕ} {events : List LogEvent} (h : CommandTrace next (some attempts) events)
      (hleft : attempts < 3) (sent : Bool) :
      CommandTrace next (some (attempts + 1))
        (events ++ [.sent (printedSequence (next - 1)) ⟨(attempts + 1 : ℕ), printedResult sent⟩])
  | exhausted {next : ℕ} {events : List LogEvent} (h : CommandTrace next (some 3) events) :
      CommandTrace next none (events ++ [.exhausted (printedSequence (next - 1))])
  | accepted {next attempts : ℕ} {events : List LogEvent}
      (h : CommandTrace next (some attempts) events) :
      CommandTrace next none (events ++ [.acknowledged ⟨printedSequence (next - 1), 0, true⟩])
  | unmatched {next : ℕ} {pending : Option ℕ} {events : List LogEvent}
      (h : CommandTrace next pending events) (sequence : ℤ) :
      CommandTrace next pending (events ++ [.acknowledged ⟨sequence, 0, false⟩])

/-! ### Its books -/

namespace LogEvent

/-- The entries of the books under a sequence number. -/
@[simp] def isQueued (b : ℤ) : LogEvent → Bool
  | .queued sequence => sequence == b
  | _ => false

@[simp] def isSent (b n : ℤ) : LogEvent → Bool
  | .sent sequence attempt => sequence == b && attempt.attempt == n
  | _ => false

@[simp] def isExhausted (b : ℤ) : LogEvent → Bool
  | .exhausted sequence => sequence == b
  | _ => false

@[simp] def isMatched (b : ℤ) : LogEvent → Bool
  | .acknowledged acknowledgement => acknowledgement.matched && acknowledgement.sequence == b
  | _ => false

end LogEvent

/-- One if the command queued last has a sequence number and is where it should be, and otherwise
none. -/
def lastCommand (b : ℤ) (next : ℕ) (here : Prop) [Decidable here] : ℕ :=
  if here ∧ printedSequence (next - 1) = b then 1 else 0

/-- **The books of a trace** under a sequence number: a command goes from each entry to the next
one, and the last one may still be at any. -/
structure Books (b : ℤ) (next : ℕ) (pending : Option ℕ) (events : List LogEvent) : Prop where
  numbered : events.countP (LogEvent.isQueued b) =
    (List.range next).countP fun n => printedSequence n = b
  settled : events.countP (LogEvent.isQueued b) = events.countP (LogEvent.isMatched b) +
    events.countP (LogEvent.isExhausted b) + lastCommand b next (pending.isSome = true)
  first : events.countP (LogEvent.isSent b 1) + lastCommand b next (pending = some 0) ≤
    events.countP (LogEvent.isQueued b)
  second : events.countP (LogEvent.isSent b 2) + lastCommand b next (pending = some 1) ≤
    events.countP (LogEvent.isSent b 1)
  third : events.countP (LogEvent.isSent b 3) + lastCommand b next (pending = some 2) ≤
    events.countP (LogEvent.isSent b 2)
  given : events.countP (LogEvent.isExhausted b) + lastCommand b next (pending = some 3) ≤
    events.countP (LogEvent.isSent b 3)

theorem CommandTrace.books {next : ℕ} {pending : Option ℕ} {events : List LogEvent}
    (h : CommandTrace next pending events) (b : ℤ) : Books b next pending events := by
  induction h with
  | start => constructor <;> simp [lastCommand]
  | @queued next events h ih =>
    obtain ⟨hnumbered, hsettled, hfirst, hsecond, hthird, hgiven⟩ := ih
    simp only [lastCommand, Option.isSome_none, Bool.false_eq_true, reduceCtorEq, false_and,
      if_false, Nat.add_zero] at hsettled hfirst hsecond hthird hgiven
    have hrange : (List.range (next + 1)).countP (fun n => printedSequence n = b) =
        (List.range next).countP (fun n => printedSequence n = b) +
          if printedSequence next = b then 1 else 0 := by
      simp [List.range_succ]
    constructor <;> simp [lastCommand, hrange] <;> omega
  | @sent next attempts events h hleft sent ih =>
    -- the command goes from one entry to the next
    obtain ⟨hnumbered, hsettled, hfirst, hsecond, hthird, hgiven⟩ := ih
    simp only [lastCommand] at hsettled hfirst hsecond hthird hgiven
    interval_cases attempts <;> constructor <;> simp [lastCommand] at * <;> omega
  | @exhausted next events h ih =>
    obtain ⟨hnumbered, hsettled, hfirst, hsecond, hthird, hgiven⟩ := ih
    simp only [lastCommand] at hsettled hfirst hsecond hthird hgiven
    constructor <;> simp [lastCommand] at * <;> omega
  | @accepted next attempts events h ih =>
    obtain ⟨hnumbered, hsettled, hfirst, hsecond, hthird, hgiven⟩ := ih
    simp only [lastCommand] at hsettled hfirst hsecond hthird hgiven
    constructor <;> simp [lastCommand] at * <;> omega
  | @unmatched next pending events h sequence ih =>
    obtain ⟨hnumbered, hsettled, hfirst, hsecond, hthird, hgiven⟩ := ih
    constructor <;> simpa

/-- The attempts that a trace lists are numbered from one to three. -/
theorem CommandTrace.attempt_mem {next : ℕ} {pending : Option ℕ} {events : List LogEvent}
    (h : CommandTrace next pending events) :
    ∀ sent ∈ events.filterMap LogEvent.sent?,
      1 ≤ sent.2.attempt ∧ sent.2.attempt ≤ 3 := by
  induction h with
  | start => simp
  | @sent next attempts events h hleft sent ih =>
    rw [List.filterMap_append, List.forall_mem_append]
    refine ⟨ih, ?_⟩
    intro posted hposted
    obtain rfl : posted =
        (printedSequence (next - 1), ⟨(attempts + 1 : ℕ), printedResult sent⟩) := by
      simpa [LogEvent.sent?] using hposted
    simp
    omega
  | queued | exhausted | accepted | unmatched =>
    rw [List.filterMap_append, List.forall_mem_append]
    exact ⟨‹_›, by simp [LogEvent.sent?]⟩

/-! ### The books of a summary -/

section Summary

variable {summary : LogSummary} {events : List LogEvent}

theorem LogSummary.Recovers.queued_eq (h : summary.Recovers events) (b : ℤ) :
    summary.queuedCommands.getD b 0 = events.countP (LogEvent.isQueued b) := by
  rw [h.queuedCommands, List.count, List.countP_filterMap]
  apply List.countP_congr
  intro event _
  cases event <;> simp [LogEvent.queued?]

theorem LogSummary.Recovers.exhausted_eq (h : summary.Recovers events) (b : ℤ) :
    summary.retryExhaustions.getD b 0 = events.countP (LogEvent.isExhausted b) := by
  rw [h.retryExhaustions, List.count, List.countP_filterMap]
  apply List.countP_congr
  intro event _
  cases event <;> simp [LogEvent.exhausted?]

theorem LogSummary.Recovers.matched_eq (h : summary.Recovers events) (b : ℤ) :
    (summary.acknowledgements.countP fun ack => ack.matched && ack.sequence == b) =
      events.countP (LogEvent.isMatched b) := by
  rw [h.acknowledgements, List.countP_filterMap]
  apply List.countP_congr
  intro event _
  cases event <;> simp [LogEvent.acknowledged?]

theorem LogSummary.Recovers.sent_eq (h : summary.Recovers events) (b n : ℤ) :
    ((summary.sendAttempts.getD b []).countP fun attempt => attempt.attempt == n) =
      events.countP (LogEvent.isSent b n) := by
  rw [h.sendAttempts, List.countP_map, List.countP_filter, List.countP_filterMap]
  apply List.countP_congr
  intro event _
  cases event <;> simp [LogEvent.sent?, and_comm]

/-- What is printed without a failed read of the multi-node sketch is recovered. -/
theorem recovers_of_reads {printed : List ControllerEvent}
    (h : ∀ event ∈ printed, event.isFailedPoll = false) :
    (summarize (serialOutput printed)).Recovers (printed.filterMap ControllerEvent.logged) := by
  have hfound : printed.filterMap ControllerEvent.found =
      printed.filterMap ControllerEvent.logged := by
    apply List.filterMap_congr
    intro event hevent
    rw [ControllerEvent.found, h event hevent]
    rfl
  rw [← hfound]
  exact (tallies_summarize printed).recovers

end Summary

/-! ### The sketch's log -/

/-- What a step of the link prints. -/
def WireLinkReply.events : WireLinkReply → List ControllerEvent
  | .printed events => events
  | .polled _ => []

/-- All that the sketch prints in a run. -/
def wireLinkPrinted (ops : List WireLinkOp) : List ControllerEvent :=
  (wireLink.outputs wireLink.start ops).flatMap WireLinkReply.events

theorem wireLinkPrinted_concat (ops : List WireLinkOp) (op : WireLinkOp) :
    wireLinkPrinted (ops ++ [op]) =
      wireLinkPrinted ops ++ ((wireLinkAfter ops).step op).2.events := by
  unfold wireLinkPrinted
  rw [Mealy.outputs_concat, List.flatMap_append, List.flatMap_singleton]
  rfl

namespace WireLink

variable {s s' : WireLink} {pending pending' : Option (PendingEntry UInt32)}

/-- How often the pending command has been sent. -/
def sentSoFar (pending : Option (PendingEntry UInt32)) : Option ℕ :=
  pending.map fun e => e.attempts.toNat

/-- **A step of the controller continues the story**, and prints no failed read. -/
theorem ControllerTurn.trace {nowMs : UInt32} {transfer : BusTransfer}
    {events : List ControllerEvent}
    (hturn : ControllerTurn s pending nowMs transfer s' pending' events) {logged : List LogEvent}
    (h : CommandTrace s.sketch.controller.next (sentSoFar pending) logged) :
    CommandTrace s'.sketch.controller.next (sentSoFar pending')
        (logged ++ events.filterMap ControllerEvent.logged) ∧
      ∀ event ∈ events, event.isFailedPoll = false := by
  cases hturn with
  | setup hpoint hnone hnext =>
    subst hnone
    refine ⟨?_, by simp [ControllerEvent.isFailedPoll]⟩
    simp only [hnext]
    exact h.queued
  | queue hpoint hnone hdue hnext =>
    subst hnone
    refine ⟨?_, by simp [ControllerEvent.isFailedPoll]⟩
    simp only [hnext]
    exact h.queued
  | wait hpoint hnext hdue =>
    refine ⟨?_, by simp [ControllerEvent.isFailedPoll]⟩
    rw [List.filterMap_cons_none rfl, List.filterMap_nil, List.append_nil]
    simpa only [hnext] using h
  | @send controller loopMs e sent hpoint hnext hpending hpos hdue hleft =>
    subst hpending
    refine ⟨?_, by simp [ControllerEvent.isFailedPoll]⟩
    have hattempts := PendingEntry.toNat_attempts_succ hleft
    have htrace := h.sent (UInt8.lt_iff_toNat_lt.mp hleft) sent
    rw [← hattempts] at htrace
    simp only [hnext]
    exact htrace
  | @exhaust controller loopMs e hpoint hnext hpending hdue hspent =>
    subst hpending
    refine ⟨?_, by simp [ControllerEvent.isFailedPoll]⟩
    rw [sentSoFar, Option.map_some, hspent] at h
    simp only [hnext]
    exact h.exhausted
  | unmatched hpoint hdue hnext hanswered hreceived hother =>
    refine ⟨?_, by simp [ControllerEvent.isFailedPoll]⟩
    simp only [hnext]
    exact h.unmatched _
  | resolve hpoint hdue hnext hanswered hreceived hpending hbyte =>
    subst hpending
    refine ⟨?_, by simp [ControllerEvent.isFailedPoll]⟩
    simp only [hnext, hbyte]
    exact h.accepted
  | idle | skip | ignore =>
    rw [List.filterMap_nil, List.append_nil]
    exact ⟨h, by simp⟩

end WireLink

/-- **The log of a run** is one command's story after the other's. -/
theorem commandTrace_wireLinkPrinted (ops : List WireLinkOp) :
    ∃ pending, (wireLinkAfter ops).Consistent pending ∧
      CommandTrace (wireLinkAfter ops).sketch.controller.next (WireLink.sentSoFar pending)
        ((wireLinkPrinted ops).filterMap ControllerEvent.logged) ∧
      ∀ event ∈ wireLinkPrinted ops, event.isFailedPoll = false := by
  induction ops using List.reverseRecOn with
  | nil => exact ⟨none, WireLink.consistent_start, .start, by simp [wireLinkPrinted]⟩
  | append_singleton ops op ih =>
    obtain ⟨pending, hconsistent, htrace, hreads⟩ := ih
    rw [wireLinkAfter_concat, wireLinkPrinted_concat]
    simp only [List.filterMap_append, List.forall_mem_append]
    cases op with
    | controller nowMs transfer =>
      obtain ⟨pending', hturn, hholds⟩ := hconsistent.controllerTurn nowMs transfer
      obtain ⟨htrace', hreads'⟩ := hturn.trace htrace
      exact ⟨pending', hconsistent.of_controllerTurn hturn hholds, htrace', hreads, hreads'⟩
    | node nowMs uptimeMs =>
      obtain ⟨polled, hreply, hturn⟩ := hconsistent.nodeTurn nowMs uptimeMs
      refine ⟨pending, hconsistent.of_nodeTurn hturn, ?_, hreads, ?_⟩
      · rw [hreply, WireLinkReply.events, List.filterMap_nil, List.append_nil]
        exact htrace
      · rw [hreply]
        simp [WireLinkReply.events]

/-- Attempts that are numbered from one to three. -/
theorem length_eq_countP_attempt {attempts : List SendAttempt}
    (h : ∀ attempt ∈ attempts, 1 ≤ attempt.attempt ∧ attempt.attempt ≤ 3) :
    attempts.length = attempts.countP (fun attempt => attempt.attempt == 1) +
      attempts.countP (fun attempt => attempt.attempt == 2) +
      attempts.countP (fun attempt => attempt.attempt == 3) := by
  induction attempts with
  | nil => rfl
  | cons attempt attempts ih =>
    obtain ⟨hattempt, hrest⟩ := List.forall_mem_cons.mp h
    have hcases : attempt.attempt = 1 ∨ attempt.attempt = 2 ∨ attempt.attempt = 3 := by omega
    rw [List.length_cons, ih hrest]
    rcases hcases with hone | htwo | hthree
    · simp [hone]
      omega
    · simp [htwo]
      omega
    · simp [hthree]
      omega

/-- **The summary of the sketch's log balances.**  Whatever the bus does and however the boards
take turns, under every sequence number: the commands counted as queued are those that were, each
was acknowledged, given up or is the one still pending, none was sent under a number without having
been sent under the one before, and none given up without having been sent three times. -/
theorem command_log_books (ops : List WireLinkOp) (sequence : ℤ) :
    let controller := (wireLinkAfter ops).sketch.controller
    let summary := summarize (serialOutput (wireLinkPrinted ops))
    let attempts := summary.sendAttempts.getD sequence []
    let numbered := fun n : ℤ => attempts.countP fun attempt => attempt.attempt == n
    let queued := summary.queuedCommands.getD sequence 0
    let matched := summary.acknowledgements.countP fun ack => ack.matched && ack.sequence == sequence
    let exhausted := summary.retryExhaustions.getD sequence 0
    queued = (List.range controller.next).countP (fun n => printedSequence n = sequence) ∧
    queued = matched + exhausted +
      (if controller.queue.pendingCount ≠ 0 ∧ printedSequence (controller.next - 1) = sequence
        then 1 else 0) ∧
    exhausted ≤ numbered 3 ∧ numbered 3 ≤ numbered 2 ∧ numbered 2 ≤ numbered 1 ∧
    numbered 1 ≤ queued ∧ attempts.length = numbered 1 + numbered 2 + numbered 3 := by
  obtain ⟨pending, hconsistent, htrace, hreads⟩ := commandTrace_wireLinkPrinted ops
  have hrecovers := recovers_of_reads hreads
  obtain ⟨hnumbered, hsettled, hfirst, hsecond, hthird, hgiven⟩ := htrace.books sequence
  have hpending : (WireLink.sentSoFar pending).isSome = true ↔
      (wireLinkAfter ops).sketch.controller.queue.pendingCount ≠ 0 := by
    rw [WireLink.sentSoFar, Option.isSome_map, Option.isSome_iff_ne_none, ne_eq, ne_eq,
      hconsistent.holds.pendingCount_eq_zero_iff]
  have hattempts : ∀ attempt ∈ (summarize
      (serialOutput (wireLinkPrinted ops))).sendAttempts.getD sequence [],
      1 ≤ attempt.attempt ∧ attempt.attempt ≤ 3 := by
    rw [hrecovers.sendAttempts]
    intro attempt hattempt
    obtain ⟨sent, hsent, rfl⟩ := List.mem_map.mp hattempt
    exact htrace.attempt_mem sent (List.mem_of_mem_filter hsent)
  intro controller summary attempts numbered queued matched exhausted
  have hqueued : queued = _ := hrecovers.queued_eq sequence
  have hmatched : matched = _ := hrecovers.matched_eq sequence
  have hexhausted : exhausted = _ := hrecovers.exhausted_eq sequence
  have hsent : ∀ n, numbered n = _ := hrecovers.sent_eq sequence
  refine ⟨hqueued.trans hnumbered, ?_, ?_, ?_, ?_, ?_, length_eq_countP_attempt hattempts⟩
  · rw [hqueued, hmatched, hexhausted, hsettled]
    simp only [lastCommand, hpending]
    rfl
  · rw [hexhausted, hsent]
    omega
  · rw [hsent, hsent]
    omega
  · rw [hsent, hsent]
    omega
  · rw [hsent, hqueued]
    omega

end PicoMesh
