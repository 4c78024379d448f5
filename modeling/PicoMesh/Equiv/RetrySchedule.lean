import PicoMesh.Equiv.Deadline

/-!
# When a frame is sent again, and when it is given up

The queue has no timer of its own: an entry is served when the program calls
`nextDue`.  A program that, while anything is pending, calls it until it answers
`none` at least every `gap` milliseconds (`ScheduledQueue.Attended`) serves every
entry at most `gap` late.  So the delays of an entry's sends add up to at most a
gap each (`KeepsSchedule`), whatever else the queue holds and however often the
32-bit clock wraps, and no entry stays for longer than its attempts take
(`retry_schedule`).
-/

namespace PicoMesh

/-! ### History -/

/-- When the frames were accepted, by key. -/
def trackQueued (queuedAt : Key → ℕ) : QueueOp ℕ → QueueReply → Key → ℕ
  | .enqueue frame t, .enqueued .queued => Function.update queuedAt frame.key t
  | _, _ => queuedAt

theorem trackQueued_of_ne {queuedAt : Key → ℕ} {op : QueueOp ℕ} {reply : QueueReply}
    (hqueued : reply ≠ .enqueued .queued) : trackQueued queuedAt op reply = queuedAt := by
  unfold trackQueued
  split
  · exact absurd rfl hqueued
  · rfl

/-- The last time at which no pending entry was overdue: `nextDue` answered `none`, or nothing had
been pending. -/
def trackServed (pending servedAt : ℕ) : QueueOp ℕ → QueueReply → ℕ
  | .enqueue _ t, .enqueued .queued => if pending = 0 then t else servedAt
  | .nextDue t, .decided ⟨.none, _, _⟩ => t
  | _, _ => servedAt

/-- The timed queue with two more history variables. -/
structure ScheduledQueue where
  timed : TimedQueue
  queuedAt : Key → ℕ
  servedAt : ℕ

/-- The timed queue as a machine that keeps them. -/
def scheduledQueue (policy : RetryPolicy) : Mealy ScheduledQueue (QueueOp ℕ) QueueReply where
  start := ⟨(timedQueue policy).start, fun _ => 0, 0⟩
  step s op :=
    let reply := ((timedQueue policy).step s.timed op).2
    ({ timed := ((timedQueue policy).step s.timed op).1
       queuedAt := trackQueued s.queuedAt op reply
       servedAt := trackServed s.timed.queue.pendingCount s.servedAt op reply }, reply)

/-- The queue after calls at true times. -/
def scheduledQueueAfter (policy : RetryPolicy) (ops : List (QueueOp ℕ)) : ScheduledQueue :=
  (scheduledQueue policy).run (scheduledQueue policy).start ops

/-- A call at a true time comes in order and, if anything is pending, at most `gap` after nothing
was overdue. -/
def ScheduledQueue.Attended (gap : ℕ) (s : ScheduledQueue) (op : QueueOp ℕ) : Prop :=
  ∀ t, op.calledAt = some t →
    s.timed.now ≤ t ∧ (s.timed.queue.pendingCount ≠ 0 → t ≤ s.servedAt + gap)

instance (gap : ℕ) (s : ScheduledQueue) (op : QueueOp ℕ) : Decidable (s.Attended gap op) :=
  match h : op.calledAt with
  | none => .isTrue fun t ht => by rw [h] at ht; cases ht
  | some t =>
    decidable_of_iff (s.timed.now ≤ t ∧ (s.timed.queue.pendingCount ≠ 0 → t ≤ s.servedAt + gap)) <| by
      unfold ScheduledQueue.Attended
      rw [h]
      simp

/-- How often the frame of a decision was sent before it. -/
def TxDecision.sentBefore (decision : TxDecision) : ℕ :=
  if decision.action = .send then decision.attempts.toNat - 1 else decision.attempts.toNat

/-! ### The schedule of an entry -/

section KeepsSchedule

variable {policy : RetryPolicy} {gap : ℕ}

/-- **The schedule**: a pending entry that was sent `attempts` times is due a timeout for each of
them after it was accepted, and at most a gap for each of them later; nothing was overdue at
`servedAt`. -/
def KeepsSchedule (gap : ℕ) (table : PendingTable UInt32 policy) (deadline queuedAt : Key → ℕ)
    (servedAt : ℕ) : Prop :=
  ∀ k e, table.get k = some e →
    servedAt ≤ deadline k ∧
    queuedAt k + e.attempts.toNat * policy.timeoutMs.toNat ≤ deadline k ∧
    deadline k ≤ queuedAt k + e.attempts.toNat * (policy.timeoutMs.toNat + gap)

variable {table table' : PendingTable UInt32 policy} {deadline queuedAt : Key → ℕ}
  {servedAt servedAt' : ℕ}

/-- Bindings that are all old ones stay on schedule. -/
theorem KeepsSchedule.mono (h : KeepsSchedule gap table deadline queuedAt servedAt)
    (hserved : ∀ k e, table'.get k = some e → servedAt' ≤ deadline k)
    (hget : ∀ k e, table'.get k = some e → table.get k = some e) :
    KeepsSchedule gap table' deadline queuedAt servedAt' := by
  intro k e hk
  exact ⟨hserved k e hk, (h k e (hget k e hk)).2⟩

/-- A frame that is accepted is on schedule. -/
theorem KeepsSchedule.queue (h : KeepsSchedule gap table deadline queuedAt servedAt) {k : Key}
    {frame : Frame} {t : ℕ} {nowMs : UInt32}
    (hserved : ∀ k' e, table.get k' = some e → servedAt' ≤ deadline k') (ht : servedAt' ≤ t)
    (hget : table'.get = Function.update table.get k (some ⟨frame, nowMs, 0⟩)) :
    KeepsSchedule gap table' (Function.update deadline k t) (Function.update queuedAt k t)
      servedAt' := by
  intro k' e' hk'
  rw [hget] at hk'
  rcases eq_or_ne k' k with rfl | hne
  · rw [Function.update_self] at hk' ⊢
    obtain rfl := Option.some.inj hk'
    simp [ht]
  · rw [Function.update_of_ne hne] at hk'
    rw [Function.update_of_ne hne, Function.update_of_ne hne]
    exact ⟨hserved k' e' hk', (h k' e' hk').2⟩

/-- **A send keeps the schedule**: one that comes at or after the deadline and at most a gap late
moves the deadline by a timeout and at most a gap. -/
theorem KeepsSchedule.send (h : KeepsSchedule gap table deadline queuedAt servedAt) {k : Key}
    {e : PendingEntry UInt32} {t : ℕ} {nowMs : UInt32} (hk : table.get k = some e)
    (hleft : e.attempts < policy.maxAttempts) (hearly : deadline k ≤ t) (hlate : t ≤ servedAt + gap)
    (hget : table'.get = Function.update table.get k (some (e.sent nowMs policy))) :
    KeepsSchedule gap table' (Function.update deadline k (t + policy.timeoutMs.toNat)) queuedAt
      servedAt := by
  intro k' e' hk'
  rw [hget] at hk'
  rcases eq_or_ne k' k with rfl | hne
  · rw [Function.update_self] at hk' ⊢
    obtain rfl := Option.some.inj hk'
    obtain ⟨hserved, hlower, hupper⟩ := h k' e hk
    have hattempts : (e.sent nowMs policy).attempts.toNat = e.attempts.toNat + 1 :=
      PendingEntry.toNat_attempts_succ hleft
    rw [hattempts, Nat.succ_mul, Nat.succ_mul]
    omega
  · rw [Function.update_of_ne hne] at hk' ⊢
    exact h k' e' hk'

end KeepsSchedule

/-! ### One call -/

/-- The queue stands for a table whose entries hold their true deadlines and are on schedule. -/
structure ScheduledQueue.OnSchedule (policy : RetryPolicy) (gap : ℕ) (s : ScheduledQueue)
    (table : PendingTable UInt32 policy.normalise) : Prop where
  represents : s.timed.queue.Represents table
  tracks : Tracks UInt32.ofNat table s.timed.deadline s.timed.now
  entries : KeepsSchedule gap table s.timed.deadline s.queuedAt s.servedAt
  servedAt_le : s.servedAt ≤ s.timed.now

namespace ScheduledQueue.OnSchedule

variable {policy : RetryPolicy} {gap : ℕ} {s : ScheduledQueue} {t : ℕ}
  {table : PendingTable UInt32 policy.normalise}

theorem pendingCount_ne_zero (h : s.OnSchedule policy gap table) {k : Key}
    {e : PendingEntry UInt32} (hk : table.get k = some e) :
    s.timed.queue.pendingCount ≠ 0 := by
  obtain ⟨i, hi, -, -⟩ := h.represents.get_iff.mp hk
  intro hzero
  rw [SlotTable.count_eq_zero.mp hzero i] at hi
  cases hi

/-- If anything is pending, the call comes at most a gap after nothing was overdue. -/
theorem le_servedAt (h : s.OnSchedule policy gap table) {op : QueueOp ℕ} (hop : s.Attended gap op)
    (hcalled : op.calledAt = some t) {k : Key} {e : PendingEntry UInt32}
    (hk : table.get k = some e) : t ≤ s.servedAt + gap :=
  (hop t hcalled).2 (h.pendingCount_ne_zero hk)

/-- **Neither early nor late**: an entry that is due has reached its true deadline, and one that
has reached it is due. -/
theorem due_iff (h : s.OnSchedule policy gap table) (htimeout : policy.timeoutMs.toNat < 2 ^ 31)
    (hgap : gap < 2 ^ 31) (hop : s.Attended gap (.nextDue t)) {k : Key} {e : PendingEntry UInt32}
    (hk : table.get k = some e) :
    e.due (UInt32.ofNat t) = true ↔ s.timed.deadline k ≤ t := by
  obtain ⟨hdeadline, hfuture⟩ := h.tracks k e hk
  rw [RetryPolicy.normalise_timeoutMs] at hfuture
  have hlate := h.le_servedAt hop rfl hk
  have hserved := (h.entries k e hk).1
  have hnow := (hop t rfl).1
  rw [PendingEntry.due, hdeadline, deadlineReached_ofNat (by omega) (by omega)]
  exact decide_eq_true_iff

/-- No entry is overdue at the time that is remembered. -/
theorem trackServed_le (h : s.OnSchedule policy gap table)
    (htimeout : policy.timeoutMs.toNat < 2 ^ 31) (hgap : gap < 2 ^ 31) {op : QueueOp ℕ}
    (hop : s.Attended gap op) {reply : QueueReply} {table' : PendingTable UInt32 policy.normalise}
    (hstep : table.Step (op.mapTime UInt32.ofNat) reply table') {k : Key}
    {e : PendingEntry UInt32} (hk : table.get k = some e) :
    trackServed s.timed.queue.pendingCount s.servedAt op reply ≤ s.timed.deadline k := by
  unfold trackServed
  split
  · have hpending := h.pendingCount_ne_zero hk
    rw [if_neg hpending]
    exact (h.entries k e hk).1
  · next t _ _ =>
    rcases hstep with ⟨-, -, hnone⟩ | ⟨k', e', hk', hdue, hdecided⟩
    · have hnot := hnone k e hk
      rw [← Bool.not_eq_true, h.due_iff htimeout hgap hop hk] at hnot
      omega
    · -- it decided something
      split_ifs at hdecided
      · simp at hdecided
      · simp at hdecided
  · exact (h.entries k e hk).1

omit table in
theorem trackServed_le_now (hserved : s.servedAt ≤ s.timed.now) {op : QueueOp ℕ}
    (hop : s.Attended gap op) (pending : ℕ) (reply : QueueReply) :
    trackServed pending s.servedAt op reply ≤ op.calledAt.getD s.timed.now := by
  have hnow : s.servedAt ≤ op.calledAt.getD s.timed.now := by
    cases hcalled : op.calledAt with
    | none => exact hserved
    | some t => exact hserved.trans (hop t hcalled).1
  unfold trackServed
  split
  · split_ifs
    · exact le_refl _
    · exact hnow
  · exact le_refl _
  · exact hnow

/-- **Every call keeps the entries on schedule.** -/
theorem entries_step (h : s.OnSchedule policy gap table)
    (htimeout : policy.timeoutMs.toNat < 2 ^ 31) (hgap : gap < 2 ^ 31) {op : QueueOp ℕ}
    (hop : s.Attended gap op) {reply : QueueReply} {table' : PendingTable UInt32 policy.normalise}
    (hstep : table.Step (op.mapTime UInt32.ofNat) reply table') :
    KeepsSchedule gap table'
      (trackDeadline policy.timeoutMs.toNat s.timed.deadline op reply)
      (trackQueued s.queuedAt op reply)
      (trackServed s.timed.queue.pendingCount s.servedAt op reply) := by
  have hserved := trackServed_le_now h.servedAt_le hop s.timed.queue.pendingCount reply
  have hle := fun k e => h.trackServed_le htimeout hgap hop hstep (k := k) (e := e)
  generalize hmapped : op.mapTime UInt32.ofNat = mapped at hstep
  cases hstep.change with
  | same hqueued hdecided =>
    rw [trackDeadline_of_ne hqueued hdecided, trackQueued_of_ne hqueued]
    exact h.entries.mono hle fun _ _ => id
  | queue habsent hget =>
    cases op with
    | enqueue frame t =>
      cases hmapped
      exact h.entries.queue hle hserved hget
    | _ => cases hmapped
  | send hk hdue hleft hget =>
    cases op with
    | nextDue t =>
      cases hmapped
      obtain rfl := table.keyed _ _ hk
      have hearly := (h.due_iff htimeout hgap hop hk).mp hdue
      have hsent := h.entries.send hk hleft hearly (h.le_servedAt hop rfl hk) hget
      rwa [RetryPolicy.normalise_timeoutMs] at hsent
    | _ => cases hmapped
  | exhaust hk hdue hspent hget =>
    cases op with
    | nextDue t =>
      exact h.entries.mono (fun k e hk' => hle k e (PendingTable.get_of_update_none hget hk'))
        fun _ _ => PendingTable.get_of_update_none hget
    | _ => cases hmapped
  | remove k hqueued hdecided hget =>
    rw [trackDeadline_of_ne hqueued fun d hd => absurd hd (hdecided d), trackQueued_of_ne hqueued]
    exact h.entries.mono (fun k e hk' => hle k e (PendingTable.get_of_update_none hget hk'))
      fun _ _ => PendingTable.get_of_update_none hget
  | clear =>
    intro k e hk
    cases hk

theorem step (h : s.OnSchedule policy gap table) (htimeout : policy.timeoutMs.toNat < 2 ^ 31)
    (hgap : gap < 2 ^ 31) {op : QueueOp ℕ} (hop : s.Attended gap op) :
    ∃ table', ((scheduledQueue policy).step s op).1.OnSchedule policy gap table' := by
  obtain ⟨table', hrep, hstep⟩ := h.represents.step (op.mapTime UInt32.ofNat)
  have htracks := h.tracks.step (fun t => (after_ofNat t _).symm) (fun t ht => (hop t ht).1) hstep
  rw [RetryPolicy.normalise_timeoutMs] at htracks
  exact ⟨table', hrep, htracks, h.entries_step htimeout hgap hop hstep,
    trackServed_le_now h.servedAt_le hop _ _⟩

end ScheduledQueue.OnSchedule

variable {policy : RetryPolicy} {gap : ℕ}

/-- **A run stays on schedule.** -/
theorem onSchedule_run (htimeout : policy.timeoutMs.toNat < 2 ^ 31) (hgap : gap < 2 ^ 31)
    {ops : List (QueueOp ℕ)}
    (hops : (scheduledQueue policy).Along (ScheduledQueue.Attended gap)
      (scheduledQueue policy).start ops) :
    ∃ table, (scheduledQueueAfter policy ops).OnSchedule policy gap table := by
  have hstart : (scheduledQueue policy).start.OnSchedule policy gap .empty :=
    { represents := ReliableQueue.represents_new
      tracks := by intro k e hk; cases hk
      entries := by intro k e hk; cases hk
      servedAt_le := le_refl 0 }
  unfold scheduledQueueAfter
  apply Mealy.along_invariant (I := fun s => ∃ table, s.OnSchedule policy gap table) _ _ _ hops
  · rintro s op ⟨table, h⟩ hop
    exact h.step htimeout hgap hop
  · exact ⟨.empty, hstart⟩

/-- The queue of the machine is the queue that sees the modular times. -/
theorem scheduledQueueAfter_queue (ops : List (QueueOp ℕ)) :
    (scheduledQueueAfter policy ops).timed.queue = queueAfter policy (modular ops) := by
  rw [← timedQueue_run]
  have hsim : Mealy.Simulation (scheduledQueue policy) (timedQueue policy) id (fun _ _ => True)
      (fun s timed => s.timed = timed) :=
    { answer := by rintro s _ op rfl -; rfl
      next := by rintro s _ op rfl -; rfl }
  have halong : (scheduledQueue policy).Along (fun _ _ => True) (scheduledQueue policy).start ops :=
    (scheduledQueue policy).along_of_forall fun _ _ => trivial
  have hrun := hsim.run
    (show (scheduledQueue policy).start.timed = (timedQueue policy).start from rfl) halong
  rw [List.map_id] at hrun
  exact congrArg TimedQueue.queue hrun

/-- What a decision about an entry says. -/
theorem decision_cases {table table' : PendingTable UInt32 policy} {nowMs : UInt32}
    {decision : TxDecision} (hstep : table.Step (.nextDue nowMs) (.decided decision) table')
    (hdecision : decision.action ≠ .none) :
    ∃ e, table.get decision.frame.key = some e ∧ e.due nowMs = true ∧
      decision.sentBefore = e.attempts.toNat := by
  cases hstep.change with
  | same hqueued hdecided =>
    rw [hdecided decision rfl] at hdecision
    exact absurd rfl hdecision
  | send hk hdue hleft hget =>
    obtain rfl := table.keyed _ _ hk
    refine ⟨_, hk, hdue, ?_⟩
    rw [TxDecision.sentBefore, if_pos rfl]
    show (_ + 1 : UInt8).toNat - 1 = _
    rw [PendingEntry.toNat_attempts_succ hleft, Nat.add_sub_cancel]
  | exhaust hk hdue hspent hget =>
    obtain rfl := table.keyed _ _ hk
    exact ⟨_, hk, hdue, if_neg (by simp)⟩
  | remove k hqueued hdecided hget => exact absurd rfl (hdecided decision)

/-- **The schedule of retries.**  A program that, while anything is pending, serves the queue until
nothing is due at least every `gap` milliseconds of true time: a frame that was sent `n` times
before is sent again, or given up, at least `n` timeouts after it was queued and late by at most a
gap for each of them and one more; and no frame stays pending for longer than its attempts take. -/
theorem retry_schedule (policy : RetryPolicy) (htimeout : policy.timeoutMs.toNat < 2 ^ 31)
    (gap : ℕ) (hgap : gap < 2 ^ 31) (ops : List (QueueOp ℕ))
    (hops : (scheduledQueue policy).Along (ScheduledQueue.Attended gap)
      (scheduledQueue policy).start ops) :
    (∀ before t rest, ops = before ++ .nextDue t :: rest →
      let decision := ((queueAfter policy (modular before)).nextDue (UInt32.ofNat t)).2
      let queuedAt := (scheduledQueueAfter policy before).queuedAt decision.frame.key
      decision.action ≠ .none →
        queuedAt + decision.sentBefore * policy.timeoutMs.toNat ≤ t ∧
        t ≤ queuedAt + decision.sentBefore * (policy.timeoutMs.toNat + gap) + gap) ∧
    ∀ before op t rest, ops = before ++ op :: rest → op.calledAt = some t →
      ∀ i : Fin kMaxPendingTransmissions,
        let slot := (queueAfter policy (modular before)).slots.get i
        slot.active = true →
        t ≤ (scheduledQueueAfter policy before).queuedAt slot.frame.key +
          policy.normalise.maxAttempts.toNat * (policy.timeoutMs.toNat + gap) + gap := by
  -- the state before a call: on schedule, and attended
  have hbefore : ∀ before op rest, ops = before ++ op :: rest →
      (∃ table, (scheduledQueueAfter policy before).OnSchedule policy gap table) ∧
        (scheduledQueueAfter policy before).Attended gap op := by
    rintro before op rest rfl
    rw [Mealy.along_append] at hops
    exact ⟨onSchedule_run htimeout hgap hops.1, hops.2.1⟩
  refine ⟨fun before t rest hsplit => ?_, fun before op t rest hsplit hcalled i => ?_⟩
  · obtain ⟨⟨table, h⟩, hop⟩ := hbefore before _ rest hsplit
    obtain ⟨table', -, hstep⟩ := h.represents.nextDue (UInt32.ofNat t)
    rw [← scheduledQueueAfter_queue]
    intro decision queuedAt hdecision
    obtain ⟨e, hk, hdue, hsent⟩ := decision_cases hstep hdecision
    obtain ⟨hserved, hlower, hupper⟩ := h.entries _ e hk
    have hreached := (h.due_iff htimeout hgap hop hk).mp hdue
    rw [RetryPolicy.normalise_timeoutMs, ← hsent] at hlower hupper
    refine ⟨hlower.trans hreached, ?_⟩
    calc t ≤ _ := h.le_servedAt hop rfl hk
      _ ≤ _ + gap := Nat.add_le_add_right (hserved.trans hupper) gap
  · obtain ⟨⟨table, h⟩, hop⟩ := hbefore before op rest hsplit
    rw [← scheduledQueueAfter_queue]
    intro slot hactive
    have hk := h.represents.get_slot hactive
    obtain ⟨hserved, -, hupper⟩ := h.entries _ _ hk
    have hbudget := UInt8.le_iff_toNat_le.mp (table.budget _ _ hk)
    rw [RetryPolicy.normalise_timeoutMs] at hupper
    calc t ≤ _ := h.le_servedAt hop hcalled hk
      _ ≤ _ + gap := Nat.add_le_add_right (hserved.trans hupper) gap
      _ ≤ _ := by gcongr

/-- A command that is sent twice and acknowledged, served every 300 ms across a wrap of the
clock. -/
theorem retry_schedule_example :
    (scheduledQueueAfter {} [.enqueue { nodeId := 3, sequence := 7 } 4294967200,
        .nextDue 4294967200, .nextDue 4294967200]).queuedAt (3, 7) + 1 * 250 ≤ 4294967480 ∧
      (queueAfter {} (modular [.enqueue { nodeId := 3, sequence := 7 } 4294967200,
        .nextDue 4294967200, .nextDue 4294967200, .nextDue 4294967480])).pendingCount = 1 := by
  refine ⟨?_, by decide⟩
  exact ((retry_schedule {} (by decide) 300 (by decide)
    [.enqueue { nodeId := 3, sequence := 7 } 4294967200, .nextDue 4294967200, .nextDue 4294967200,
      .nextDue 4294967480] (by decide)).1 [.enqueue { nodeId := 3, sequence := 7 } 4294967200,
    .nextDue 4294967200, .nextDue 4294967200] 4294967480 [] rfl (by decide)).1

end PicoMesh
