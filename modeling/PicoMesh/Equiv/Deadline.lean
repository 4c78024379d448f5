import PicoMesh.Equiv.ClockChange
import PicoMesh.Library.SerialNumber

/-!
# Modular deadlines and true time

Every call happens at a true time, a natural number, and passes it modulo 2^32.
`trueDeadline` reads the true deadline of each key off the calls and their
answers: the time of the accepted `enqueue`, then a timeout after the time of
each send.  `idealQueue` puts these deadlines into the queue's slots.

The invariant (`Tracks`) is that every pending entry holds its true deadline
modulo 2^32 and that no true deadline lies more than a timeout ahead.  With a
timeout below the half range the signed difference then never mistakes a future
deadline for a past one, and orders the two as they are while the deadline is
less than half the range past.
-/

namespace PicoMesh

open SerialNumber

/-! ### True time -/

/-- The time a call is made at, for the calls that read the clock. -/
def QueueOp.calledAt {τ : Type} : QueueOp τ → Option τ
  | .enqueue _ nowMs => some nowMs
  | .nextDue nowMs => some nowMs
  | _ => none

theorem QueueOp.mapTime_id {τ : Type} (op : QueueOp τ) : op.mapTime id = op := by
  cases op <;> rfl

/-- The true deadlines after a call: an accepted frame is due at once, a frame
that was sent is due a timeout later. -/
def trackDeadline (timeoutMs : ℕ) (deadline : Key → ℕ) : QueueOp ℕ → QueueReply → Key → ℕ
  | .enqueue frame t, .enqueued .queued => Function.update deadline frame.key t
  | .nextDue t, .decided ⟨.send, frame, _⟩ =>
    Function.update deadline frame.key (t + timeoutMs)
  | _, _ => deadline

/-- The queue with two history variables: the true deadline of every key and the
time of the last call. -/
structure TimedQueue where
  queue : ReliableQueue UInt32
  deadline : Key → ℕ
  now : ℕ

/-- The queue driven at true times, which it sees modulo 2^32. -/
def timedQueue (policy : RetryPolicy) : Mealy TimedQueue (QueueOp ℕ) QueueReply where
  start := ⟨.new policy, fun _ => 0, 0⟩
  step s op :=
    ({ queue := (s.queue.step (op.mapTime UInt32.ofNat)).1
       deadline := trackDeadline policy.timeoutMs.toNat s.deadline op
         (s.queue.step (op.mapTime UInt32.ofNat)).2
       now := op.calledAt.getD s.now },
      (s.queue.step (op.mapTime UInt32.ofNat)).2)

/-- The calls as the queue sees them. -/
abbrev modular (ops : List (QueueOp ℕ)) : List (QueueOp UInt32) :=
  ops.map (QueueOp.mapTime UInt32.ofNat)

/-- The true deadline of every key after a run. -/
def trueDeadline (policy : RetryPolicy) (ops : List (QueueOp ℕ)) : Key → ℕ :=
  ((timedQueue policy).run (timedQueue policy).start ops).deadline

/-- The queue with the given true deadlines in its slots. -/
def idealQueue (queue : ReliableQueue UInt32) (deadline : Key → ℕ) : ReliableQueue ℕ where
  slots := queue.slots.map fun slot =>
    { frame := slot.frame
      deadlineMs := deadline slot.frame.key
      attempts := slot.attempts
      active := slot.active }
  policy := queue.policy

/-- Every active entry is less than half the clock's range past its deadline. -/
def WithinHorizon (queue : ReliableQueue UInt32) (deadline : Key → ℕ) (t : ℕ) : Prop :=
  ∀ i : Fin kMaxPendingTransmissions, (queue.slots.get i).active = true →
    t < deadline (queue.slots.get i).frame.key + 2 ^ 31

/-! ### The comparison -/

theorem deadlineReached_ofNat_iff (t deadline : ℕ) :
    deadlineReached (UInt32.ofNat t) (UInt32.ofNat deadline) = true ↔
      forwardDistance (2 ^ 32) t deadline < 2 ^ 31 := by
  show decide _ = true ↔ _
  rw [decide_eq_true_iff, toInt32_nonneg_iff, toNat_uint32_sub]

/-- A deadline less than half the range ahead is not reached early. -/
theorem le_of_deadlineReached {t deadline : ℕ} (hfuture : deadline ≤ t + 2 ^ 31)
    (h : deadlineReached (UInt32.ofNat t) (UInt32.ofNat deadline) = true) : deadline ≤ t := by
  rw [deadlineReached_ofNat_iff] at h
  exact le_of_forwardDistance_lt (by omega) (by omega) h

/-- Within half the range on both sides the modular test is the true one. -/
theorem deadlineReached_ofNat {t deadline : ℕ} (hfuture : deadline ≤ t + 2 ^ 31)
    (hpast : t < deadline + 2 ^ 31) :
    deadlineReached (UInt32.ofNat t) (UInt32.ofNat deadline) = deadlineReached t deadline := by
  rw [Bool.eq_iff_iff, deadlineReached_ofNat_iff,
    forwardDistance_lt_iff (by omega) hpast (by omega)]
  show _ ↔ decide _ = true
  rw [decide_eq_true_iff]

theorem after_ofNat (t : ℕ) (timeoutMs : UInt32) :
    UInt32.ofNat (after t timeoutMs) = after (UInt32.ofNat t) timeoutMs := by
  show UInt32.ofNat (t + timeoutMs.toNat) = UInt32.ofNat t + timeoutMs
  rw [UInt32.ofNat_add, UInt32.ofNat_toNat]

/-! ### Entries hold their true deadlines -/

section Tracks

variable {τ : Type} {policy : RetryPolicy} {g : ℕ → τ}

/-- Every pending entry holds its true deadline, as the clock `g` shows it, and
that deadline is at most a timeout ahead of the last call. -/
def Tracks (g : ℕ → τ) (table : PendingTable τ policy) (deadline : Key → ℕ) (now : ℕ) : Prop :=
  ∀ k e, table.get k = some e →
    e.deadlineMs = g (deadline k) ∧ deadline k ≤ now + policy.timeoutMs.toNat

/-- Changing one binding and its true deadline together. -/
theorem Tracks.update {table table' : PendingTable τ policy} {deadline : Key → ℕ} {now now' : ℕ}
    (h : Tracks g table deadline now) (hnow : now ≤ now') {k : Key} {e : PendingEntry τ} {D : ℕ}
    (hget : table'.get = Function.update table.get k (some e)) (he : e.deadlineMs = g D)
    (hD : D ≤ now' + policy.timeoutMs.toNat) :
    Tracks g table' (Function.update deadline k D) now' := by
  intro k' e' hk'
  rw [hget] at hk'
  rcases eq_or_ne k' k with rfl | hne
  · rw [Function.update_self] at hk' ⊢
    obtain rfl := Option.some.inj hk'
    exact ⟨he, hD⟩
  · rw [Function.update_of_ne hne] at hk' ⊢
    exact ⟨(h k' e' hk').1, (h k' e' hk').2.trans (by omega)⟩

/-- Bindings that are all old ones keep their true deadlines. -/
theorem Tracks.mono {table table' : PendingTable τ policy} {deadline : Key → ℕ} {now now' : ℕ}
    (h : Tracks g table deadline now) (hnow : now ≤ now')
    (hget : ∀ k e, table'.get k = some e → table.get k = some e) :
    Tracks g table' deadline now' := by
  intro k e hk
  obtain ⟨he, hD⟩ := h k e (hget k e hk)
  exact ⟨he, by omega⟩

variable [Clock τ]

/-- A call that accepts and sends nothing moves no true deadline. -/
theorem trackDeadline_of_ne {timeoutMs : ℕ} {deadline : Key → ℕ} {op : QueueOp ℕ}
    {reply : QueueReply} (hqueued : reply ≠ .enqueued .queued)
    (hdecided : ∀ decision, reply = .decided decision → decision = {}) :
    trackDeadline timeoutMs deadline op reply = deadline := by
  unfold trackDeadline
  split
  · exact absurd rfl hqueued
  · cases hdecided _ rfl
  · rfl

/-- **One call keeps the true deadlines.** -/
theorem Tracks.step {table table' : PendingTable τ policy} {deadline : Key → ℕ} {now : ℕ}
    (hafter : ∀ t, after (g t) policy.timeoutMs = g (t + policy.timeoutMs.toNat))
    (h : Tracks g table deadline now) {op : QueueOp ℕ} {reply : QueueReply}
    (hnow : ∀ t, op.calledAt = some t → now ≤ t) (hstep : table.Step (op.mapTime g) reply table') :
    Tracks g table' (trackDeadline policy.timeoutMs.toNat deadline op reply)
      (op.calledAt.getD now) := by
  have hle : now ≤ op.calledAt.getD now := by
    cases hat : op.calledAt with
    | none => exact le_refl now
    | some t => exact hnow t hat
  generalize hop : op.mapTime g = mapped at hstep
  cases hstep.change with
  | same hqueued hdecided =>
    rw [trackDeadline_of_ne hqueued hdecided]
    exact h.mono hle fun _ _ => id
  | queue habsent hget =>
    cases op with
    | enqueue frame t =>
      cases hop
      exact h.update hle hget rfl (Nat.le_add_right _ _)
    | _ => cases hop
  | send hk hdue hleft hget =>
    cases op with
    | nextDue t =>
      cases hop
      obtain rfl := table.keyed _ _ hk
      exact h.update hle hget (hafter t) (le_refl _)
    | _ => cases hop
  | exhaust hk hdue hspent hget =>
    cases op with
    | nextDue t => exact h.mono hle fun _ _ => PendingTable.get_of_update_none hget
    | _ => cases hop
  | remove k hqueued hdecided hget =>
    rw [trackDeadline_of_ne hqueued fun d hd => absurd hd (hdecided d)]
    exact h.mono hle fun _ _ => PendingTable.get_of_update_none hget
  | clear =>
    intro k e hk
    cases hk

end Tracks

/-! ### Runs at true times -/

section Runs

variable {policy : RetryPolicy}

/-- The queue of the timed machine is the queue that sees the modular times. -/
theorem timedQueue_simulation (policy : RetryPolicy) :
    Mealy.Simulation (timedQueue policy) (reliableQueue policy) (QueueOp.mapTime UInt32.ofNat)
      (fun _ _ => True) (fun s queue => s.queue = queue) where
  answer := by
    rintro s _ op rfl -
    rfl
  next := by
    rintro s _ op rfl -
    rfl

theorem timedQueue_outputs (ops : List (QueueOp ℕ)) :
    (reliableQueue policy).outputs (reliableQueue policy).start (modular ops) =
      (timedQueue policy).outputs (timedQueue policy).start ops :=
  (timedQueue_simulation policy).outputs
    (show (timedQueue policy).start.queue = (reliableQueue policy).start from rfl)
    ((timedQueue policy).along_of_forall fun _ _ => trivial)

theorem timedQueue_run (ops : List (QueueOp ℕ)) :
    ((timedQueue policy).run (timedQueue policy).start ops).queue =
      queueAfter policy (modular ops) :=
  (timedQueue_simulation policy).run
    (show (timedQueue policy).start.queue = (reliableQueue policy).start from rfl)
    ((timedQueue policy).along_of_forall fun _ _ => trivial)

/-- The call is not made before the last one. -/
def TimedQueue.InOrder (s : TimedQueue) (op : QueueOp ℕ) : Prop :=
  ∀ t, op.calledAt = some t → s.now ≤ t

/-- Calls at non-decreasing times are in order at every step. -/
theorem along_inOrder {ops : List (QueueOp ℕ)} (hops : Mealy.NonDecreasing QueueOp.calledAt ops) :
    (timedQueue policy).Along TimedQueue.InOrder (timedQueue policy).start ops :=
  Mealy.along_of_nonDecreasing
    (show ∀ s op, ((timedQueue policy).step s op).1.now = op.calledAt.getD s.now
      from fun _ _ => rfl) hops fun t _ => Nat.zero_le t

/-- The queue stands for a table whose entries hold their true deadlines. -/
def TimedQueue.Tracked (policy : RetryPolicy) (s : TimedQueue) : Prop :=
  ∃ table : PendingTable UInt32 policy.normalise,
    s.queue.Represents table ∧ Tracks UInt32.ofNat table s.deadline s.now

theorem TimedQueue.Tracked.step {s : TimedQueue} {op : QueueOp ℕ} (h : s.Tracked policy)
    (hop : s.InOrder op) : ((timedQueue policy).step s op).1.Tracked policy := by
  obtain ⟨table, hrep, htracks⟩ := h
  obtain ⟨table', hrep', hstep⟩ := hrep.step (op.mapTime UInt32.ofNat)
  refine ⟨table', hrep', ?_⟩
  have htracks' := htracks.step (fun t => (after_ofNat t _).symm) hop hstep
  rwa [RetryPolicy.normalise_timeoutMs] at htracks'

theorem tracked_run {ops : List (QueueOp ℕ)} (hops : Mealy.NonDecreasing QueueOp.calledAt ops) :
    ((timedQueue policy).run (timedQueue policy).start ops).Tracked policy := by
  apply Mealy.along_invariant _ (fun _ _ h hop => TimedQueue.Tracked.step h hop)
  · exact ⟨.empty, ReliableQueue.represents_new, fun _ _ hk => nomatch hk⟩
  · exact along_inOrder hops

/-! ### One `nextDue` -/

variable {s : TimedQueue} {t : ℕ}

/-- **Never early**: a decision about an entry comes at or after its true
deadline. -/
theorem TimedQueue.Tracked.le_of_decision (h : s.Tracked policy) (hnow : s.now ≤ t)
    (htimeout : policy.timeoutMs.toNat < 2 ^ 31)
    (hdecision : (s.queue.nextDue (UInt32.ofNat t)).2.action ≠ .none) :
    s.deadline (s.queue.nextDue (UInt32.ofNat t)).2.frame.key ≤ t := by
  obtain ⟨table, hrep, htracks⟩ := h
  obtain ⟨table', -, hstep⟩ := hrep.nextDue (UInt32.ofNat t)
  obtain ⟨k, e, hk, hdue, hframe⟩ := hstep.due_of_decision hdecision
  obtain ⟨hdeadline, hfuture⟩ := htracks k e hk
  rw [RetryPolicy.normalise_timeoutMs] at hfuture
  rw [hframe, table.keyed k e hk]
  apply le_of_deadlineReached (by omega)
  rw [← hdeadline]
  exact hdue

theorem idealQueue_slot (queue : ReliableQueue UInt32) (deadline : Key → ℕ)
    (i : Fin kMaxPendingTransmissions) :
    (idealQueue queue deadline).slots.get i =
      { frame := (queue.slots.get i).frame
        deadlineMs := deadline (queue.slots.get i).frame.key
        attempts := (queue.slots.get i).attempts
        active := (queue.slots.get i).active } :=
  Vector.getElem_map _ i.isLt

/-- The queue with its true deadlines matches the queue on the modular clock. -/
theorem TimedQueue.Tracked.matches_ideal (h : s.Tracked policy) :
    ReliableQueue.Matches UInt32.ofNat (idealQueue s.queue s.deadline) s.queue := by
  obtain ⟨table, hrep, htracks⟩ := h
  refine ⟨rfl, fun i => ?_⟩
  rw [idealQueue_slot]
  refine ⟨rfl, rfl, rfl, fun hi => ?_⟩
  exact (htracks _ _ (hrep.get_slot hi)).1

/-- Within the horizon the modular due tests are the true ones. -/
theorem sameDue_of_horizon {queue : ReliableQueue ℕ}
    (hmatches : ReliableQueue.Matches UInt32.ofNat queue s.queue)
    (hdeadline : ∀ i : Fin kMaxPendingTransmissions, (queue.slots.get i).active = true →
      (queue.slots.get i).deadlineMs = s.deadline (queue.slots.get i).frame.key ∧
        (queue.slots.get i).deadlineMs ≤ t + 2 ^ 31)
    (hhorizon : WithinHorizon s.queue s.deadline t) :
    ReliableQueue.SameDue UInt32.ofNat queue t := by
  intro i hi
  obtain ⟨heq, hfuture⟩ := hdeadline i hi
  have hpast := hhorizon i ((hmatches.slot i).active.trans hi)
  rw [(hmatches.slot i).frame, ← heq] at hpast
  exact deadlineReached_ofNat hfuture hpast

theorem TimedQueue.Tracked.sameDue (h : s.Tracked policy) (hnow : s.now ≤ t)
    (htimeout : policy.timeoutMs.toNat < 2 ^ 31) (hhorizon : WithinHorizon s.queue s.deadline t) :
    ReliableQueue.SameDue UInt32.ofNat (idealQueue s.queue s.deadline) t := by
  apply sameDue_of_horizon h.matches_ideal _ hhorizon
  obtain ⟨table, hrep, htracks⟩ := h
  intro i hi
  rw [idealQueue_slot] at hi ⊢
  have hfuture := (htracks _ _ (hrep.get_slot hi)).2
  rw [RetryPolicy.normalise_timeoutMs] at hfuture
  refine ⟨rfl, ?_⟩
  show s.deadline (s.queue.slots.get i).frame.key ≤ t + 2 ^ 31
  omega

/-! ### A whole run -/

/-- The queue on the true clock, alongside the timed machine: matching slots, and
every entry holds the true deadline itself. -/
structure Alongside (policy : RetryPolicy) (s : TimedQueue) (queue : ReliableQueue ℕ) : Prop where
  slots : ReliableQueue.Matches UInt32.ofNat queue s.queue
  deadlines : ∃ table : PendingTable ℕ policy.normalise,
    queue.Represents table ∧ Tracks id table s.deadline s.now

/-- The call is in order, and a `nextDue` is made within the horizon. -/
def TimedQueue.Timely (s : TimedQueue) (op : QueueOp ℕ) : Prop :=
  s.InOrder op ∧ ∀ t, op = .nextDue t → WithinHorizon s.queue s.deadline t

theorem Alongside.step {queue : ReliableQueue ℕ} {op : QueueOp ℕ} (h : Alongside policy s queue)
    (htimeout : policy.timeoutMs.toNat < 2 ^ 31) (hop : s.Timely op) :
    Alongside policy ((timedQueue policy).step s op).1 (queue.step op).1 ∧
      ((timedQueue policy).step s op).2 = (queue.step op).2 := by
  obtain ⟨hmatches, table, hrep, htracks⟩ := h
  have hsame : ∀ t, op = .nextDue t → ReliableQueue.SameDue UInt32.ofNat queue t := by
    rintro t rfl
    apply sameDue_of_horizon hmatches _ (hop.2 t rfl)
    intro i hi
    obtain ⟨heq, hfuture⟩ := htracks _ _ (hrep.get_slot hi)
    have hnow : s.now ≤ t := hop.1 t rfl
    rw [RetryPolicy.normalise_timeoutMs] at hfuture
    refine ⟨heq, ?_⟩
    rw [show (queue.slots.get i).deadlineMs = s.deadline (queue.slots.get i).frame.key from heq]
    omega
  obtain ⟨hmatches', hreply⟩ := hmatches.step after_ofNat op hsame
  obtain ⟨table', hrep', hstep⟩ := hrep.step op
  refine ⟨⟨hmatches', table', hrep', ?_⟩, hreply⟩
  have hstep' : table.Step (op.mapTime id) (s.queue.step (op.mapTime UInt32.ofNat)).2 table' := by
    rw [hreply, op.mapTime_id]
    exact hstep
  have htracks' := htracks.step (fun _ => rfl) hop.1 hstep'
  rwa [RetryPolicy.normalise_timeoutMs] at htracks'

/-- **Within the horizon the modular queue answers as the ideal one.** -/
theorem timedQueue_outputs_ideal (htimeout : policy.timeoutMs.toNat < 2 ^ 31)
    {ops : List (QueueOp ℕ)}
    (hops : (timedQueue policy).Along TimedQueue.Timely (timedQueue policy).start ops) :
    (timedQueue policy).outputs (timedQueue policy).start ops =
      (reliableQueue policy).outputs (reliableQueue policy).start ops := by
  have hsim : Mealy.Simulation (timedQueue policy) (reliableQueue policy) id TimedQueue.Timely
      (Alongside policy) :=
    { answer := fun s queue op h hop => (h.step htimeout hop).2.symm
      next := fun s queue op h hop => (h.step htimeout hop).1 }
  have hstart : Alongside policy (timedQueue policy).start (reliableQueue policy).start :=
    ⟨ReliableQueue.matches_new policy, .empty, ReliableQueue.represents_new,
      fun _ _ hk => nomatch hk⟩
  have houtputs := hsim.outputs hstart hops
  rw [List.map_id] at houtputs
  exact houtputs.symm

end Runs

/-- **Modular deadlines match real time.**  Calls are made at non-decreasing true
times, seen modulo 2^32, with a timeout below half the range.  Then a decision
about an entry never comes before its true deadline; a `nextDue` within the
horizon picks the slot and returns the decision that the queue with the true
deadlines in its slots picks and returns; and a run whose every `nextDue` is
within the horizon answers as the run of the queue on the true clock. -/
theorem modular_deadlines (policy : RetryPolicy) (htimeout : policy.timeoutMs.toNat < 2 ^ 31)
    (ops : List (QueueOp ℕ)) (hops : Mealy.NonDecreasing QueueOp.calledAt ops) :
    (∀ before t rest, ops = before ++ .nextDue t :: rest →
      ((queueAfter policy (modular before)).nextDue (UInt32.ofNat t)).2.action ≠ .none →
      trueDeadline policy before
        ((queueAfter policy (modular before)).nextDue (UInt32.ofNat t)).2.frame.key ≤ t) ∧
    (∀ before t rest, ops = before ++ .nextDue t :: rest →
      WithinHorizon (queueAfter policy (modular before)) (trueDeadline policy before) t →
      SlotTable.first (ReliableQueue.due (UInt32.ofNat t))
          (queueAfter policy (modular before)).slots =
        SlotTable.first (ReliableQueue.due t)
          (idealQueue (queueAfter policy (modular before)) (trueDeadline policy before)).slots ∧
      ((queueAfter policy (modular before)).nextDue (UInt32.ofNat t)).2 =
        ((idealQueue (queueAfter policy (modular before)) (trueDeadline policy before)).nextDue
          t).2) ∧
    ((∀ before t rest, ops = before ++ .nextDue t :: rest →
        WithinHorizon (queueAfter policy (modular before)) (trueDeadline policy before) t) →
      (reliableQueue policy).outputs (reliableQueue policy).start (modular ops) =
        (reliableQueue policy).outputs (reliableQueue policy).start ops) := by
  have horder : (timedQueue policy).Along TimedQueue.InOrder (timedQueue policy).start ops :=
    along_inOrder hops
  -- the state before a call: tracked, and the call is not made before the last one
  have hbefore : ∀ before t rest, ops = before ++ .nextDue t :: rest →
      ((timedQueue policy).run (timedQueue policy).start before).Tracked policy ∧
        ((timedQueue policy).run (timedQueue policy).start before).now ≤ t := by
    rintro before t rest rfl
    rw [Mealy.along_append] at horder
    exact ⟨tracked_run hops.of_append, horder.2.1 t rfl⟩
  refine ⟨?_, ?_, ?_⟩
  · intro before t rest hsplit hdecision
    obtain ⟨htracked, hnow⟩ := hbefore before t rest hsplit
    rw [← timedQueue_run] at hdecision ⊢
    exact htracked.le_of_decision hnow htimeout hdecision
  · intro before t rest hsplit hhorizon
    obtain ⟨htracked, hnow⟩ := hbefore before t rest hsplit
    rw [← timedQueue_run] at hhorizon ⊢
    have hdue := htracked.sameDue hnow htimeout hhorizon
    exact ⟨htracked.matches_ideal.first_due hdue,
      (htracked.matches_ideal.nextDue after_ofNat hdue).2⟩
  · intro hhorizon
    rw [timedQueue_outputs]
    apply timedQueue_outputs_ideal htimeout
    rw [Mealy.along_iff] at horder ⊢
    rintro before op rest rfl
    refine ⟨horder before op rest rfl, ?_⟩
    rintro t rfl
    have hwithin := hhorizon before t rest rfl
    rwa [← timedQueue_run] at hwithin

/-- The retry of a frame sent six milliseconds before the clock wraps. -/
theorem modular_deadlines_example :
    ((queueAfter {} (modular [.enqueue { nodeId := 3, sequence := 7 } 4294967290,
        .nextDue 4294967290])).nextDue (UInt32.ofNat 4294967540)).2.action = .send ∧
      trueDeadline {} [.enqueue { nodeId := 3, sequence := 7 } 4294967290, .nextDue 4294967290]
        (3, 7) ≤ 4294967540 := by
  refine ⟨by decide, ?_⟩
  exact (modular_deadlines {} (by decide) [.enqueue { nodeId := 3, sequence := 7 } 4294967290,
    .nextDue 4294967290, .nextDue 4294967540] (by decide)).1
    [.enqueue { nodeId := 3, sequence := 7 } 4294967290, .nextDue 4294967290] 4294967540 [] rfl
    (by decide)

end PicoMesh
