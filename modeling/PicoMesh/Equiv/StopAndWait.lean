import PicoMesh.Equiv.ReliableCommand

/-!
# Stop-and-wait commands: at most once, in order, exactly once when acknowledged

The invariant (`CommandLink.Consistent`) links the three components by the
commands' numbers.  The one pending entry is the command queued last; the
commands in flight are numbered in non-decreasing order, none below the command
delivered last; the tracker remembers exactly that command, which is also the
last one applied; and what is being acknowledged has been applied.  The two
side conditions (`CommandLink.InWindow`) keep every number a byte stands for
within the window in which the byte determines it.
-/

namespace PicoMesh

namespace CommandLink

variable {policy : RetryPolicy} {node : UInt8} {i : Fin kMaxNodes} {s : CommandLink}

/-! ### Side conditions -/

/-- How many commands a delivery passes over: those after the last one delivered
and before this one, none of which has a delivered copy. -/
def skipped (s : CommandLink) : CommandLinkOp → ℕ
  | .deliverCommand _ =>
    match s.commands, s.delivered with
    | message :: _, some delivered => message.number - delivered - 1
    | _, _ => 0
  | _ => 0

/-- Fewer than 127 consecutive commands go without a delivered copy, and every
acknowledgement in flight is for one of the last 255 commands. -/
def InWindow (s : CommandLink) (op : CommandLinkOp) : Prop :=
  s.skipped op < 127 ∧ ∀ ack ∈ s.acks, s.controller.next ≤ ack.number + 255

instance (s : CommandLink) (op : CommandLinkOp) : Decidable (s.InWindow op) :=
  inferInstanceAs (Decidable (_ ∧ _))

/-! ### The invariant -/

/-- At most one entry is pending: the command queued last. -/
def OnePending (policy : RetryPolicy) (node : UInt8) (controller : Controller) : Prop :=
  ∃ table : PendingTable UInt32 policy, controller.queue.Represents table ∧
    ∀ k e, table.get k = some e → k.1 = node ∧ UInt8.ofNat (controller.number k.2) = k.2 ∧
      controller.number k.2 + 1 = controller.next

/-- What holds of the link after every run within the window. -/
structure Consistent (policy : RetryPolicy) (node : UInt8) (i : Fin kMaxNodes)
    (s : CommandLink) : Prop where
  pending : OnePending policy node s.controller
  commands : ∀ message ∈ s.commands, CarriesCommand node message.number message.bytes ∧
    message.number < s.controller.next
  ordered : s.commands.Pairwise fun m m' => m.number ≤ m'.number
  ahead : ∀ delivered, s.delivered = some delivered →
    delivered < s.controller.next ∧ ∀ message ∈ s.commands, delivered ≤ message.number
  tracker : s.tracker.Numbered i s.delivered
  applied : s.applied.Pairwise (· < ·)
  last : s.applied.getLast? = s.delivered
  acks : ∀ message ∈ s.acks, CarriesAck node message.number message.bytes ∧
    message.number ∈ s.applied

theorem consistent_start :
    (commandLink policy node).start.Consistent policy.normalise node i where
  pending := ⟨.empty, ReliableQueue.represents_new, fun _ _ hk => nomatch hk⟩
  commands := fun _ hm => nomatch hm
  ordered := List.Pairwise.nil
  ahead := fun _ hd => nomatch hd
  tracker := SequenceTracker.numbered_start i
  applied := List.Pairwise.nil
  last := rfl
  acks := fun _ hm => nomatch hm

/-- In a strictly increasing list no element exceeds the last. -/
theorem le_getLast {l : List ℕ} (h : l.Pairwise (· < ·)) {n d : ℕ} (hlast : l.getLast? = some d)
    (hn : n ∈ l) : n ≤ d := by
  obtain ⟨init, rfl⟩ := List.getLast?_eq_some_iff.mp hlast
  rw [List.pairwise_append] at h
  rcases List.mem_append.mp hn with hinit | hd
  · exact (h.2.2 n hinit d List.mem_cons_self).le
  · exact (List.mem_singleton.mp hd).le

/-- Every applied command has been queued. -/
theorem Consistent.lt_next (h : s.Consistent policy node i) {n : ℕ} (hn : n ∈ s.applied) :
    n < s.controller.next := by
  cases hlast : s.delivered with
  | none =>
    rw [← h.last, List.getLast?_eq_none_iff] at hlast
    rw [hlast] at hn
    cases hn
  | some d =>
    have hle := le_getLast h.applied (h.last.trans hlast) hn
    have hlt := (h.ahead d hlast).1
    omega

/-! ### The controller's steps -/

/-- With nothing pending the table has no entry. -/
theorem get_eq_none_of_pendingCount {queue : ReliableQueue UInt32}
    {table : PendingTable UInt32 policy} (hrep : queue.Represents table)
    (hcount : queue.pendingCount = 0) (k : Key) : table.get k = none := by
  unfold ReliableQueue.pendingCount at hcount
  rw [SlotTable.count_eq_zero] at hcount
  rw [hrep.get_none]
  intro j hj
  rw [hcount j] at hj
  cases hj

theorem OnePending.enqueueCommand {controller : Controller}
    (h : OnePending policy node controller) (hcount : controller.queue.pendingCount = 0)
    (content : Frame) (nowMs : UInt32) :
    OnePending policy node (controller.enqueueCommand node content nowMs).1 := by
  obtain ⟨table, hrep, -⟩ := h
  have hempty := get_eq_none_of_pendingCount hrep hcount
  obtain ⟨table', hrep', hcases⟩ :=
    Controller.get_of_enqueueCommand node hrep content nowMs
  refine ⟨table', hrep', ?_⟩
  intro k e hk
  rcases hcases with ⟨-, rfl⟩ | ⟨hnumber, e', hget⟩
  · rw [hempty k] at hk
    cases hk
  · rw [hget, Function.update_apply] at hk
    split_ifs at hk with hkey
    · rw [hkey, hnumber, Function.update_self]
      exact ⟨rfl, rfl, rfl⟩
    · rw [hempty k] at hk
      cases hk

/-- Calls that queue nothing leave at most the same entry pending. -/
theorem OnePending.of_step {controller : Controller} (h : OnePending policy node controller)
    (op : QueueOp UInt32)
    (hop : ∀ frame nowMs, op = .enqueue frame nowMs →
      (controller.queue.step op).2 ≠ .enqueued .queued) :
    OnePending policy node { controller with queue := (controller.queue.step op).1 } := by
  obtain ⟨table, hrep, hpending⟩ := h
  obtain ⟨table', hrep', hstep⟩ := hrep.step op
  refine ⟨table', hrep', ?_⟩
  intro k e hk
  obtain ⟨e', hk'⟩ := Controller.isSome_of_step hstep hop hk
  exact hpending k e' hk'

theorem Consistent.enqueue (h : s.Consistent policy node i) (content : Frame) (nowMs : UInt32) :
    (s.enqueue node content nowMs).Consistent policy node i := by
  unfold CommandLink.enqueue
  split_ifs with hcount
  · exact
      { h with
        pending := h.pending.enqueueCommand hcount content nowMs
        commands := fun message hm =>
          ⟨(h.commands message hm).1, Nat.lt_succ_of_lt (h.commands message hm).2⟩
        ahead := fun d hd => ⟨Nat.lt_succ_of_lt (h.ahead d hd).1, (h.ahead d hd).2⟩ }
  · exact h

theorem Consistent.transmit (h : s.Consistent policy node i) (nowMs : UInt32) (sent : Bool) :
    (s.transmit nowMs sent).Consistent policy node i := by
  have hpending : OnePending policy node (s.controller.transmitDue nowMs).1 :=
    h.pending.of_step (.nextDue nowMs) (by simp)
  unfold CommandLink.transmit
  simp only
  cases hsent : (s.controller.transmitDue nowMs).2 with
  | none => exact { h with pending := hpending }
  | some copy =>
    obtain ⟨number, bytes⟩ := copy
    obtain ⟨table, hrep, hentries⟩ := h.pending
    obtain ⟨hcarries, k, e, hk, hnumber⟩ := Controller.carries_of_transmitDue hrep
      (fun k e hk => ⟨(hentries k e hk).1, (hentries k e hk).2.1⟩) hsent
    have hlast : number + 1 = s.controller.next := by
      rw [hnumber]
      exact (hentries k e hk).2.2
    cases sent with
    | false => exact { h with pending := hpending }
    | true =>
      -- the new copy is of the command queued last, so it is in order behind the others
      refine { h with pending := hpending, commands := ?_, ordered := ?_, ahead := ?_ }
      · intro message hm
        rcases List.mem_append.mp hm with hold | hnew
        · exact h.commands message hold
        · obtain rfl := List.mem_singleton.mp hnew
          exact ⟨hcarries, show number < s.controller.next by omega⟩
      · apply List.pairwise_append.mpr
        refine ⟨h.ordered, List.pairwise_singleton _ _, ?_⟩
        intro message hm copy hcopy
        obtain rfl := List.mem_singleton.mp hcopy
        have hlt := (h.commands message hm).2
        show message.number ≤ number
        omega
      · intro d hd
        refine ⟨(h.ahead d hd).1, ?_⟩
        intro message hm
        rcases List.mem_append.mp hm with hold | hnew
        · exact (h.ahead d hd).2 message hold
        · obtain rfl := List.mem_singleton.mp hnew
          have hlt := (h.ahead d hd).1
          show d ≤ number
          omega

/-! ### The receiver's step -/

/-- The oldest command in flight is the one delivered last, or a new one. -/
theorem Consistent.observe_head (h : s.Consistent policy node i) (hnode : node.toNat = i.val)
    {message : Message} {rest : List Message} (hcommands : s.commands = message :: rest)
    {responseSequence : UInt8} (hskipped : s.skipped (.deliverCommand responseSequence) < 127) :
    (s.delivered = some message.number ∧
        s.tracker.observe node (UInt8.ofNat message.number) = (s.tracker, .duplicate)) ∨
      (∀ n ∈ s.applied, n < message.number) ∧
        ∃ state : SequenceState, state.accepts = true ∧ state.acknowledges = true ∧
          s.tracker.observe node (UInt8.ofNat message.number) =
            (s.tracker.remember i (UInt8.ofNat message.number), state) := by
  have htracker := h.tracker
  have hlast := h.last
  unfold skipped at hskipped
  rw [hcommands] at hskipped
  cases hdelivered : s.delivered with
  | none =>
    rw [hdelivered] at htracker hlast
    right
    constructor
    · intro n hn
      rw [List.getLast?_eq_none_iff.mp hlast] at hn
      cases hn
    · exact ⟨.first, rfl, rfl, htracker.observe_first hnode _⟩
  | some d =>
    rw [hdelivered] at htracker hskipped hlast
    simp only at hskipped
    have hle := (h.ahead d hdelivered).2 message (hcommands ▸ List.mem_cons_self)
    rcases Nat.eq_or_lt_of_le hle with rfl | hlt
    · left
      exact ⟨rfl, htracker.observe_duplicate hnode⟩
    · right
      constructor
      · intro n hn
        exact lt_of_le_of_lt (le_getLast h.applied hlast hn) hlt
      · exact ⟨.newer, rfl, rfl, htracker.observe_newer hnode hlt (by omega)⟩

/-- What the receiver does with the oldest command, put back into the link. -/
theorem Consistent.of_delivery (h : s.Consistent policy node i) {message : Message}
    {rest : List Message} (hcommands : s.commands = message :: rest) {tracker : SequenceTracker}
    {applied : List ℕ} {acks : List Message}
    (htracker : tracker.Numbered i (some message.number)) (happlied : applied.Pairwise (· < ·))
    (hlast : applied.getLast? = some message.number)
    (hacks : ∀ ack ∈ acks, CarriesAck node ack.number ack.bytes ∧ ack.number ∈ applied) :
    Consistent policy node i
      { s with commands := rest, tracker, applied, acks, delivered := some message.number } := by
  have hhead := h.commands message (hcommands ▸ List.mem_cons_self)
  have hordered := h.ordered
  rw [hcommands, List.pairwise_cons] at hordered
  exact
    { pending := h.pending
      commands := fun m hm => h.commands m (hcommands ▸ List.mem_cons_of_mem _ hm)
      ordered := hordered.2
      ahead := fun d hd => by
        obtain rfl := Option.some.inj hd
        exact ⟨hhead.2, hordered.1⟩
      tracker := htracker
      applied := happlied
      last := hlast
      acks := hacks }

/-- One more acknowledgement, of an applied command. -/
theorem acks_concat {applied : List ℕ} {acks : List Message} {number : ℕ} {bytes : List UInt8}
    (hacks : ∀ ack ∈ acks, CarriesAck node ack.number ack.bytes ∧ ack.number ∈ applied)
    (hcarries : CarriesAck node number bytes) (happlied : number ∈ applied) :
    ∀ ack ∈ acks ++ [⟨number, bytes⟩],
      CarriesAck node ack.number ack.bytes ∧ ack.number ∈ applied := by
  intro ack hack
  rcases List.mem_append.mp hack with hold | hnew
  · exact hacks ack hold
  · rw [List.mem_singleton.mp hnew]
    exact ⟨hcarries, happlied⟩

theorem Consistent.deliverCommand (h : s.Consistent policy node i) (hnode : node.toNat = i.val)
    {responseSequence : UInt8} (hskipped : s.skipped (.deliverCommand responseSequence) < 127) :
    (s.deliverCommand node responseSequence).Consistent policy node i := by
  unfold CommandLink.deliverCommand
  cases hcommands : s.commands with
  | nil => exact h
  | cons message rest =>
    have hmessage := h.commands message (hcommands ▸ List.mem_cons_self)
    obtain ⟨frame, hsequence, hreceive⟩ :=
      receiveCommand_of_carries s.tracker hmessage.1
    have hanswer : CarriesAck node message.number
        (encodeFrame (makeAckFrame node responseSequence frame.sequence .accepted)).active :=
      ⟨responseSequence, by rw [hsequence]⟩
    simp only [hreceive]
    rcases h.observe_head hnode hcommands hskipped with
      ⟨hdelivered, hobserve⟩ | ⟨hfresh, state, haccepts, hacknowledges, hobserve⟩
    · -- a repeated copy: nothing is applied, the answer is repeated
      have haccepts : SequenceState.duplicate.accepts = false := rfl
      have hacknowledges : SequenceState.duplicate.acknowledges = true := rfl
      rw [hobserve]
      simp only [haccepts, hacknowledges, if_true, Bool.false_eq_true, if_false]
      have hlast := h.last.trans hdelivered
      apply h.of_delivery hcommands (hdelivered ▸ h.tracker) h.applied hlast
      exact acks_concat h.acks hanswer (List.mem_of_getLast? hlast)
    · -- a new command: it is applied, and exceeds everything applied before
      rw [hobserve]
      simp only [haccepts, hacknowledges, if_true]
      apply h.of_delivery hcommands (SequenceTracker.numbered_remember _)
      · apply List.pairwise_append.mpr
        refine ⟨h.applied, List.pairwise_singleton _ _, ?_⟩
        intro n hn m hm
        obtain rfl := List.mem_singleton.mp hm
        exact hfresh n hn
      · exact List.getLast?_concat
      · apply acks_concat _ hanswer (List.mem_append_right _ List.mem_cons_self)
        exact fun ack hack =>
          ⟨(h.acks ack hack).1, List.mem_append_left _ (h.acks ack hack).2⟩

/-! ### Acknowledgements and losses -/

theorem Consistent.deliverAck (h : s.Consistent policy node i) :
    s.deliverAck.1.Consistent policy node i := by
  unfold CommandLink.deliverAck
  cases hacks : s.acks with
  | nil => exact h
  | cons message rest =>
    have hmessage := h.acks message (hacks ▸ List.mem_cons_self)
    simp only [receiveAcknowledgement_of_carries hmessage.1]
    exact
      { h with
        pending := h.pending.of_step (.acknowledge node (UInt8.ofNat message.number) .accepted)
          (by simp)
        acks := fun ack hack => h.acks ack (hacks ▸ List.mem_cons_of_mem _ hack) }

theorem Consistent.loseCommand (h : s.Consistent policy node i) (index : ℕ) :
    Consistent policy node i { s with commands := s.commands.eraseIdx index } :=
  { h with
    commands := fun message hm => h.commands message (List.mem_of_mem_eraseIdx hm)
    ordered := h.ordered.sublist (List.eraseIdx_sublist _ _)
    ahead := fun d hd =>
      ⟨(h.ahead d hd).1, fun message hm => (h.ahead d hd).2 message (List.mem_of_mem_eraseIdx hm)⟩ }

theorem Consistent.loseAck (h : s.Consistent policy node i) (index : ℕ) :
    Consistent policy node i { s with acks := s.acks.eraseIdx index } :=
  { h with acks := fun ack hack => h.acks ack (List.mem_of_mem_eraseIdx hack) }

/-- **One event within the window keeps the invariant.** -/
theorem Consistent.step (h : s.Consistent policy node i) (hnode : node.toNat = i.val)
    {op : CommandLinkOp} (hop : s.InWindow op) : (s.step node op).1.Consistent policy node i := by
  cases op with
  | enqueue content nowMs => exact h.enqueue content nowMs
  | transmit nowMs sent => exact h.transmit nowMs sent
  | deliverCommand responseSequence => exact h.deliverCommand hnode hop.1
  | loseCommand index => exact h.loseCommand index
  | deliverAck => exact h.deliverAck
  | loseAck index => exact h.loseAck index

/-- **An acceptance resolves a command applied exactly once.** -/
theorem Consistent.applied_once (h : s.Consistent policy node i)
    (hwindow : ∀ ack ∈ s.acks, s.controller.next ≤ ack.number + 255)
    (haccepted : s.deliverAck.2 = some .accepted) :
    ∃ j : Fin kMaxPendingTransmissions, (s.controller.queue.slots.get j).active = true ∧
      (∀ j' : Fin kMaxPendingTransmissions,
        (s.controller.queue.slots.get j').active = true → j' = j) ∧
      s.applied.count
        (s.controller.number (s.controller.queue.slots.get j).frame.sequence) = 1 := by
  unfold CommandLink.deliverAck at haccepted
  cases hacks : s.acks with
  | nil =>
    rw [hacks] at haccepted
    cases haccepted
  | cons message rest =>
    have hmem : message ∈ s.acks := hacks ▸ List.mem_cons_self
    obtain ⟨hcarries, happlied⟩ := h.acks message hmem
    rw [hacks] at haccepted
    simp only [receiveAcknowledgement_of_carries hcarries] at haccepted
    obtain ⟨table, hrep, hentries⟩ := h.pending
    obtain ⟨table', -, hstep⟩ := hrep.acknowledge node (UInt8.ofNat message.number) .accepted
    rw [Option.some.inj haccepted, PendingTable.Step] at hstep
    split_ifs at hstep with hpresent
    · obtain ⟨e, he⟩ := Option.isSome_iff_exists.mp hpresent
      obtain ⟨j, hj, hkey, -⟩ := hrep.get_iff.mp he
      have hsequence :
          (s.controller.queue.slots.get j).frame.sequence = UInt8.ofNat message.number :=
        congrArg Prod.snd hkey
      have hkey_eq : ∀ k e, table.get k = some e →
          k = (node, UInt8.ofNat (s.controller.next - 1)) := by
        intro k e hk
        obtain ⟨hnode, hnumber, hnext⟩ := hentries k e hk
        refine Prod.ext hnode ?_
        show k.2 = _
        rw [← hnext, Nat.add_sub_cancel, hnumber]
      refine ⟨j, hj, ?_, ?_⟩
      · intro j' hj'
        by_contra hne
        apply hrep.other_key hj hne hj'
        rw [hkey_eq _ _ (hrep.get_slot hj'), hkey_eq _ _ (hrep.get_slot hj)]
      · -- the byte is the pending number's, and the window leaves one number with it
        obtain ⟨-, hnumber, hnext⟩ := hentries _ e he
        simp only at hnumber hnext
        have hlt := h.lt_next happlied
        have hle := hwindow message hmem
        have hsame : s.controller.number (UInt8.ofNat message.number) % 256 =
            message.number % 256 := by
          have htoNat := congrArg UInt8.toNat hnumber
          rwa [UInt8.toNat_ofNat', UInt8.toNat_ofNat'] at htoNat
        rw [hsequence, show s.controller.number (UInt8.ofNat message.number) = message.number by
          omega]
        exact List.count_eq_one_of_mem (h.applied.imp fun hlt => hlt.ne) happlied
    · cases hstep.1

end CommandLink

/-- The link after a run of events. -/
def commandLinkAfter (policy : RetryPolicy) (node : UInt8) (ops : List CommandLinkOp) :
    CommandLink :=
  (commandLink policy node).run (commandLink policy node).start ops

/-- **Stop-and-wait commands.**  In every run to a node whose steps stay within the
window, the commands are applied in strictly increasing order of their numbers,
so in the order they were queued and none twice; and whenever an arriving
acknowledgement is resolved as accepted, one entry is pending and its command has
been applied exactly once. -/
theorem stop_and_wait (policy : RetryPolicy) (node : UInt8) (hnode : node.toNat < kMaxNodes)
    (ops : List CommandLinkOp)
    (hops : (commandLink policy node).Along CommandLink.InWindow
      (commandLink policy node).start ops) :
    (commandLinkAfter policy node ops).applied.Pairwise (· < ·) ∧
    (commandLinkAfter policy node ops).applied.Nodup ∧
    ∀ before rest, ops = before ++ .deliverAck :: rest →
      ((commandLinkAfter policy node before).step node .deliverAck).2 = some .accepted →
      ∃ j : Fin kMaxPendingTransmissions,
        ((commandLinkAfter policy node before).controller.queue.slots.get j).active = true ∧
        (∀ j' : Fin kMaxPendingTransmissions,
          ((commandLinkAfter policy node before).controller.queue.slots.get j').active = true →
            j' = j) ∧
        (commandLinkAfter policy node before).applied.count
          ((commandLinkAfter policy node before).controller.number
            ((commandLinkAfter policy node before).controller.queue.slots.get
              j).frame.sequence) = 1 := by
  have hconsistent : ∀ run, (commandLink policy node).Along CommandLink.InWindow
      (commandLink policy node).start run →
      (commandLinkAfter policy node run).Consistent policy.normalise node ⟨node.toNat, hnode⟩ :=
    fun run hrun => (commandLink policy node).along_invariant
      (I := CommandLink.Consistent policy.normalise node ⟨node.toNat, hnode⟩)
      (fun s op h hop => h.step rfl hop) CommandLink.consistent_start hrun
  have happlied := (hconsistent ops hops).applied
  refine ⟨happlied, happlied.imp fun hlt => hlt.ne, ?_⟩
  rintro before rest rfl haccepted
  rw [Mealy.along_append] at hops
  exact (hconsistent before hops.1).applied_once hops.2.1.2 haccepted

/-- A retried command is applied once, and its acknowledgement lets the next one
through. -/
theorem stop_and_wait_example :
    (commandLinkAfter {} 0 [.enqueue {} 0, .transmit 0 true, .transmit 250 true, .deliverCommand 9,
      .deliverCommand 10, .deliverAck, .enqueue {} 300, .transmit 300 true,
      .deliverCommand 11]).applied = [0, 1] ∧
    (commandLinkAfter {} 0 [.enqueue {} 0, .transmit 0 true, .transmit 250 true, .deliverCommand 9,
      .deliverCommand 10, .deliverAck, .enqueue {} 300, .transmit 300 true,
      .deliverCommand 11]).applied.Pairwise (· < ·) := by
  refine ⟨by decide, ?_⟩
  exact (stop_and_wait {} 0 (by decide) [.enqueue {} 0, .transmit 0 true, .transmit 250 true,
    .deliverCommand 9, .deliverCommand 10, .deliverAck, .enqueue {} 300, .transmit 300 true,
    .deliverCommand 11] (by decide)).1

end PicoMesh
