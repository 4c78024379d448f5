import PicoMesh.ReliableCommand
import PicoMesh.Equiv.Frame
import PicoMesh.Equiv.RetryLife
import PicoMesh.Equiv.SequenceTracker

/-!
# The controller and the receiver on numbered commands

`Controller.Labelled` says that every pending entry is for the node and that
its sequence byte is the recorded number modulo 256; the controller's
operations keep it.  What the controller sends then carries its number
(`CarriesCommand`), what the receiver classifies is that number, and an
acknowledgement resolves the entry with the number it is about.
-/

namespace PicoMesh

/-! ### Frames on the wire -/

/-- The bytes encode a frame of `node` with the sequence byte of `number`. -/
def CarriesCommand (node : UInt8) (number : ℕ) (bytes : List UInt8) : Prop :=
  ∃ frame : Frame, bytes = (encodeFrame frame).active ∧
    frame.nodeId = node ∧ frame.sequence = UInt8.ofNat number

/-- The bytes encode the acceptance of the sequence byte of `number` by `node`. -/
def CarriesAck (node : UInt8) (number : ℕ) (bytes : List UInt8) : Prop :=
  ∃ responseSequence, bytes =
    (encodeFrame (makeAckFrame node responseSequence (UInt8.ofNat number) .accepted)).active

/-- A command arrives as its number. -/
theorem receiveCommand_of_carries (tracker : SequenceTracker) {node : UInt8} {number : ℕ}
    {bytes : List UInt8} (h : CarriesCommand node number bytes) :
    ∃ frame : Frame, frame.sequence = UInt8.ofNat number ∧
      receiveCommand tracker bytes =
        ((tracker.observe node (UInt8.ofNat number)).1,
          some (frame, (tracker.observe node (UInt8.ofNat number)).2)) := by
  obtain ⟨frame, rfl, hnode, hsequence⟩ := h
  refine ⟨frame.normalise, ?_, ?_⟩
  · rw [Frame.sequence_normalise, hsequence]
  · unfold receiveCommand
    rw [decodeFrame_encodeFrame]
    show ((tracker.observe frame.normalise.nodeId frame.normalise.sequence).1, _) = _
    rw [Frame.nodeId_normalise, Frame.sequence_normalise, hnode, hsequence]

theorem makeAckFrame_type (nodeId responseSequence acknowledgedSequence : UInt8)
    (status : AckStatus) :
    (makeAckFrame nodeId responseSequence acknowledgedSequence status).type = .acknowledgement :=
  rfl

theorem makeAckFrame_nodeId (nodeId responseSequence acknowledgedSequence : UInt8)
    (status : AckStatus) :
    (makeAckFrame nodeId responseSequence acknowledgedSequence status).nodeId = nodeId :=
  rfl

/-- An acknowledgement frame parses back after the wire. -/
theorem parseAckFrame_normalise (nodeId responseSequence acknowledgedSequence : UInt8)
    {status : AckStatus} (h : status.raw ≤ AckStatus.malformed.raw) :
    parseAckFrame
        (makeAckFrame nodeId responseSequence acknowledgedSequence status).normalise =
      some (acknowledgedSequence, status) := by
  obtain ⟨htype, -, -, -, hlength, hpayload⟩ := Frame.normalise_spec
    (makeAckFrame nodeId responseSequence acknowledgedSequence status)
  have htwo : (makeAckFrame nodeId responseSequence acknowledgedSequence
      status).normalise.payloadLength = 2 := by
    rw [← UInt8.toNat_inj, hlength]
    rfl
  rw [htwo] at hpayload
  unfold parseAckFrame
  rw [if_neg (by rw [htype, htwo]; simp [makeAckFrame])]
  have hzero := hpayload 0 (by decide)
  have hone := hpayload 1 (by decide)
  rw [if_pos (by decide)] at hzero hone
  have hstatus : (makeAckFrame nodeId responseSequence acknowledgedSequence
      status).normalise.payload[1] = status.raw := hone
  simp only [hzero, hstatus]
  rw [if_neg (UInt8.not_lt.mpr h)]
  rfl

/-- Received bytes that decode to a valid acknowledgement resolve its key. -/
theorem receiveAcknowledgement_of_parse {controller : Controller} {bytes : List UInt8}
    {frame : Frame} {sequence : UInt8} {status : AckStatus}
    (hdecode : decodeFrame bytes = { frame := frame }) (htype : frame.type = .acknowledgement)
    (hparse : parseAckFrame frame = some (sequence, status)) :
    controller.receiveAcknowledgement bytes =
      ({ controller with
          queue := (controller.queue.acknowledge frame.nodeId sequence status).1 },
        some (controller.queue.acknowledge frame.nodeId sequence status).2) := by
  have hok : DecodeResult.ok { frame := frame } = true := rfl
  unfold Controller.receiveAcknowledgement
  simp only [hdecode, hok, htype, hparse]
  rfl

/-- An acceptance resolves its sequence byte. -/
theorem receiveAcknowledgement_of_carries {controller : Controller} {node : UInt8} {number : ℕ}
    {bytes : List UInt8} (h : CarriesAck node number bytes) :
    controller.receiveAcknowledgement bytes =
      ({ controller with
          queue := (controller.queue.acknowledge node (UInt8.ofNat number) .accepted).1 },
        some (controller.queue.acknowledge node (UInt8.ofNat number) .accepted).2) := by
  obtain ⟨responseSequence, hbytes⟩ := h
  have hparse := parseAckFrame_normalise node responseSequence (UInt8.ofNat number)
    (show AckStatus.accepted.raw ≤ AckStatus.malformed.raw by decide)
  have htype : (makeAckFrame node responseSequence (UInt8.ofNat number) .accepted).normalise.type =
      .acknowledgement := by
    rw [Frame.type_normalise, makeAckFrame_type]
  have hdecode := decodeFrame_encodeFrame
    (makeAckFrame node responseSequence (UInt8.ofNat number) .accepted)
  rw [hbytes, receiveAcknowledgement_of_parse hdecode htype hparse, Frame.nodeId_normalise,
    makeAckFrame_nodeId]

/-! ### The controller's entries -/

namespace Controller

variable {policy : RetryPolicy} {controller : Controller} {node : UInt8}

/-- The queue stands for a table all of whose entries are for `node` and carry
the sequence byte of their recorded number. -/
def Labelled (policy : RetryPolicy) (node : UInt8) (controller : Controller) : Prop :=
  ∃ table : PendingTable UInt32 policy, controller.queue.Represents table ∧
    ∀ k e, table.get k = some e → k.1 = node ∧ UInt8.ofNat (controller.number k.2) = k.2

/-- A call other than an accepted `enqueue` leaves no key that was not there. -/
theorem isSome_of_step {table table' : PendingTable UInt32 policy} {op : QueueOp UInt32}
    {reply : QueueReply} (hstep : table.Step op reply table')
    (hop : ∀ frame nowMs, op = .enqueue frame nowMs → reply ≠ .enqueued .queued)
    {k : Key} {e : PendingEntry UInt32} (hk : table'.get k = some e) :
    ∃ e', table.get k = some e' := by
  rw [← Option.ne_none_iff_exists']
  intro hnone
  have habsent := PendingTable.step_absent hstep hnone fun frame nowMs h _ => hop frame nowMs h
  rw [habsent.1] at hk
  cases hk

/-- Calls that queue nothing keep the labels. -/
theorem Labelled.of_step (h : controller.Labelled policy node) (op : QueueOp UInt32)
    (hop : ∀ frame nowMs, op = .enqueue frame nowMs →
      (controller.queue.step op).2 ≠ .enqueued .queued) :
    Labelled policy node { controller with queue := (controller.queue.step op).1 } := by
  obtain ⟨table, hrep, hlabel⟩ := h
  obtain ⟨table', hrep', hstep⟩ := hrep.step op
  refine ⟨table', hrep', ?_⟩
  intro k e hk
  obtain ⟨e', hk'⟩ := isSome_of_step hstep hop hk
  exact hlabel k e' hk'

theorem Labelled.transmitDue (h : controller.Labelled policy node) (nowMs : UInt32) :
    (controller.transmitDue nowMs).1.Labelled policy node :=
  h.of_step (.nextDue nowMs) (by simp)

theorem Labelled.acknowledge (h : controller.Labelled policy node) (nodeId sequence : UInt8)
    (status : AckStatus) :
    Labelled policy node
      { controller with queue := (controller.queue.acknowledge nodeId sequence status).1 } :=
  h.of_step (.acknowledge nodeId sequence status) (by simp)

theorem Labelled.cancel (h : controller.Labelled policy node) (nodeId sequence : UInt8) :
    Labelled policy node
      { controller with queue := (controller.queue.cancel nodeId sequence).1 } :=
  h.of_step (.cancel nodeId sequence) (by simp)

theorem Labelled.clear (h : controller.Labelled policy node) :
    Labelled policy node { controller with queue := controller.queue.clear } :=
  h.of_step .clear (by simp)

/-- What `enqueueCommand` does to the table. -/
theorem get_of_enqueueCommand (node : UInt8) {table : PendingTable UInt32 policy}
    (hrep : controller.queue.Represents table) (content : Frame) (nowMs : UInt32) :
    ∃ table' : PendingTable UInt32 policy,
      (controller.enqueueCommand node content nowMs).1.queue.Represents table' ∧
      ((controller.enqueueCommand node content nowMs).1.number = controller.number ∧
          table' = table ∨
        (controller.enqueueCommand node content nowMs).1.number =
            Function.update controller.number (UInt8.ofNat controller.next) controller.next ∧
          ∃ e, table'.get =
            Function.update table.get (node, UInt8.ofNat controller.next) (some e)) := by
  unfold Controller.enqueueCommand
  generalize hcommand : ({ content with
    nodeId := node, sequence := UInt8.ofNat controller.next } : Frame) = command
  have hkey : command.key = (node, UInt8.ofNat controller.next) := by rw [← hcommand]; rfl
  have hsequence : command.sequence = UInt8.ofNat controller.next := congrArg Prod.snd hkey
  obtain ⟨table', hrep', hstep⟩ := hrep.enqueue command nowMs
  refine ⟨table', hrep', ?_⟩
  simp only [hsequence]
  rw [PendingTable.Step, hkey] at hstep
  split_ifs at hstep with hinvalid hfull
  · obtain ⟨hreply, rfl⟩ := hstep
    rw [QueueReply.enqueued.inj hreply]
    exact Or.inl ⟨rfl, rfl⟩
  · obtain ⟨hreply, rfl⟩ := hstep
    rw [QueueReply.enqueued.inj hreply]
    exact Or.inl ⟨rfl, rfl⟩
  · obtain ⟨hreply, hget⟩ := hstep
    rw [QueueReply.enqueued.inj hreply]
    exact Or.inr ⟨rfl, _, hget⟩

theorem Labelled.enqueueCommand (h : controller.Labelled policy node) (content : Frame)
    (nowMs : UInt32) : (controller.enqueueCommand node content nowMs).1.Labelled policy node := by
  obtain ⟨table, hrep, hlabel⟩ := h
  obtain ⟨table', hrep', hcases⟩ := get_of_enqueueCommand node hrep content nowMs
  refine ⟨table', hrep', ?_⟩
  intro k e hk
  rcases hcases with ⟨hnumber, rfl⟩ | ⟨hnumber, e', hget⟩
  · rw [hnumber]
    exact hlabel k e hk
  · rw [hnumber]
    rw [hget] at hk
    rcases eq_or_ne k (node, UInt8.ofNat controller.next) with rfl | hne
    · rw [Function.update_self]
      exact ⟨rfl, rfl⟩
    · -- another key of the same node has another sequence byte
      rw [Function.update_of_ne hne] at hk
      obtain ⟨hnode, hsequence⟩ := hlabel k e hk
      have hother : k.2 ≠ UInt8.ofNat controller.next := fun heq => hne (Prod.ext hnode heq)
      rw [Function.update_of_ne hother]
      exact ⟨hnode, hsequence⟩

/-- **What is sent carries its number**, and that is the number of an entry. -/
theorem carries_of_transmitDue {table : PendingTable UInt32 policy}
    (hrep : controller.queue.Represents table)
    (hlabel : ∀ k e, table.get k = some e → k.1 = node ∧ UInt8.ofNat (controller.number k.2) = k.2)
    {nowMs : UInt32} {number : ℕ} {bytes : List UInt8}
    (hsent : (controller.transmitDue nowMs).2 = some (number, bytes)) :
    CarriesCommand node number bytes ∧
      ∃ k e, table.get k = some e ∧ number = controller.number k.2 := by
  obtain ⟨table', -, hstep⟩ := hrep.nextDue nowMs
  unfold Controller.transmitDue at hsent
  simp only at hsent
  generalize (controller.queue.nextDue nowMs).2 = decision at hstep hsent
  split_ifs at hsent with hsend
  obtain ⟨rfl, rfl⟩ := Prod.mk.inj (Option.some.inj hsent)
  have hdecision : decision.action ≠ .none := by
    rw [hsend]
    decide
  obtain ⟨k, e, hk, -, hframe⟩ := hstep.due_of_decision hdecision
  obtain ⟨hnode, hsequence⟩ := hlabel k e hk
  have hkeyed := table.keyed k e hk
  have hnodeId : e.frame.nodeId = k.1 := congrArg Prod.fst hkeyed
  have hseq : e.frame.sequence = k.2 := congrArg Prod.snd hkeyed
  rw [hframe, hseq]
  exact ⟨⟨e.frame, rfl, hnodeId.trans hnode, hseq.trans hsequence.symm⟩, k, e, hk, rfl⟩

end Controller

end PicoMesh
