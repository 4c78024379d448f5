import PicoMesh.Equiv.LatestWrite
import PicoMesh.Equiv.OneCommand
import PicoMesh.Equiv.PaddedRead
import PicoMesh.WireLink

/-!
# The reliable command sketch over the node's registers

`WireLink.Consistent` is what holds of the two boards after any run: the unread
write is a part of a command that has been sent, what is published is a heartbeat
or the acknowledgement of a command that has been received, and every command has
reached the node's program at most as often as it was sent.  No side condition is
needed for it, and no assumption on what the clocks say.  `ControllerTurn` and
`NodeTurn` list what a step of either board can do then.

An acknowledgement stays published until something else is.  It names its command
by a byte, so it is taken for another one if 256 commands have been queued since;
`wire_link` says that an acceptance is otherwise always right.
-/

namespace PicoMesh

/-! ### The endpoint's registers -/

namespace WirePeripheralEndpoint

variable {endpoint : WirePeripheralEndpoint}

/-- After a publish, reads are answered with the frame. -/
theorem requestFromIsr_publish (frame : Frame) :
    (endpoint.publish frame).1.requestFromIsr = (encodeFrame frame).active := by
  have hsizes := sizes
  have hle := length_le_of_decodeFrame_ok (decodeFrame_encodeFrame_ok frame)
  have hpos : (encodeFrame frame).active.length ≠ 0 :=
    List.length_eq_zero_iff.not.mpr (encodeFrame_shaped frame).ne_nil
  have hlength : (UInt8.ofNat (encodeFrame frame).length).toNat =
      (encodeFrame frame).active.length := by
    rw [UInt8.toNat_ofNat', encodeFrame_length]
    omega
  have hcopied := take_copyAt endpoint.txBytes 0 (encodeFrame frame).active (by omega)
  rw [Nat.zero_add, List.take_zero, List.nil_append] at hcopied
  have hfits : ¬((encodeFrame frame).length = 0 ∨
      (encodeFrame frame).length > kMaxEncodedFrameSize) := by
    rw [encodeFrame_length]
    omega
  have hready : 0 < UInt8.ofNat (encodeFrame frame).length := by
    rw [UInt8.lt_iff_toNat_lt, hlength, UInt8.toNat_zero]
    omega
  unfold publish requestFromIsr
  simp only [if_neg hfits, if_pos hready, hlength, hcopied]

theorem requestFromIsr_poll (frame : Frame) (error : Option DecodeError) :
    (endpoint.poll frame error).1.requestFromIsr = endpoint.requestFromIsr := by
  unfold poll
  dsimp only
  split_ifs <;> rfl

theorem requestFromIsr_receive (count : ℕ) (available : List UInt8) :
    (endpoint.receiveFromIsr count available).requestFromIsr = endpoint.requestFromIsr := rfl

end WirePeripheralEndpoint

/-! ### What the bus brings across -/

/-- A part of an encoding that decodes is the whole. -/
theorem eq_of_isPrefix_of_ok {f : Frame} {p : List UInt8} (hp : p <+: (encodeFrame f).active)
    (hok : (decodeFrame p).ok = true) : p = (encodeFrame f).active := by
  have hpart := (receivedLength_of_front hp hok).2
  have hwhole := (receivedLength_of_front (List.prefix_refl _) (decodeFrame_encodeFrame_ok f)).2
  exact hpart.symm.trans hwhole

/-- Whatever part of a padded encoding a read brings, only the encoding can be decoded in it. -/
theorem take_receivedLength_of_padded {f : Frame} {padding r : List UInt8}
    (hr : r <+: (encodeFrame f).active ++ padding)
    (hok : (decodeFrame (r.take (receivedLength r))).ok = true) :
    r.take (receivedLength r) = (encodeFrame f).active := by
  obtain ⟨p, hp, hpok⟩ := decodeFrame_received_iff.mp hok
  have hread := (receivedLength_of_front hp hpok).2
  -- both the part found and the encoding stand in front of the padded bytes
  have hfound := (receivedLength_of_front (hp.trans hr) hpok).2
  have hsent := (receivedLength_of_front (List.prefix_append (encodeFrame f).active padding)
    (decodeFrame_encodeFrame_ok f)).2
  rw [hread, hfound.symm.trans hsent]

/-- An idle bus looks like no frame. -/
theorem decodeFrame_of_isPrefix_replicate {n : ℕ} {idle : UInt8} {r : List UInt8}
    (hr : r <+: List.replicate n idle) :
    (decodeFrame (r.take (receivedLength r))).ok = false := by
  rw [Bool.eq_false_iff]
  intro hok
  obtain ⟨p, hp, hpok⟩ := decodeFrame_received_iff.mp hok
  have hshape := ((decodeFrame_ok_iff p).mp ((decodeFrame_ok_iff_error p).mp hpok)).1
  have hsizes := sizes
  have hlength := hshape.length
  obtain ⟨m, rfl⟩ : ∃ m, p = List.replicate m idle :=
    ⟨p.length, List.eq_replicate_of_mem fun b hb =>
      List.eq_of_mem_replicate ((hp.trans hr).subset hb)⟩
  rw [List.length_replicate] at hlength
  -- the magic byte and the version differ
  have hmagic := hshape.magic
  have hversion := hshape.version
  rw [List.getD_eq_getElem _ _ (by rw [List.length_replicate]; omega),
    List.getElem_replicate] at hmagic hversion
  exact absurd (hmagic.symm.trans hversion) (by decide)

/-- A transfer of which nothing is lost. -/
def BusTransfer.Full (transfer : BusTransfer) : Prop :=
  transfer.addressed = true ∧ kMaxEncodedFrameSize ≤ transfer.count

/-- What the controller reads is a part of the published bytes and the idle bus behind them; a
full transfer brings all of the published bytes. -/
theorem BusTransfer.receive_isPrefix (transfer : BusTransfer) (endpoint : WirePeripheralEndpoint)
    (transport : WireControllerTransport) :
    ∃ n, (transport.receive (fun _ requested => transfer.read endpoint requested)
        kMaxEncodedFrameSize).1 <+: endpoint.requestFromIsr ++ List.replicate n transfer.idle ∧
      (transfer.Full → endpoint.requestFromIsr.length ≤ kMaxEncodedFrameSize →
        endpoint.requestFromIsr <+: (transport.receive
          (fun _ requested => transfer.read endpoint requested) kMaxEncodedFrameSize).1) := by
  have hrequested : (UInt8.ofNat kMaxEncodedFrameSize).toNat = kMaxEncodedFrameSize := rfl
  unfold WireControllerTransport.receive BusTransfer.read
  rw [if_neg (by decide), if_neg (Nat.lt_irrefl _)]
  dsimp only
  rw [hrequested]
  refine ⟨kMaxEncodedFrameSize, ?_, ?_⟩
  · split_ifs
    · exact (List.take_prefix _ _).trans (List.take_prefix _ _)
    · rw [List.take_nil]
      exact List.nil_prefix
  · rintro ⟨haddressed, hcount⟩ hfits
    rw [if_pos haddressed, Nat.min_eq_right hcount, List.take_take]
    rw [List.prefix_take_iff]
    refine ⟨List.prefix_append _ _, ?_⟩
    simp only [List.length_take, List.length_append, List.length_replicate]
    omega

/-! ### The invariant -/

namespace WireLink

variable {s : WireLink}

/-- The frame that is sent for a command. -/
def command (number : ℕ) : Frame := queuedCommand kNodeId commandContent number

theorem command_sequence (number : ℕ) :
    (command number).normalise.sequence = UInt8.ofNat number :=
  Frame.sequence_normalise _

/-- A command asks for an acknowledgement. -/
theorem command_flags (number : ℕ) : (command number).normalise.flags &&& kFlagAckRequired ≠ 0 := by
  rw [Frame.flags_normalise]
  show (commandContent.flags ||| kFlagAckRequired) &&& kFlagAckRequired ≠ 0
  decide

/-- What reads of the node are answered with: nothing yet, a frame that is no acknowledgement,
or the acknowledgement of a command that has been received. -/
inductive Published (history : LinkHistory) (bytes : List UInt8) : Prop where
  | nothing (hanswered : history.answered = none) (hbytes : bytes = [])
  | other (hanswered : history.answered = none) (f : Frame)
      (hbytes : bytes = (encodeFrame f).active) (htype : f.type ≠ .acknowledgement)
  | answer (number : ℕ) (hanswered : history.answered = some number)
      (hreceived : number ∈ history.received) (hcarries : CarriesAck kNodeId number bytes)

/-- **What holds of the two boards after every run**, with the entry that is pending. -/
structure Consistent (s : WireLink) (pending : Option (PendingEntry UInt32)) : Prop where
  holds : s.sketch.controller.Holds commandPolicy kNodeId commandContent pending
  setup : s.sketch.point = .setup → pending = none
  /-- The entry counts the copies of its command, -/
  attempts : ∀ e ∈ pending,
    s.history.copies.count (s.sketch.controller.next - 1) ≤ e.attempts.toNat
  /-- only queued commands are sent, -/
  copies : ∀ n ∈ s.history.copies, n < s.sketch.controller.next
  /-- none more often than the policy allows, -/
  budget : ∀ n, s.history.copies.count n ≤ commandPolicy.maxAttempts.toNat
  /-- and each copy reaches the node's program at most once. -/
  counted : ∀ n, s.history.received.count n + s.history.written.toList.count n ≤
    s.history.copies.count n
  ordered : s.history.received.Pairwise (· ≤ ·)
  latest : ∀ n ∈ s.history.written, ∀ m ∈ s.history.received, m ≤ n
  message : ∀ bytes ∈ s.node.endpoint.message,
    ∃ number ∈ s.history.written, bytes <+: (encodeFrame (command number)).active
  taken : ∀ incoming, s.node.point = .answer incoming → ∃ number ∈ s.history.taken,
    number ∈ s.history.received ∧ incoming = (command number).normalise
  published : Published s.history s.node.endpoint.requestFromIsr

theorem consistent_start : Consistent {} none where
  holds := Controller.holds_start commandPolicy
  setup := fun _ => rfl
  attempts := fun _ he => nomatch he
  copies := fun _ hn => nomatch hn
  budget := fun _ => Nat.zero_le _
  counted := fun _ => Nat.le_refl 0
  ordered := List.Pairwise.nil
  latest := fun _ hn => nomatch hn
  message := fun _ hb => nomatch hb
  taken := fun _ hpoint => nomatch hpoint
  published := .nothing rfl rfl

variable {pending pending' : Option (PendingEntry UInt32)}

/-- Every received command has been sent, and so queued. -/
theorem Consistent.lt_next (h : s.Consistent pending) {n : ℕ} (hn : n ∈ s.history.received) :
    n < s.sketch.controller.next := by
  have hcount := h.counted n
  have hpos := List.count_pos_iff.mpr hn
  exact h.copies n (List.count_pos_iff.mp (by omega))

/-! ### What the controller reads -/

/-- The sketch behind the acceptance of a command. -/
def accepted (sketch : CommandSketch) (number : ℕ) : CommandSketch :=
  { sketch with
    controller := { sketch.controller with
      queue := (sketch.controller.queue.acknowledge kNodeId (UInt8.ofNat number) .accepted).1 } }

/-- What it prints. -/
def acceptance (sketch : CommandSketch) (number : ℕ) : ControllerEvent :=
  .receiveAcknowledgement (UInt8.ofNat number) .accepted
    (sketch.controller.queue.acknowledge kNodeId (UInt8.ofNat number) .accepted).2

/-- Bytes that are no acknowledgement are ignored, -/
theorem receiveAcknowledgement_of_ignored {sketch : CommandSketch} {received : List UInt8 × ℕ}
    (h : (decodeFrame (received.1.take received.2)).ok = false ∨
      (decodeFrame (received.1.take received.2)).frame.type ≠ .acknowledgement) :
    sketch.receiveAcknowledgement received = (sketch, []) := by
  have hignored : sketch.controller.receiveAcknowledgement (received.1.take received.2) =
      (sketch.controller, none) := by
    unfold Controller.receiveAcknowledgement
    dsimp only
    rcases h with hbad | htype
    · rw [if_pos (by rw [hbad]; rfl)]
    · rw [if_pos (by simp [htype])]
  unfold CommandSketch.receiveAcknowledgement
  dsimp only
  rw [hignored]
  cases parseAckFrame (decodeFrame (received.1.take received.2)).frame <;> rfl

/-- and an acceptance resolves its command. -/
theorem receiveAcknowledgement_of_carries {sketch : CommandSketch} {received : List UInt8 × ℕ}
    {number : ℕ} (h : CarriesAck kNodeId number (received.1.take received.2)) :
    sketch.receiveAcknowledgement received =
      (accepted sketch number, [acceptance sketch number]) := by
  have hresolved : sketch.controller.receiveAcknowledgement (received.1.take received.2) = _ :=
    PicoMesh.receiveAcknowledgement_of_carries h
  have hparse : parseAckFrame (decodeFrame (received.1.take received.2)).frame =
      some (UInt8.ofNat number, .accepted) := by
    obtain ⟨responseSequence, hbytes⟩ := h
    rw [hbytes, decodeFrame_encodeFrame]
    exact parseAckFrame_normalise kNodeId responseSequence (UInt8.ofNat number) (by decide)
  unfold CommandSketch.receiveAcknowledgement
  dsimp only
  rw [hresolved, hparse]
  rfl

/-- **What a read of the node does**: nothing, or it resolves the command that the published
acknowledgement names.  A full read does not miss one. -/
theorem Consistent.receiveAcknowledgement_cases (h : s.Consistent pending)
    (transfer : BusTransfer) :
    s.receiveAcknowledgement transfer = (s, []) ∧
      (transfer.Full → s.history.answered = none) ∨
    ∃ number ∈ s.history.answered, number ∈ s.history.received ∧
      s.receiveAcknowledgement transfer =
        ({ s with sketch := accepted s.sketch number }, [acceptance s.sketch number]) := by
  unfold WireLink.receiveAcknowledgement
  obtain ⟨n, hpart, hfull⟩ := transfer.receive_isPrefix s.node.endpoint
    { address := kNodeAddress }
  have hlength := WireControllerTransport.receive_length { address := kNodeAddress }
    (fun _ requested => transfer.read s.node.endpoint requested) kMaxEncodedFrameSize
  dsimp only
  generalize WireControllerTransport.receive { address := kNodeAddress }
    (fun _ requested => transfer.read s.node.endpoint requested) kMaxEncodedFrameSize = received
    at hpart hfull hlength ⊢
  cases h.published with
  | nothing hanswered hbytes =>
    left
    rw [hbytes, List.nil_append] at hpart
    have hbad := decodeFrame_of_isPrefix_replicate hpart
    rw [← hlength] at hbad
    rw [receiveAcknowledgement_of_ignored (Or.inl hbad)]
    exact ⟨rfl, fun _ => hanswered⟩
  | other hanswered f hbytes htype =>
    left
    rw [hbytes] at hpart
    rw [receiveAcknowledgement_of_ignored]
    · exact ⟨rfl, fun _ => hanswered⟩
    · cases hok : (decodeFrame (received.1.take received.2)).ok with
      | false => exact Or.inl rfl
      | true =>
        right
        rw [hlength] at hok ⊢
        rw [take_receivedLength_of_padded hpart hok, decodeFrame_encodeFrame]
        show f.normalise.type ≠ _
        rwa [Frame.type_normalise]
  | answer number hanswered hreceived hcarries =>
    obtain ⟨responseSequence, hbytes⟩ := hcarries
    rw [hbytes] at hpart hfull
    cases hok : (decodeFrame (received.1.take received.2)).ok with
    | false =>
      left
      rw [receiveAcknowledgement_of_ignored (Or.inl hok)]
      refine ⟨rfl, fun htransfer => ?_⟩
      -- a full read has the acknowledgement in front
      obtain ⟨padding, hread⟩ := hfull htransfer (length_le_of_decodeFrame_ok
        (decodeFrame_encodeFrame_ok _))
      rw [hlength, ← hread, decodeFrame_padded] at hok
      cases hok
    | true =>
      right
      refine ⟨number, hanswered, hreceived, ?_⟩
      rw [receiveAcknowledgement_of_carries]
      rw [hlength] at hok ⊢
      exact ⟨responseSequence, take_receivedLength_of_padded hpart hok⟩

/-! ### What a step can do -/

/-- **What the controller's next step can do**, with the entry that is pending behind it and what
it prints. -/
inductive ControllerTurn (s : WireLink) (pending : Option (PendingEntry UInt32)) (nowMs : UInt32)
    (transfer : BusTransfer) :
    WireLink → Option (PendingEntry UInt32) → List ControllerEvent → Prop where
  /-- `setup` queues a command. -/
  | setup {controller : Controller} (hpoint : s.sketch.point = .setup) (hnone : pending = none)
      (hnext : controller.next = s.sketch.controller.next + 1) :
      ControllerTurn s pending nowMs transfer
        { s with sketch := { s.sketch with controller, point := .top } }
        (some ⟨command s.sketch.controller.next, nowMs, 0⟩)
        [.ready .reliableCommand,
          .enqueueCommand (UInt8.ofNat s.sketch.controller.next) .queued]
  /-- `loop` queues a command, -/
  | queue {controller : Controller} (hpoint : s.sketch.point = .top) (hnone : pending = none)
      (hdue : nowMs - s.sketch.lastCommandMs ≥ kCommandIntervalMs)
      (hnext : controller.next = s.sketch.controller.next + 1) :
      ControllerTurn s pending nowMs transfer
        { s with
          sketch := { s.sketch with
            controller, lastCommandMs := nowMs, point := .transmit nowMs } }
        (some ⟨command s.sketch.controller.next, nowMs, 0⟩)
        [.enqueueCommand (UInt8.ofNat s.sketch.controller.next) .queued]
  /-- or none. -/
  | idle (hpoint : s.sketch.point = .top) :
      ControllerTurn s pending nowMs transfer
        { s with sketch := { s.sketch with point := .transmit nowMs } } pending []
  /-- Nothing is due. -/
  | wait {controller : Controller} {loopMs : UInt32} (hpoint : s.sketch.point = .transmit loopMs)
      (hnext : controller.next = s.sketch.controller.next)
      (hdue : ∀ e ∈ pending, e.due loopMs = false) :
      ControllerTurn s pending nowMs transfer
        { s with sketch := { s.sketch with controller, point := .receive loopMs } } pending
        [.transmitDue {} false]
  /-- A copy of the pending command is sent. -/
  | send {controller : Controller} {loopMs : UInt32} {e : PendingEntry UInt32} {sent : Bool}
      (hpoint : s.sketch.point = .transmit loopMs)
      (hnext : controller.next = s.sketch.controller.next) (hpending : pending = some e)
      (hpos : 0 < s.sketch.controller.next) (hdue : e.due loopMs = true)
      (hleft : e.attempts < commandPolicy.maxAttempts) :
      ControllerTurn s pending nowMs transfer
        { sketch := { s.sketch with controller, point := .receive loopMs }
          node := { s.node with
            endpoint := transfer.write s.node.endpoint
              (encodeFrame (command (s.sketch.controller.next - 1))).active }
          history := s.history.write (s.sketch.controller.next - 1) transfer }
        (some (e.sent loopMs commandPolicy))
        [.transmitDue ⟨.send, command (s.sketch.controller.next - 1), e.attempts + 1⟩ sent]
  /-- The pending command is given up. -/
  | exhaust {controller : Controller} {loopMs : UInt32} {e : PendingEntry UInt32}
      (hpoint : s.sketch.point = .transmit loopMs)
      (hnext : controller.next = s.sketch.controller.next) (hpending : pending = some e)
      (hdue : e.due loopMs = true) (hspent : e.attempts = commandPolicy.maxAttempts) :
      ControllerTurn s pending nowMs transfer
        { s with sketch := { s.sketch with controller, point := .receive loopMs } } none
        [.transmitDue ⟨.exhausted, command (s.sketch.controller.next - 1), e.attempts⟩ false]
  /-- It is not time to read. -/
  | skip {loopMs : UInt32} (hpoint : s.sketch.point = .receive loopMs)
      (hdue : ¬loopMs - s.sketch.lastReceiveMs ≥ kReceivePollMs) :
      ControllerTurn s pending nowMs transfer
        { s with sketch := { s.sketch with point := .top } } pending []
  /-- A read brings no acknowledgement. -/
  | ignore {loopMs : UInt32} (hpoint : s.sketch.point = .receive loopMs)
      (hdue : loopMs - s.sketch.lastReceiveMs ≥ kReceivePollMs)
      (hfull : transfer.Full → s.history.answered = none) :
      ControllerTurn s pending nowMs transfer
        { s with sketch := { s.sketch with lastReceiveMs := loopMs, point := .top } } pending []
  /-- It brings one of another command. -/
  | unmatched {controller : Controller} {loopMs : UInt32} {number : ℕ}
      (hpoint : s.sketch.point = .receive loopMs)
      (hdue : loopMs - s.sketch.lastReceiveMs ≥ kReceivePollMs)
      (hnext : controller.next = s.sketch.controller.next)
      (hanswered : s.history.answered = some number) (hreceived : number ∈ s.history.received)
      (hother : pending = none ∨ UInt8.ofNat number ≠ UInt8.ofNat (s.sketch.controller.next - 1)) :
      ControllerTurn s pending nowMs transfer
        { s with sketch := { s.sketch with controller, lastReceiveMs := loopMs, point := .top } }
        pending [.receiveAcknowledgement (UInt8.ofNat number) .accepted .notFound]
  /-- It brings one of the pending command's sequence byte. -/
  | resolve {controller : Controller} {loopMs : UInt32} {number : ℕ} {e : PendingEntry UInt32}
      (hpoint : s.sketch.point = .receive loopMs)
      (hdue : loopMs - s.sketch.lastReceiveMs ≥ kReceivePollMs)
      (hnext : controller.next = s.sketch.controller.next)
      (hanswered : s.history.answered = some number) (hreceived : number ∈ s.history.received)
      (hpending : pending = some e)
      (hbyte : UInt8.ofNat number = UInt8.ofNat (s.sketch.controller.next - 1)) :
      ControllerTurn s pending nowMs transfer
        { s with sketch := { s.sketch with controller, lastReceiveMs := loopMs, point := .top } }
        none [.receiveAcknowledgement (UInt8.ofNat number) .accepted .accepted]

theorem Consistent.turn_receive (h : s.Consistent pending) {loopMs : UInt32}
    (hpoint : s.sketch.point = .receive loopMs) (nowMs : UInt32) (transfer : BusTransfer) :
    ∃ pending', ControllerTurn s pending nowMs transfer (s.controllerStep nowMs transfer).1
        pending' (s.controllerStep nowMs transfer).2 ∧
      (s.controllerStep nowMs transfer).1.sketch.controller.Holds commandPolicy kNodeId
        commandContent pending' := by
  unfold WireLink.controllerStep
  simp only [hpoint]
  by_cases hdue : loopMs - s.sketch.lastReceiveMs ≥ kReceivePollMs
  · rw [if_pos hdue]
    have hread : Consistent
        { s with sketch := { s.sketch with lastReceiveMs := loopMs, point := .top } } pending :=
      { h with setup := fun hsetup => nomatch hsetup }
    rcases hread.receiveAcknowledgement_cases transfer with
      ⟨hnothing, hfull⟩ | ⟨number, hanswered, hreceived, hsome⟩
    · rw [hnothing]
      exact ⟨pending, .ignore hpoint hdue hfull, h.holds⟩
    · rw [hsome]
      unfold accepted acceptance
      rcases h.holds.acknowledge (UInt8.ofNat number) .accepted with
        ⟨hnone, hother, hholds⟩ | ⟨hresolved, ⟨e, hpending⟩, hbyte, hholds⟩
      · dsimp only
        rw [hnone]
        exact ⟨pending, .unmatched hpoint hdue rfl hanswered hreceived hother, hholds⟩
      · dsimp only
        rw [hresolved]
        exact ⟨none, .resolve hpoint hdue rfl hanswered hreceived hpending hbyte, hholds⟩
  · rw [if_neg hdue]
    exact ⟨pending, .skip hpoint hdue, h.holds⟩

theorem Consistent.turn_transmit (h : s.Consistent pending) {loopMs : UInt32}
    (hpoint : s.sketch.point = .transmit loopMs) (nowMs : UInt32) (transfer : BusTransfer) :
    ∃ pending', ControllerTurn s pending nowMs transfer (s.controllerStep nowMs transfer).1
        pending' (s.controllerStep nowMs transfer).2 ∧
      (s.controllerStep nowMs transfer).1.sketch.controller.Holds commandPolicy kNodeId
        commandContent pending' := by
  obtain ⟨pending', htransmits, hholds⟩ := h.holds.transmitDue loopMs
  have hnext : (s.sketch.controller.transmitDue loopMs).1.next = s.sketch.controller.next := rfl
  refine ⟨pending', ?_⟩
  unfold WireLink.controllerStep
  simp only [hpoint]
  unfold WireLink.transmitDue CommandSketch.transmitDue
  dsimp only
  generalize (s.sketch.controller.transmitDue loopMs).1 = controller at hnext hholds ⊢
  generalize (s.sketch.controller.transmitDue loopMs).2 = sent at htransmits ⊢
  generalize (s.sketch.controller.queue.nextDue loopMs).2 = decision at htransmits ⊢
  cases htransmits with
  | wait hdue => exact ⟨.wait hpoint hnext hdue, hholds⟩
  | send e hpending hdue hleft =>
    exact ⟨.send hpoint hnext hpending (h.holds.entry e hpending).1 hdue hleft, hholds⟩
  | exhaust e hpending hdue hspent =>
    exact ⟨.exhaust hpoint hnext hpending hdue hspent, hholds⟩

/-- **The controller's steps.** -/
theorem Consistent.controllerTurn (h : s.Consistent pending) (nowMs : UInt32)
    (transfer : BusTransfer) :
    ∃ pending', ControllerTurn s pending nowMs transfer (s.controllerStep nowMs transfer).1
        pending' (s.controllerStep nowMs transfer).2 ∧
      (s.controllerStep nowMs transfer).1.sketch.controller.Holds commandPolicy kNodeId
        commandContent pending' := by
  cases hpoint : s.sketch.point with
  | setup =>
    obtain rfl := h.setup hpoint
    obtain ⟨hqueued, hnext, hholds⟩ := h.holds.enqueueCommand (by decide) nowMs
    unfold WireLink.controllerStep CommandSketch.enqueueCommand
    simp only [hpoint, hqueued]
    exact ⟨_, .setup hpoint rfl hnext, hholds⟩
  | top =>
    unfold WireLink.controllerStep CommandSketch.commandDue
    simp only [hpoint]
    split_ifs with hdue
    · obtain rfl := h.holds.pendingCount_eq_zero_iff.mp hdue.1
      obtain ⟨hqueued, hnext, hholds⟩ := h.holds.enqueueCommand (by decide) nowMs
      unfold CommandSketch.enqueueCommand
      dsimp only
      rw [hqueued]
      exact ⟨_, .queue hpoint rfl hdue.2 hnext, hholds⟩
    · exact ⟨pending, .idle hpoint, h.holds⟩
  | transmit loopMs => exact h.turn_transmit hpoint nowMs transfer
  | receive loopMs => exact h.turn_receive hpoint nowMs transfer

/-- **What the node's next step can do**, and the frame that its poll gives. -/
inductive NodeTurn (s : WireLink) (nowMs uptimeMs : UInt32) : WireLink → Option Frame → Prop where
  /-- `setup` publishes a heartbeat. -/
  | setup {endpoint : WirePeripheralEndpoint} {sequenceNumber : UInt8} {f : Frame}
      (hpoint : s.node.point = .setup) (hpublish : endpoint = (s.node.endpoint.publish f).1)
      (htype : f.type ≠ .acknowledgement) :
      NodeTurn s nowMs uptimeMs
        { s with
          node := { s.node with endpoint, sequenceNumber, point := .top }
          history := { s.history with answered := none } } none
  /-- `loop` publishes one, -/
  | heartbeat {endpoint : WirePeripheralEndpoint} {sequenceNumber : UInt8} {f : Frame}
      (hpoint : s.node.point = .top)
      (hdue : nowMs - s.node.lastHeartbeatMs ≥ kHeartbeatIntervalMs)
      (hpublish : endpoint = (s.node.endpoint.publish f).1) (htype : f.type ≠ .acknowledgement) :
      NodeTurn s nowMs uptimeMs
        { s with
          node := { s.node with
            endpoint, sequenceNumber, lastHeartbeatMs := nowMs, point := .poll }
          history := { s.history with answered := none } } none
  /-- or none. -/
  | quiet (hpoint : s.node.point = .top)
      (hdue : ¬nowMs - s.node.lastHeartbeatMs ≥ kHeartbeatIntervalMs) :
      NodeTurn s nowMs uptimeMs { s with node := { s.node with point := .poll } } none
  /-- A poll finds no frame. -/
  | empty {endpoint : WirePeripheralEndpoint} (hpoint : s.node.point = .poll)
      (hmessage : endpoint.message = none)
      (hrequest : endpoint.requestFromIsr = s.node.endpoint.requestFromIsr)
      (hnone : ∀ frame, s.node.endpoint.message ≠ some (encodeFrame frame).active) :
      NodeTurn s nowMs uptimeMs
        { s with
          node := { s.node with endpoint, point := .top }
          history := { s.history with written := none } } none
  /-- A poll takes the command that was written last. -/
  | take {endpoint : WirePeripheralEndpoint} {number : ℕ} (hpoint : s.node.point = .poll)
      (hmessage : endpoint.message = none)
      (hrequest : endpoint.requestFromIsr = s.node.endpoint.requestFromIsr)
      (hwritten : s.history.written = some number) :
      NodeTurn s nowMs uptimeMs
        { s with
          node := { s.node with endpoint, point := .answer (command number).normalise }
          history := { s.history with
            written := none
            taken := some number
            received := s.history.received ++ [number] } }
        (some (command number).normalise)
  /-- The command that was taken is acknowledged. -/
  | answer {endpoint : WirePeripheralEndpoint} {sequenceNumber : UInt8} {number : ℕ}
      {responseSequence : UInt8} (hpoint : s.node.point = .answer (command number).normalise)
      (htaken : s.history.taken = some number) (hreceived : number ∈ s.history.received)
      (hpublish : endpoint = (s.node.endpoint.publish
        (makeAckFrame kNodeId responseSequence (UInt8.ofNat number) .accepted)).1) :
      NodeTurn s nowMs uptimeMs
        { s with
          node := { s.node with endpoint, sequenceNumber, point := .top }
          history := { s.history with answered := s.history.taken } } none

theorem heartbeatFrame_type (sequence : UInt8) (uptimeMs : UInt32) :
    (heartbeatFrame sequence uptimeMs).type ≠ .acknowledgement := by
  show MessageType.heartbeat ≠ MessageType.acknowledgement
  decide

/-- **The node's steps.** -/
theorem Consistent.nodeTurn (h : s.Consistent pending) (nowMs uptimeMs : UInt32) :
    ∃ polled, (s.step (.node nowMs uptimeMs)).2 = .polled polled ∧
      NodeTurn s nowMs uptimeMs (s.step (.node nowMs uptimeMs)).1 polled := by
  unfold WireLink.step HeartbeatNode.step LinkHistory.node
  cases hpoint : s.node.point with
  | setup =>
    simp only [HeartbeatNode.publishHeartbeat, HeartbeatNode.publishNext]
    exact ⟨none, rfl, .setup hpoint rfl (heartbeatFrame_type _ _)⟩
  | top =>
    simp only [HeartbeatNode.publishHeartbeat, HeartbeatNode.publishNext]
    split_ifs with hdue
    · exact ⟨none, rfl, .heartbeat hpoint hdue rfl (heartbeatFrame_type _ _)⟩
    · exact ⟨none, rfl, .quiet hpoint hdue⟩
  | poll =>
    have hrequest := s.node.endpoint.requestFromIsr_poll {} none
    have hmessage := s.node.endpoint.message_poll {} none
    have hreceived := s.node.endpoint.poll_received_iff {} none
    dsimp only
    generalize s.node.endpoint.poll {} none = polled at hrequest hmessage hreceived ⊢
    cases hsome : polled.2.received with
    | false =>
      refine ⟨none, rfl, .empty hpoint hmessage hrequest fun frame hframe => ?_⟩
      obtain ⟨hyes, -⟩ := (hreceived _).mpr
        ⟨_, hframe, decodeFrame_encodeFrame_ok frame, rfl⟩
      rw [hsome] at hyes
      cases hyes
    | true =>
      obtain ⟨bytes, hbytes, hok, hframe⟩ := (hreceived polled.2.frame).mp ⟨hsome, rfl⟩
      obtain ⟨number, hwritten, hpart⟩ := h.message bytes hbytes
      have hwritten : s.history.written = some number := hwritten
      -- a part that decodes is the whole command
      rw [eq_of_isPrefix_of_ok hpart hok, decodeFrame_encodeFrame] at hframe
      rw [← hframe, hwritten]
      exact ⟨_, rfl, .take hpoint hmessage hrequest hwritten⟩
  | answer incoming =>
    obtain ⟨number, htaken, hreceived, rfl⟩ := h.taken incoming hpoint
    unfold HeartbeatNode.acknowledge
    dsimp only
    rw [if_pos (command_flags number), if_pos (command_flags number), command_sequence]
    simp only [HeartbeatNode.publishNext]
    exact ⟨none, rfl, .answer hpoint htaken hreceived rfl⟩

/-! ### Every step keeps the invariant -/

/-- A command that is written lies unread, whole or in part. -/
theorem message_write {endpoint : WirePeripheralEndpoint} {transfer : BusTransfer}
    {data : List UInt8} (haddressed : transfer.addressed = true) {bytes : List UInt8}
    (hbytes : (transfer.write endpoint data).message = some bytes) : bytes <+: data := by
  unfold BusTransfer.write at hbytes
  rw [if_pos haddressed] at hbytes
  dsimp only at hbytes
  rw [WirePeripheralEndpoint.message_receive] at hbytes
  split_ifs at hbytes
  obtain rfl := Option.some.inj hbytes
  exact (List.take_prefix _ _).trans (List.take_prefix _ _)

theorem requestFromIsr_write (transfer : BusTransfer) (endpoint : WirePeripheralEndpoint)
    (data : List UInt8) :
    (transfer.write endpoint data).requestFromIsr = endpoint.requestFromIsr := by
  unfold BusTransfer.write
  split_ifs
  · exact endpoint.requestFromIsr_receive _ _
  · rfl

/-- What is published stays when received commands are added. -/
theorem Published.mono {history history' : LinkHistory} {bytes bytes' : List UInt8}
    (h : Published history bytes) (hbytes : bytes' = bytes)
    (hanswered : history'.answered = history.answered)
    (hreceived : history.received ⊆ history'.received) : Published history' bytes' := by
  rw [hbytes]
  cases h with
  | nothing hnone hnil => exact .nothing (hanswered.trans hnone) hnil
  | other hnone f hframe htype => exact .other (hanswered.trans hnone) f hframe htype
  | answer number hsome hmem hcarries =>
    exact .answer number (hanswered.trans hsome) (hreceived hmem) hcarries

/-- The steps of the controller that write nothing. -/
theorem Consistent.of_sketch (h : s.Consistent pending) {sketch : CommandSketch}
    (hholds : sketch.controller.Holds commandPolicy kNodeId commandContent pending')
    (hpoint : sketch.point ≠ .setup)
    (hnext : s.sketch.controller.next ≤ sketch.controller.next)
    (hattempts : ∀ e ∈ pending',
      s.history.copies.count (sketch.controller.next - 1) ≤ e.attempts.toNat) :
    Consistent { s with sketch } pending' :=
  { h with
    holds := hholds
    setup := fun hsetup => absurd hsetup hpoint
    attempts := hattempts
    copies := fun n hn => Nat.lt_of_lt_of_le (h.copies n hn) hnext }

/-- A command is queued. -/
theorem Consistent.of_queued (h : s.Consistent pending) {sketch : CommandSketch} {nowMs : UInt32}
    (hholds : sketch.controller.Holds commandPolicy kNodeId commandContent
      (some ⟨command s.sketch.controller.next, nowMs, 0⟩))
    (hpoint : sketch.point ≠ .setup)
    (hnext : sketch.controller.next = s.sketch.controller.next + 1) :
    Consistent { s with sketch } (some ⟨command s.sketch.controller.next, nowMs, 0⟩) := by
  apply h.of_sketch hholds hpoint (by omega)
  rintro e ⟨⟩
  -- no copy of a command is sent before it is queued
  rw [hnext, Nat.add_sub_cancel, List.count_eq_zero_of_not_mem]
  · exact Nat.zero_le _
  · intro hmem
    exact Nat.lt_irrefl _ (h.copies _ hmem)

/-- A copy of the pending command goes over the bus, or is lost on it. -/
theorem Consistent.of_sent (h : s.Consistent pending) {sketch : CommandSketch}
    {e : PendingEntry UInt32} {loopMs : UInt32} (transfer : BusTransfer)
    (hholds : sketch.controller.Holds commandPolicy kNodeId commandContent
      (some (e.sent loopMs commandPolicy)))
    (hpoint : sketch.point ≠ .setup)
    (hnext : sketch.controller.next = s.sketch.controller.next) (hpending : pending = some e)
    (hpos : 0 < s.sketch.controller.next) (hleft : e.attempts < commandPolicy.maxAttempts) :
    Consistent
      { sketch
        node := { s.node with
          endpoint := transfer.write s.node.endpoint
            (encodeFrame (command (s.sketch.controller.next - 1))).active }
        history := s.history.write (s.sketch.controller.next - 1) transfer }
      (some (e.sent loopMs commandPolicy)) := by
  have hattempts := h.attempts e hpending
  have hmax : commandPolicy.maxAttempts.toNat = 3 := rfl
  rw [UInt8.lt_iff_toNat_lt] at hleft
  generalize hnumber : s.sketch.controller.next - 1 = number at hattempts
  have hcount : ∀ n, (s.history.copies ++ [number]).count n =
      s.history.copies.count n + if n = number then 1 else 0 := by
    intro n
    rw [List.count_append]
    rcases eq_or_ne n number with rfl | hne
    · rw [List.count_singleton_self, if_pos rfl]
    · rw [List.count_singleton, if_neg hne, if_neg (by simpa using hne.symm)]
  refine
    { holds := hholds
      setup := fun hsetup => absurd hsetup hpoint
      attempts := ?_
      copies := fun n hn => ?_
      budget := fun n => ?_
      counted := fun n => ?_
      ordered := h.ordered
      latest := fun n hn m hm => ?_
      message := fun bytes hbytes => ?_
      taken := h.taken
      published := h.published.mono (requestFromIsr_write _ _ _) rfl (List.Subset.refl _) }
  · rintro e' ⟨⟩
    have hsent : (e.attempts + 1).toNat = e.attempts.toNat + 1 := by
      rw [UInt8.toNat_add, UInt8.toNat_one]
      omega
    show (s.history.copies ++ [number]).count (sketch.controller.next - 1) ≤ (e.attempts + 1).toNat
    rw [hnext, hnumber, hcount, if_pos rfl, hsent]
    omega
  · show n < sketch.controller.next
    rw [hnext]
    rcases List.mem_append.mp hn with hn | hn
    · exact h.copies n hn
    · rw [List.mem_singleton.mp hn]
      omega
  · have hn := h.budget n
    show (s.history.copies ++ [number]).count n ≤ _
    rw [hcount]
    split_ifs with heq
    · rw [heq]
      omega
    · exact hn
  · have hn := h.counted n
    show s.history.received.count n +
      (if transfer.addressed then some number else s.history.written).toList.count n ≤
        (s.history.copies ++ [number]).count n
    rw [hcount]
    split_ifs with haddressed heq heq
    · rw [heq, Option.toList_some, List.count_singleton_self]
      rw [heq] at hn
      omega
    · rw [Option.toList_some, List.count_singleton, if_neg (by simpa using Ne.symm heq)]
      omega
    · omega
    · exact hn
  · have hreceived := h.lt_next hm
    have hn' : (if transfer.addressed then some number else s.history.written) = some n := hn
    split_ifs at hn' with haddressed
    · obtain rfl := Option.some.inj hn'
      omega
    · exact h.latest n hn' m hm
  · show ∃ number' ∈ (if transfer.addressed then some number else s.history.written), _
    split_ifs with haddressed
    · exact ⟨number, rfl, message_write haddressed hbytes⟩
    · apply h.message
      have hbytes' : (transfer.write s.node.endpoint
        (encodeFrame (command number)).active).message = some bytes := hbytes
      unfold BusTransfer.write at hbytes'
      rwa [if_neg haddressed] at hbytes'

/-- **The controller's steps keep the invariant.** -/
theorem Consistent.of_controllerTurn (h : s.Consistent pending) {s' : WireLink} {nowMs : UInt32}
    {transfer : BusTransfer} {events : List ControllerEvent}
    (hturn : ControllerTurn s pending nowMs transfer s' pending' events)
    (hholds : s'.sketch.controller.Holds commandPolicy kNodeId commandContent pending') :
    s'.Consistent pending' := by
  cases hturn with
  | setup hpoint hnone hnext => exact h.of_queued hholds (by simp) hnext
  | queue hpoint hnone hdue hnext => exact h.of_queued hholds (by simp) hnext
  | idle hpoint => exact h.of_sketch hholds (by simp) (Nat.le_refl _) h.attempts
  | wait hpoint hnext hdue =>
    apply h.of_sketch hholds (by simp) (Nat.le_of_eq hnext.symm)
    rw [hnext]
    exact h.attempts
  | send hpoint hnext hpending hpos hdue hleft =>
    exact h.of_sent transfer hholds (by simp) hnext hpending hpos hleft
  | exhaust hpoint hnext hpending hdue hspent =>
    exact h.of_sketch hholds (by simp) (Nat.le_of_eq hnext.symm) fun _ he => nomatch he
  | skip hpoint hdue => exact h.of_sketch hholds (by simp) (Nat.le_refl _) h.attempts
  | ignore hpoint hdue hfull => exact h.of_sketch hholds (by simp) (Nat.le_refl _) h.attempts
  | unmatched hpoint hdue hnext hanswered hreceived hother =>
    apply h.of_sketch hholds (by simp) (Nat.le_of_eq hnext.symm)
    rw [hnext]
    exact h.attempts
  | resolve hpoint hdue hnext hanswered hreceived hpending hbyte =>
    exact h.of_sketch hholds (by simp) (Nat.le_of_eq hnext.symm) fun _ he => nomatch he

/-- A frame is published. -/
theorem Consistent.of_published (h : s.Consistent pending) {node : HeartbeatNode} {f : Frame}
    {answered : Option ℕ} (hendpoint : node.endpoint = (s.node.endpoint.publish f).1)
    (hpoint : ∀ incoming, node.point ≠ .answer incoming)
    (hpublished : Published { s.history with answered } (encodeFrame f).active) :
    Consistent { s with node, history := { s.history with answered } } pending :=
  { h with
    message := fun bytes hbytes => h.message bytes (by
      rwa [hendpoint, WirePeripheralEndpoint.message_publish] at hbytes)
    taken := fun incoming hincoming => absurd hincoming (hpoint incoming)
    published := by
      show Published _ node.endpoint.requestFromIsr
      rwa [hendpoint, WirePeripheralEndpoint.requestFromIsr_publish] }

/-- **The node's steps keep the invariant.** -/
theorem Consistent.of_nodeTurn (h : s.Consistent pending) {s' : WireLink}
    {nowMs uptimeMs : UInt32} {polled : Option Frame}
    (hturn : NodeTurn s nowMs uptimeMs s' polled) : s'.Consistent pending := by
  cases hturn with
  | setup hpoint hpublish htype =>
    exact h.of_published hpublish (by simp) (.other rfl _ rfl htype)
  | heartbeat hpoint hdue hpublish htype =>
    exact h.of_published hpublish (by simp) (.other rfl _ rfl htype)
  | quiet hpoint hdue => exact { h with taken := fun _ hincoming => nomatch hincoming }
  | empty hpoint hmessage hrequest hnone =>
    exact
      { h with
        counted := fun n => Nat.le_trans (Nat.le_add_right _ _) (h.counted n)
        latest := fun _ hn => nomatch hn
        message := fun bytes hbytes => nomatch hmessage.symm.trans hbytes
        taken := fun _ hincoming => nomatch hincoming
        published := h.published.mono hrequest rfl (List.Subset.refl _) }
  | @take endpoint number hpoint hmessage hrequest hwritten =>
    have hcounted := h.counted
    rw [hwritten] at hcounted
    exact
      { h with
        counted := fun n => by
          show (s.history.received ++ [number]).count n + 0 ≤ _
          rw [List.count_append]
          exact hcounted n
        ordered := List.pairwise_append.mpr ⟨h.ordered, List.pairwise_singleton _ _,
          fun m hm n hn => by
            rw [List.mem_singleton.mp hn]
            exact h.latest number hwritten m hm⟩
        latest := fun _ hn => nomatch hn
        message := fun bytes hbytes => nomatch hmessage.symm.trans hbytes
        taken := fun incoming hanswer => by
          obtain rfl := NodePoint.answer.inj hanswer
          exact ⟨number, rfl, List.mem_append_right _ List.mem_cons_self, rfl⟩
        published := h.published.mono hrequest rfl (List.subset_append_left _ _) }
  | answer hpoint htaken hreceived hpublish =>
    exact h.of_published hpublish (by simp) (.answer _ htaken hreceived ⟨_, rfl⟩)

/-- **Every step of either board keeps the invariant.** -/
theorem Consistent.step (h : s.Consistent pending) (op : WireLinkOp) :
    ∃ pending', (s.step op).1.Consistent pending' := by
  cases op with
  | controller nowMs transfer =>
    obtain ⟨pending', hturn, hholds⟩ := h.controllerTurn nowMs transfer
    exact ⟨pending', h.of_controllerTurn hturn hholds⟩
  | node nowMs uptimeMs =>
    obtain ⟨polled, -, hturn⟩ := h.nodeTurn nowMs uptimeMs
    exact ⟨pending, h.of_nodeTurn hturn⟩

/-! ### Every command is accounted for -/

/-- The acceptance of a command. -/
def isAcceptance : ControllerEvent → Bool
  | .receiveAcknowledgement _ _ resolution => resolution == .accepted
  | _ => false

/-- A command that is given up. -/
def isExhaustion : ControllerEvent → Bool
  | .transmitDue decision _ => decision.action == .exhausted
  | _ => false

/-- How many events of a kind a step prints. -/
def tally (p : ControllerEvent → Bool) : WireLinkReply → ℕ
  | .printed events => events.countP p
  | .polled _ => 0

/-- The commands that are no longer pending. -/
def settled (s : WireLink) : ℕ :=
  s.sketch.controller.next - s.sketch.controller.queue.pendingCount

theorem Consistent.settled_add (h : s.Consistent pending) :
    s.settled + pending.toList.length = s.sketch.controller.next := by
  unfold settled
  rw [h.holds.pendingCount_eq]
  cases hpending : pending with
  | none => rfl
  | some e => exact Nat.sub_add_cancel (h.holds.entry e hpending).1

/-- A command stops being pending when it is accepted or given up. -/
theorem ControllerTurn.settles {s' : WireLink} {nowMs : UInt32} {transfer : BusTransfer}
    {events : List ControllerEvent}
    (hturn : ControllerTurn s pending nowMs transfer s' pending' events) :
    s'.sketch.controller.next + pending.toList.length =
      s.sketch.controller.next + pending'.toList.length +
        (events.countP isAcceptance + events.countP isExhaustion) := by
  cases hturn with
  | setup hpoint hnone hnext =>
    rw [hnone]
    exact congrArg (· + 0) hnext
  | queue hpoint hnone hdue hnext =>
    rw [hnone]
    exact congrArg (· + 0) hnext
  | idle hpoint => rfl
  | wait hpoint hnext hdue => exact congrArg (· + _) hnext
  | send hpoint hnext hpending hpos hdue hleft =>
    rw [hpending]
    exact congrArg (· + 1) hnext
  | exhaust hpoint hnext hpending hdue hspent =>
    rw [hpending]
    exact congrArg (· + 1) hnext
  | skip hpoint hdue => rfl
  | ignore hpoint hdue hfull => rfl
  | unmatched hpoint hdue hnext hanswered hreceived hother => exact congrArg (· + _) hnext
  | resolve hpoint hdue hnext hanswered hreceived hpending hbyte =>
    rw [hpending]
    exact congrArg (· + 1) hnext

/-- **A step settles what it prints the end of.** -/
theorem Consistent.settled_step (h : s.Consistent pending) (op : WireLinkOp) :
    (s.step op).1.settled = s.settled +
      (tally isAcceptance (s.step op).2 + tally isExhaustion (s.step op).2) := by
  have hbefore := h.settled_add
  cases op with
  | controller nowMs transfer =>
    obtain ⟨pending', hturn, hholds⟩ := h.controllerTurn nowMs transfer
    have hafter := (h.of_controllerTurn hturn hholds).settled_add
    have hsettles := hturn.settles
    show (s.controllerStep nowMs transfer).1.settled = s.settled +
      ((s.controllerStep nowMs transfer).2.countP isAcceptance +
        (s.controllerStep nowMs transfer).2.countP isExhaustion)
    omega
  | node nowMs uptimeMs => rfl

/-- **An acceptance is right** while the published acknowledgement is for one of the last 256
commands. -/
theorem Consistent.next_of_byte (h : s.Consistent pending) {number : ℕ}
    (hreceived : number ∈ s.history.received)
    (hwindow : s.sketch.controller.next ≤ number + 256)
    (hbyte : UInt8.ofNat number = UInt8.ofNat (s.sketch.controller.next - 1)) :
    s.sketch.controller.next = number + 1 := by
  have hlt := h.lt_next hreceived
  -- the byte is the pending number's, and the window leaves one number with it
  have hmod := congrArg UInt8.toNat hbyte
  rw [UInt8.toNat_ofNat', UInt8.toNat_ofNat'] at hmod
  omega

end WireLink

/-- The link after a run of steps. -/
def wireLinkAfter (ops : List WireLinkOp) : WireLink := wireLink.run wireLink.start ops

theorem wireLinkAfter_concat (ops : List WireLinkOp) (op : WireLinkOp) :
    wireLinkAfter (ops ++ [op]) = ((wireLinkAfter ops).step op).1 :=
  Mealy.run_concat _ _ _ _

theorem wireLinkAfter_consistent (ops : List WireLinkOp) :
    ∃ pending, (wireLinkAfter ops).Consistent pending := by
  apply wireLink.run_invariant (I := fun s => ∃ pending, s.Consistent pending)
  · rintro s op ⟨pending, h⟩
    exact h.step op
  · exact ⟨none, WireLink.consistent_start⟩

/-- How many of the events that a run prints are of a kind. -/
def wireLinkTally (p : ControllerEvent → Bool) (ops : List WireLinkOp) : ℕ :=
  ((wireLink.outputs wireLink.start ops).map (WireLink.tally p)).sum

/-- Every queued command is pending, accepted or given up. -/
theorem wireLinkAfter_settled (ops : List WireLinkOp) :
    (wireLinkAfter ops).sketch.controller.next =
      (wireLinkAfter ops).sketch.controller.queue.pendingCount +
        wireLinkTally WireLink.isAcceptance ops + wireLinkTally WireLink.isExhaustion ops := by
  have hstart : ∃ pending, wireLink.start.Consistent pending := ⟨none, WireLink.consistent_start⟩
  have hany : wireLink.Along (fun _ _ => True) wireLink.start ops :=
    wireLink.along_of_forall fun _ _ => trivial
  have hsettled := wireLink.along_sum (I := fun s => ∃ pending, s.Consistent pending)
    (f := WireLink.settled)
    (g := fun reply => WireLink.tally WireLink.isAcceptance reply +
      WireLink.tally WireLink.isExhaustion reply)
    (fun s op ⟨pending, h⟩ _ => h.step op) (fun s op ⟨pending, h⟩ _ => h.settled_step op)
    hstart hany
  have hnone : wireLink.start.settled = 0 := rfl
  rw [hnone, Nat.zero_add, List.sum_map_add] at hsettled
  obtain ⟨pending, h⟩ := wireLinkAfter_consistent ops
  have hnext := h.settled_add
  rw [← h.holds.pendingCount_eq] at hnext
  change (wireLinkAfter ops).settled = _ at hsettled
  unfold wireLinkTally
  omega

/-- **Reliable commands over overwritten registers.**  Whatever the clocks say and whatever the
bus loses, cuts or pads: the node's polls give nothing but queued commands, in the order in
which they were queued and each at most three times; the controller's queue refuses none, and
every command is pending, accepted or given up; and an acknowledgement that resolves a command as
accepted resolves the command queued last, which the node's program has received, as long as what
the node has published acknowledges one of the last 256 commands. -/
theorem wire_link (ops : List WireLinkOp) :
    (wireLinkAfter ops).history.received.Pairwise (· ≤ ·) ∧
    (∀ number, (wireLinkAfter ops).history.received.count number ≤ 3) ∧
    (wireLinkAfter ops).sketch.controller.next =
      (wireLinkAfter ops).sketch.controller.queue.pendingCount +
        wireLinkTally WireLink.isAcceptance ops + wireLinkTally WireLink.isExhaustion ops ∧
    (∀ nowMs uptimeMs frame,
      ((wireLinkAfter ops).step (.node nowMs uptimeMs)).2 = .polled (some frame) →
      ∃ number < (wireLinkAfter ops).sketch.controller.next,
        frame = (WireLink.command number).normalise ∧
        ((wireLinkAfter ops).step (.node nowMs uptimeMs)).1.history.received =
          (wireLinkAfter ops).history.received ++ [number]) ∧
    ∀ nowMs transfer,
      (∀ sequence result,
        .enqueueCommand sequence result ∈
          ((wireLinkAfter ops).controllerStep nowMs transfer).2 → result = .queued) ∧
      ∀ sequence status resolution,
        .receiveAcknowledgement sequence status resolution ∈
          ((wireLinkAfter ops).controllerStep nowMs transfer).2 →
        status = .accepted ∧ resolution ≠ .rejected ∧
        ((∀ number ∈ (wireLinkAfter ops).history.answered,
            (wireLinkAfter ops).sketch.controller.next ≤ number + 256) →
          resolution = .accepted →
          (wireLinkAfter ops).sketch.controller.queue.pendingCount ≠ 0 ∧
          ∃ number ∈ (wireLinkAfter ops).history.received,
            (wireLinkAfter ops).sketch.controller.next = number + 1 ∧
            sequence = UInt8.ofNat number) := by
  obtain ⟨pending, h⟩ := wireLinkAfter_consistent ops
  refine ⟨h.ordered, fun number => ?_, wireLinkAfter_settled ops,
    fun nowMs uptimeMs frame hpolled => ?_, fun nowMs transfer => ?_⟩
  · have hcounted := h.counted number
    have hbudget := h.budget number
    have hmax : commandPolicy.maxAttempts.toNat = 3 := rfl
    omega
  · obtain ⟨polled, hreply, hturn⟩ := h.nodeTurn nowMs uptimeMs
    rw [hreply] at hpolled
    obtain rfl := WireLinkReply.polled.inj hpolled
    have hconsistent := h.of_nodeTurn hturn
    generalize ((wireLinkAfter ops).step (.node nowMs uptimeMs)).1 = s' at hturn hconsistent ⊢
    cases hturn with
    | @take endpoint number hpoint hmessage hrequest hwritten =>
      exact ⟨number, hconsistent.lt_next (List.mem_append_right _ List.mem_cons_self), rfl, rfl⟩
  · obtain ⟨pending', hturn, -⟩ := h.controllerTurn nowMs transfer
    generalize ((wireLinkAfter ops).controllerStep nowMs transfer).1 = s' at hturn
    generalize ((wireLinkAfter ops).controllerStep nowMs transfer).2 = events at hturn ⊢
    constructor
    · intro sequence result hprinted
      cases hturn <;> simp at hprinted
      all_goals exact hprinted.2
    · intro sequence status resolution hprinted
      cases hturn with
      | unmatched hpoint hdue hnext hanswered hreceived hother =>
        obtain ⟨-, rfl, rfl⟩ :=
          ControllerEvent.receiveAcknowledgement.inj (List.mem_singleton.mp hprinted)
        exact ⟨rfl, by decide, fun _ haccepted => nomatch haccepted⟩
      | @resolve controller loopMs number e hpoint hdue hnext hanswered hreceived hpending hbyte =>
        obtain ⟨rfl, rfl, rfl⟩ :=
          ControllerEvent.receiveAcknowledgement.inj (List.mem_singleton.mp hprinted)
        refine ⟨rfl, by decide, fun hwindow _ => ⟨?_, number, hreceived, ?_, rfl⟩⟩
        · rw [ne_eq, h.holds.pendingCount_eq_zero_iff, hpending]
          exact Option.some_ne_none e
        · exact h.next_of_byte hreceived (hwindow number hanswered) hbyte
      | setup | queue | idle | wait | send | exhaust | skip | ignore => simp at hprinted

end PicoMesh
