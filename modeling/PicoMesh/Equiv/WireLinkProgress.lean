import PicoMesh.Equiv.Deadline
import PicoMesh.Equiv.WireLinkTiming

/-!
# The reliable command sketch gets its commands through

On a bus that loses nothing, with both programs making a step at least every
15 ms, whenever their boards were switched on, a published acknowledgement can
still be overwritten by a heartbeat before the controller reads it.  The next
heartbeat is then a second away, and the controller sends its command again after
a quarter of one; so the second copy is answered and read.  `Stage` follows a
command through its two attempts, and `wire_link_progress` says what comes of it:
every command is accepted within half a second, none is sent a third time and none
is given up.
-/

namespace PicoMesh

open SerialNumber

/-! ### Steps in time -/

/-- A step that makes a full transfer, if any. -/
def TimedLinkOp.Full : TimedLinkOp → Prop
  | .controller _ transfer => transfer.Full
  | .node _ _ => True

/-- Time does not run back, both programs make a step at least every `gap` ms from when their
boards were switched on, and the bus loses nothing: so the node's program begins first. -/
def TimedLink.InPace (gap : ℕ) (s : TimedLink) (op : TimedLinkOp) : Prop :=
  s.now ≤ op.time ∧ op.time ≤ s.nodeAt + gap ∧ op.time ≤ s.controllerAt + gap ∧
    s.Possible op ∧ op.Full

instance : DecidablePred TimedLinkOp.Full
  | .controller _ _ => inferInstanceAs (Decidable (_ ∧ _))
  | .node _ _ => .isTrue trivial

instance (gap : ℕ) (s : TimedLink) (op : TimedLinkOp) : Decidable (s.InPace gap op) :=
  inferInstanceAs (Decidable (_ ∧ _ ∧ _ ∧ _ ∧ _))

/-- How many steps the controller's program is behind its last look at a timer that it looks at
once in `loop`. -/
def CommandPoint.sinceLook : CommandPoint → ℕ
  | .setup => 0
  | .top => 2
  | .transmit _ => 3
  | .receive _ => 4

/-- The times that the controller's program remembers, for the true time of its last read. -/
structure Looping (clocks : BoardClocks) (gap : ℕ) (point : CommandPoint)
    (controllerAt receive : ℕ) : Prop where
  receive_le : receive ≤ controllerAt
  /-- Reads are 20 ms apart, and up to four steps. -/
  reading : controllerAt ≤ receive + 20 + point.sinceLook * gap
  transmit : ∀ loopMs, point = .transmit loopMs →
    loopMs = millisAt clocks.controllerOn controllerAt
  receive : ∀ loopMs, point = .receive loopMs →
    ∃ loopAt, loopMs = millisAt clocks.controllerOn loopAt ∧ receive ≤ loopAt ∧
      loopAt ≤ controllerAt ∧ controllerAt ≤ loopAt + gap

/-! ### A command on its way -/

/-- How far a copy of the last command has come that was written at the time `w`. -/
inductive Delivery (gap : ℕ) (s : TimedLink) (receive w : ℕ) : Prop where
  /-- It lies unread. -/
  | unread (number : ℕ) (hlast : s.link.sketch.controller.next = number + 1)
      (hmessage : s.link.node.endpoint.message =
        some (encodeFrame (WireLink.command number)).active)
      (hwritten : s.link.history.written = some number)
      (hage : s.nodeAt + s.link.node.point.untilPoll * gap ≤ w + 3 * gap)
  /-- The node's program has taken it. -/
  | taken (number : ℕ) (hlast : s.link.sketch.controller.next = number + 1)
      (hpoint : s.link.node.point = .answer (WireLink.command number).normalise)
      (htaken : s.link.history.taken = some number) (hwritten : s.link.history.written = none)
      (hage : s.nodeAt ≤ w + 3 * gap)
  /-- Its acknowledgement is published, and there was no read since. -/
  | answered (number : ℕ) (hlast : s.link.sketch.controller.next = number + 1)
      (hanswered : s.link.history.answered = some number)
      (hwritten : s.link.history.written = none)
      (hpoint : s.link.node.point = .top ∨ s.link.node.point = .poll)
      (hage : receive ≤ w + 4 * gap)

/-- How far the pending command has come. -/
inductive Stage (clocks : BoardClocks) (gap : ℕ) (s : TimedLink) (heartbeat receive : ℕ)
    (e : PendingEntry UInt32) : Prop where
  /-- It is about to be sent. -/
  | queued (hattempts : e.attempts = 0)
      (hdeadline : e.deadlineMs = millisAt clocks.controllerOn s.queuedAt)
      (hpoint : s.link.sketch.point = .top ∧ s.controllerAt = s.queuedAt ∨
        (∃ loopMs, s.link.sketch.point = .transmit loopMs) ∧ s.queuedAt ≤ s.controllerAt ∧
          s.controllerAt ≤ s.queuedAt + gap)
  /-- Its first copy is on its way. -/
  | first (sent w : ℕ) (hattempts : e.attempts = 1)
      (hdeadline : e.deadlineMs = millisAt clocks.controllerOn (sent + 250))
      (hqueued : s.queuedAt ≤ sent)
      (hsent : sent ≤ s.queuedAt + gap) (hlater : sent ≤ w) (hw : w ≤ sent + gap)
      (hpast : w ≤ s.controllerAt) (hdelivery : Delivery gap s receive w)
  /-- A heartbeat may have overwritten its acknowledgement. -/
  | overwritten (sent : ℕ) (hattempts : e.attempts = 1)
      (hdeadline : e.deadlineMs = millisAt clocks.controllerOn (sent + 250))
      (hqueued : s.queuedAt ≤ sent)
      (hsent : sent ≤ s.queuedAt + gap) (hpast : sent ≤ s.controllerAt)
      (hheartbeat : s.queuedAt ≤ heartbeat)
      (hwait : s.controllerAt ≤ sent + 250 + s.link.sketch.point.sinceLook * gap)
      (hreceive : ∀ loopMs, s.link.sketch.point = .receive loopMs →
        s.controllerAt ≤ sent + 250 + gap)
  /-- Its second copy is on its way. -/
  | second (sent w : ℕ) (hattempts : e.attempts = 2)
      (hdeadline : e.deadlineMs = millisAt clocks.controllerOn (sent + 250))
      (hqueued : s.queuedAt ≤ sent)
      (hsent : sent ≤ s.queuedAt + 250 + 4 * gap) (hlater : sent ≤ w) (hw : w ≤ sent + gap)
      (hpast : w ≤ s.controllerAt) (hheartbeat : s.queuedAt ≤ heartbeat)
      (hdelivery : Delivery gap s receive w)

/-- **What holds of both boards in pace**, with the entry that is pending and the true times of the
last heartbeat and the last read. -/
structure OnTime (clocks : BoardClocks) (gap : ℕ) (s : TimedLink)
    (pending : Option (PendingEntry UInt32)) (heartbeat receive : ℕ) : Prop where
  consistent : s.link.Consistent pending
  idle : s.link.sketch.point = .setup → pending = none
  controllerAt_le : s.link.sketch.point ≠ .setup → s.controllerAt ≤ s.now
  nodeAt_le : s.link.node.point ≠ .setup → s.nodeAt ≤ s.now
  queuedAt_le : s.queuedAt ≤ s.now
  heartbeatMs : s.link.node.lastHeartbeatMs = millisAt clocks.nodeOn heartbeat
  heartbeat_le : heartbeat ≤ s.nodeAt
  receiveMs : s.link.sketch.lastReceiveMs = millisAt clocks.controllerOn receive
  looping : Looping clocks gap s.link.sketch.point s.controllerAt receive
  stage : ∀ e ∈ pending, Stage clocks gap s heartbeat receive e

theorem onTime_start (clocks : BoardClocks) (gap : ℕ) :
    OnTime clocks gap (timedLink clocks).start none clocks.nodeOn clocks.controllerOn where
  consistent := WireLink.consistent_start
  idle := fun _ => rfl
  controllerAt_le := fun hbegun => absurd rfl hbegun
  nodeAt_le := fun hbegun => absurd rfl hbegun
  queuedAt_le := Nat.le_refl _
  heartbeatMs := (millisAt_self _).symm
  heartbeat_le := Nat.le_refl _
  receiveMs := (millisAt_self _).symm
  looping :=
    { receive_le := Nat.le_refl _
      reading := by
        show clocks.controllerOn ≤ clocks.controllerOn + 20 + _
        omega
      transmit := fun _ hpoint => nomatch hpoint
      receive := fun _ hpoint => nomatch hpoint }
  stage := fun _ he => nomatch he

section

variable {clocks : BoardClocks} {gap heartbeat receive t : ℕ} {s : TimedLink}
  {pending pending' : Option (PendingEntry UInt32)}

/-! ### How long it takes -/

/-- **A copy is answered and read within 20 ms and nine steps.** -/
theorem Delivery.bound {w : ℕ} (h : Delivery gap s receive w)
    (hlooping : Looping clocks gap s.link.sketch.point s.controllerAt receive)
    (hnode : t ≤ s.nodeAt + gap) (hcontroller : t ≤ s.controllerAt + gap) :
    t ≤ w + 20 + 9 * gap := by
  cases h with
  | unread number hlast hmessage hwritten hage =>
    have hpoll : 1 ≤ s.link.node.point.untilPoll := by
      unfold NodePoint.untilPoll
      split <;> omega
    have hmul := Nat.mul_le_mul_right gap hpoll
    omega
  | taken number hlast hpoint htaken hwritten hage => omega
  | answered number hlast hanswered hwritten hpoint hage =>
    have hlook : s.link.sketch.point.sinceLook ≤ 4 := by
      unfold CommandPoint.sinceLook
      split <;> omega
    have hmul := Nat.mul_le_mul_right gap hlook
    have hreading := hlooping.reading
    omega

/-- **A pending command is young.** -/
theorem Stage.bound {e : PendingEntry UInt32} (h : Stage clocks gap s heartbeat receive e)
    (hgap : gap ≤ 15) (hlooping : Looping clocks gap s.link.sketch.point s.controllerAt receive)
    (hnode : t ≤ s.nodeAt + gap) (hcontroller : t ≤ s.controllerAt + gap) :
    t ≤ s.queuedAt + 500 := by
  cases h with
  | queued hattempts hdeadline hpoint =>
    rcases hpoint with ⟨-, hat⟩ | ⟨-, -, hat⟩ <;> omega
  | first sent w hattempts hdeadline hqueued hsent hlater hw hpast hdelivery =>
    have hbound := hdelivery.bound hlooping hnode hcontroller
    omega
  | overwritten sent hattempts hdeadline hqueued hsent hpast hheartbeat hwait hreceive =>
    have hlook : s.link.sketch.point.sinceLook ≤ 4 := by
      unfold CommandPoint.sinceLook
      split <;> omega
    have hmul := Nat.mul_le_mul_right gap hlook
    omega
  | second sent w hattempts hdeadline hqueued hsent hlater hw hpast hheartbeat hdelivery =>
    have hbound := hdelivery.bound hlooping hnode hcontroller
    omega

/-! ### The controller's timers -/

section

variable {point : CommandPoint} {controllerAt : ℕ}

theorem Looping.setup (h : Looping clocks gap .setup controllerAt receive) (hle : controllerAt ≤ t)
    (hgap : t ≤ controllerAt + gap) : Looping clocks gap .top t receive where
  receive_le := h.receive_le.trans hle
  reading := by
    have hreading := h.reading
    simp only [CommandPoint.sinceLook] at hreading ⊢
    omega
  transmit := fun _ hpoint => nomatch hpoint
  receive := fun _ hpoint => nomatch hpoint

theorem Looping.top (h : Looping clocks gap .top controllerAt receive) (hle : controllerAt ≤ t)
    (hgap : t ≤ controllerAt + gap) :
    Looping clocks gap (.transmit (millisAt clocks.controllerOn t)) t receive where
  receive_le := h.receive_le.trans hle
  reading := by
    have hreading := h.reading
    simp only [CommandPoint.sinceLook] at hreading ⊢
    omega
  transmit := fun _ hpoint => (CommandPoint.transmit.inj hpoint).symm
  receive := fun _ hpoint => nomatch hpoint

theorem Looping.sent {loopMs : UInt32}
    (h : Looping clocks gap (.transmit loopMs) controllerAt receive)
    (hle : controllerAt ≤ t) (hgap : t ≤ controllerAt + gap) :
    Looping clocks gap (.receive loopMs) t receive where
  receive_le := h.receive_le.trans hle
  reading := by
    have hreading := h.reading
    simp only [CommandPoint.sinceLook] at hreading ⊢
    omega
  transmit := fun _ hpoint => nomatch hpoint
  receive := fun loopMs' hpoint => by
    obtain rfl := CommandPoint.receive.inj hpoint
    exact ⟨controllerAt, h.transmit _ rfl, h.receive_le, hle, hgap⟩

/-- A read is skipped only when the last one is less than 20 ms ago. -/
theorem Looping.skip {loopMs lastReceiveMs : UInt32}
    (h : Looping clocks gap (.receive loopMs) controllerAt receive)
    (hms : lastReceiveMs = millisAt clocks.controllerOn receive) (hgap' : gap ≤ 15)
    (hle : controllerAt ≤ t) (hgap : t ≤ controllerAt + gap)
    (hdue : ¬loopMs - lastReceiveMs ≥ kReceivePollMs) :
    Looping clocks gap .top t receive := by
  obtain ⟨loopAt, rfl, hreceive, hloop, hnext⟩ := h.receive _ rfl
  have hreading := h.reading
  simp only [CommandPoint.sinceLook] at hreading
  have hearly : loopAt < receive + 20 := by
    by_contra hlate
    rw [hms, millisAt_sub] at hdue
    exact hdue ((le_uint32_sub_iff hreceive (by omega)).mpr (Nat.not_lt.mp hlate))
  exact
    { receive_le := h.receive_le.trans hle
      reading := by
        simp only [CommandPoint.sinceLook]
        omega
      transmit := fun _ hpoint => nomatch hpoint
      receive := fun _ hpoint => nomatch hpoint }

theorem Looping.read {loopMs : UInt32}
    (h : Looping clocks gap (.receive loopMs) controllerAt receive)
    (hle : controllerAt ≤ t) (hgap : t ≤ controllerAt + gap) :
    ∃ loopAt, loopMs = millisAt clocks.controllerOn loopAt ∧
      Looping clocks gap .top t loopAt := by
  obtain ⟨loopAt, hms, hreceive, hloop, hnext⟩ := h.receive _ rfl
  exact ⟨loopAt, hms,
    { receive_le := hloop.trans hle
      reading := by
        simp only [CommandPoint.sinceLook]
        omega
      transmit := fun _ hpoint => nomatch hpoint
      receive := fun _ hpoint => nomatch hpoint }⟩

end

/-- Within half the clock's range the deadline test is the true one. -/
theorem due_millisAt_iff {e : PendingEntry UInt32} {on deadline now : ℕ}
    (hdeadline : e.deadlineMs = millisAt on deadline) (hfuture : deadline ≤ now + 2 ^ 31)
    (hpast : now < deadline + 2 ^ 31) : e.due (millisAt on now) = true ↔ deadline ≤ now := by
  have hshift : e.due (millisAt on now) =
      deadlineReached (UInt32.ofNat now) (UInt32.ofNat deadline) := by
    unfold PendingEntry.due
    rw [hdeadline]
    show decide (0 ≤ (millisAt on now - millisAt on deadline).toInt32) = _
    rw [millisAt_sub]
    rfl
  rw [hshift, deadlineReached_ofNat hfuture hpast]
  exact decide_eq_true_iff

/-- An entry that is sent comes due a quarter of a second later. -/
theorem deadlineMs_sent (e : PendingEntry UInt32) (on now : ℕ) :
    (e.sent (millisAt on now) commandPolicy).deadlineMs = millisAt on (now + 250) := by
  show millisAt on now + 250 = millisAt on (now + 250)
  unfold millisAt
  rw [UInt32.ofNat_add]
  grind

/-! ### The controller's steps -/

variable {queuedAt controllerAt : ℕ}

/-- What the controller does elsewhere leaves a copy on its way. -/
theorem Delivery.of_sketch {w : ℕ} (h : Delivery gap s receive w) {sketch : CommandSketch}
    (hnext : sketch.controller.next = s.link.sketch.controller.next) :
    Delivery gap
      { link := { s.link with sketch }, now := t, nodeAt := s.nodeAt, controllerAt, queuedAt }
      receive w := by
  cases h with
  | unread number hlast hmessage hwritten hage =>
    exact .unread number (hnext.trans hlast) hmessage hwritten hage
  | taken number hlast hpoint htaken hwritten hage =>
    exact .taken number (hnext.trans hlast) hpoint htaken hwritten hage
  | answered number hlast hanswered hwritten hpoint hage =>
    exact .answered number (hnext.trans hlast) hanswered hwritten hpoint hage

/-- So does a read that does not bring its acknowledgement. -/
theorem Delivery.of_read {w : ℕ} (h : Delivery gap s receive w) {sketch : CommandSketch}
    (hnext : sketch.controller.next = s.link.sketch.controller.next) {receive' : ℕ}
    (hmissed : ∀ number, s.link.history.answered = some number →
      s.link.sketch.controller.next ≠ number + 1) :
    Delivery gap
      { link := { s.link with sketch }, now := t, nodeAt := s.nodeAt, controllerAt, queuedAt }
      receive' w := by
  cases h with
  | unread number hlast hmessage hwritten hage =>
    exact .unread number (hnext.trans hlast) hmessage hwritten hage
  | taken number hlast hpoint htaken hwritten hage =>
    exact .taken number (hnext.trans hlast) hpoint htaken hwritten hage
  | answered number hlast hanswered hwritten hpoint hage =>
    exact absurd hlast (hmissed number hanswered)

/-- **A full write lies unread.** -/
theorem message_write_full {endpoint : WirePeripheralEndpoint} {transfer : BusTransfer} {f : Frame}
    (hfull : transfer.Full) :
    (transfer.write endpoint (encodeFrame f).active).message = some (encodeFrame f).active := by
  have hle := length_le_of_decodeFrame_ok (decodeFrame_encodeFrame_ok f)
  unfold BusTransfer.write
  rw [if_pos hfull.1, List.take_of_length_le (hle.trans hfull.2)]
  dsimp only
  rw [WirePeripheralEndpoint.message_receive, if_neg (encodeFrame_shaped f).ne_nil, fitting,
    List.take_of_length_le hle]

variable {e : PendingEntry UInt32}

/-- A step of the controller that sends nothing and leaves the pending entry. -/
theorem Stage.of_sketch (h : Stage clocks gap s heartbeat receive e) (hle : s.controllerAt ≤ t)
    {sketch : CommandSketch} {receive' : ℕ}
    (hdelivery : ∀ w, Delivery gap s receive w → Delivery gap
      { link := { s.link with sketch }
        now := t, controllerAt := t, nodeAt := s.nodeAt, queuedAt := s.queuedAt } receive' w)
    (hqueued : e.deadlineMs = millisAt clocks.controllerOn s.queuedAt →
      (s.link.sketch.point = .top ∧ s.controllerAt = s.queuedAt ∨
        (∃ loopMs, s.link.sketch.point = .transmit loopMs) ∧ s.queuedAt ≤ s.controllerAt ∧
          s.controllerAt ≤ s.queuedAt + gap) →
      (∃ loopMs, sketch.point = .transmit loopMs) ∧ s.queuedAt ≤ t ∧ t ≤ s.queuedAt + gap)
    (hwait : ∀ sent, e.deadlineMs = millisAt clocks.controllerOn (sent + 250) →
      sent ≤ s.controllerAt →
      s.controllerAt ≤ sent + 250 + s.link.sketch.point.sinceLook * gap →
      (∀ loopMs, s.link.sketch.point = .receive loopMs → s.controllerAt ≤ sent + 250 + gap) →
      t ≤ sent + 250 + sketch.point.sinceLook * gap ∧
        ∀ loopMs, sketch.point = .receive loopMs → t ≤ sent + 250 + gap) :
    Stage clocks gap
      { link := { s.link with sketch }
        now := t, controllerAt := t, nodeAt := s.nodeAt, queuedAt := s.queuedAt }
      heartbeat receive' e := by
  cases h with
  | queued hattempts hdeadline hpoint =>
    exact .queued hattempts hdeadline (Or.inr (hqueued hdeadline hpoint))
  | first sent w hattempts hdeadline hqueued' hsent hlater hw hpast hcopy =>
    exact .first sent w hattempts hdeadline hqueued' hsent hlater hw (hpast.trans hle)
      (hdelivery w hcopy)
  | overwritten sent hattempts hdeadline hqueued' hsent hpast hheartbeat hlook hreceive =>
    obtain ⟨hlook', hreceive'⟩ := hwait sent hdeadline hpast hlook hreceive
    exact .overwritten sent hattempts hdeadline hqueued' hsent (hpast.trans hle) hheartbeat
      hlook' hreceive'
  | second sent w hattempts hdeadline hqueued' hsent hlater hw hpast hheartbeat hcopy =>
    exact .second sent w hattempts hdeadline hqueued' hsent hlater hw (hpast.trans hle) hheartbeat
      (hdelivery w hcopy)

/-- The end of a pass of `loop`. -/
theorem Stage.of_receive (h : Stage clocks gap s heartbeat receive e) (hle : s.controllerAt ≤ t)
    (hcontroller : t ≤ s.controllerAt + gap) {sketch : CommandSketch} {receive' : ℕ}
    {loopMs : UInt32} (hpoint : s.link.sketch.point = .receive loopMs)
    (hpoint' : sketch.point = .top) (hdelivery : ∀ w, Delivery gap s receive w → Delivery gap
      { link := { s.link with sketch }
        now := t, controllerAt := t, nodeAt := s.nodeAt, queuedAt := s.queuedAt } receive' w) :
    Stage clocks gap
      { link := { s.link with sketch }
        now := t, controllerAt := t, nodeAt := s.nodeAt, queuedAt := s.queuedAt }
      heartbeat receive' e := by
  refine h.of_sketch hle hdelivery (fun _ hqueued => ?_) fun sent _ _ _ hreceive => ⟨?_, ?_⟩
  · -- a command is queued at the top of `loop` and sent before its end
    rcases hqueued with ⟨htop, -⟩ | ⟨⟨_, htransmit⟩, -⟩
    · exact nomatch htop.symm.trans hpoint
    · exact nomatch htransmit.symm.trans hpoint
  · have hlook := hreceive loopMs hpoint
    rw [hpoint']
    simp only [CommandPoint.sinceLook]
    omega
  · exact fun _ hne => nomatch hpoint'.symm.trans hne

/-- A copy on its way has been read long before the next one is due. -/
theorem Delivery.not_due {w sent : ℕ} (h : Delivery gap s receive w) (hgap : gap ≤ 15)
    (hlooping : Looping clocks gap s.link.sketch.point s.controllerAt receive)
    (hnode : s.controllerAt ≤ s.nodeAt + gap) (hlater : sent ≤ w) (hw : w ≤ sent + gap)
    (hpast : w ≤ s.controllerAt)
    (hdeadline : e.deadlineMs = millisAt clocks.controllerOn (sent + 250)) :
    e.due (millisAt clocks.controllerOn s.controllerAt) = false := by
  have hbound := h.bound hlooping hnode (Nat.le_add_right _ _)
  rw [← Bool.not_eq_true, due_millisAt_iff hdeadline (by omega) (by omega)]
  omega

/-- **A command is sent**: for the first time, or again after a heartbeat. -/
theorem Stage.of_sent (h : Stage clocks gap s heartbeat receive e) (hgap : gap ≤ 15)
    (hlooping : Looping clocks gap s.link.sketch.point s.controllerAt receive) {loopMs : UInt32}
    (hpoint : s.link.sketch.point = .transmit loopMs) (hdue : e.due loopMs = true)
    (hle : s.controllerAt ≤ t) (hnode' : s.nodeAt ≤ t) (hnode : t ≤ s.nodeAt + gap)
    (hcontroller : t ≤ s.controllerAt + gap) {sketch : CommandSketch}
    (hnext : sketch.controller.next = s.link.sketch.controller.next)
    (hpos : 0 < s.link.sketch.controller.next) {transfer : BusTransfer}
    (hfull : transfer.Full) :
    Stage clocks gap
      { link :=
          { sketch
            node := { s.link.node with
              endpoint := transfer.write s.link.node.endpoint
                (encodeFrame (WireLink.command (s.link.sketch.controller.next - 1))).active }
            history := s.link.history.write (s.link.sketch.controller.next - 1) transfer }
        now := t, controllerAt := t, nodeAt := s.nodeAt, queuedAt := s.queuedAt }
      heartbeat receive (e.sent loopMs commandPolicy) := by
  obtain rfl := hlooping.transmit loopMs hpoint
  have hpoll := Nat.mul_le_mul_right gap s.link.node.point.untilPoll_le
  have hdelivery : Delivery gap
      { link :=
          { sketch
            node := { s.link.node with
              endpoint := transfer.write s.link.node.endpoint
                (encodeFrame (WireLink.command (s.link.sketch.controller.next - 1))).active }
            history := s.link.history.write (s.link.sketch.controller.next - 1) transfer }
        now := t, controllerAt := t, nodeAt := s.nodeAt, queuedAt := s.queuedAt } receive t := by
    refine .unread (s.link.sketch.controller.next - 1) ?_ (message_write_full hfull)
      (if_pos hfull.1) (Nat.add_le_add hnode' hpoll)
    show sketch.controller.next = _
    omega
  cases h with
  | queued hattempts hdeadline hqueued =>
    obtain ⟨hlo, hhi⟩ : s.queuedAt ≤ s.controllerAt ∧ s.controllerAt ≤ s.queuedAt + gap := by
      rcases hqueued with ⟨-, hat⟩ | ⟨-, hlo, hhi⟩ <;> omega
    refine .first s.controllerAt t ?_ (deadlineMs_sent e _ _) hlo hhi hle hcontroller
      (Nat.le_refl t) hdelivery
    show e.attempts + 1 = 1
    rw [hattempts]
    rfl
  | overwritten sent hattempts hdeadline hqueued hsent hpast hheartbeat hwait hreceive =>
    rw [hpoint] at hwait
    simp only [CommandPoint.sinceLook] at hwait
    rw [due_millisAt_iff hdeadline (by omega) (by omega)] at hdue
    refine .second s.controllerAt t ?_ (deadlineMs_sent e _ _) ?_ ?_ hle hcontroller (Nat.le_refl t)
      hheartbeat hdelivery
    · show e.attempts + 1 = 2
      rw [hattempts]
      rfl
    · show s.queuedAt ≤ s.controllerAt
      omega
    · show s.controllerAt ≤ s.queuedAt + 250 + 4 * gap
      omega
  | first sent w hattempts hdeadline hqueued hsent hlater hw hpast hdelivery'
  | second sent w hattempts hdeadline hqueued hsent hlater hw hpast hheartbeat hdelivery' =>
    -- a copy is on its way: the next one is not due
    rw [hdelivery'.not_due hgap hlooping (by omega) hlater hw hpast hdeadline] at hdue
    cases hdue

/-- Two copies are enough. -/
theorem Stage.attempts_le (h : Stage clocks gap s heartbeat receive e) : e.attempts ≤ 2 := by
  cases h with
  | queued hattempts | first sent w hattempts | overwritten sent hattempts
  | second sent w hattempts =>
    rw [hattempts]
    decide

/-- The second copy is not followed by a third. -/
theorem Stage.attempts_lt_of_due (h : Stage clocks gap s heartbeat receive e) (hgap : gap ≤ 15)
    (hlooping : Looping clocks gap s.link.sketch.point s.controllerAt receive)
    (hnode : s.controllerAt ≤ s.nodeAt + gap)
    (hdue : e.due (millisAt clocks.controllerOn s.controllerAt) = true) : e.attempts < 2 := by
  cases h with
  | queued hattempts | first sent w hattempts | overwritten sent hattempts =>
    rw [hattempts]
    decide
  | second sent w hattempts hdeadline hqueued hsent hlater hw hpast hheartbeat hdelivery =>
    rw [hdelivery.not_due hgap hlooping hnode hlater hw hpast hdeadline] at hdue
    cases hdue

/-- A step of the controller at the time `t` is in time. -/
structure Timely (gap : ℕ) (s : TimedLink) (t : ℕ) : Prop where
  now_le : s.now ≤ t
  controllerAt_le : s.controllerAt ≤ t
  nodeAt_le : s.nodeAt ≤ t
  node : t ≤ s.nodeAt + gap
  controller : t ≤ s.controllerAt + gap

theorem OnTime.timely (h : OnTime clocks gap s pending heartbeat receive) {transfer : BusTransfer}
    (hop : s.InPace gap (.controller t transfer)) : Timely gap s t ∧ transfer.Full := by
  obtain ⟨hnow, hnode, hcontroller, ⟨hon, hbegun⟩, hfull⟩ := hop
  -- a transfer that reaches the node is made after its program has begun
  have hnodeAt := h.nodeAt_le fun hsetup => nomatch hfull.1.symm.trans (hbegun hsetup)
  exact ⟨⟨hnow, hon, hnodeAt.trans hnow, hnode, hcontroller⟩, hfull⟩

/-- A step of the controller, put together. -/
theorem OnTime.of_controller (h : OnTime clocks gap s pending heartbeat receive)
    (htime : Timely gap s t) {link : WireLink} (hconsistent : link.Consistent pending')
    (hbegun : link.sketch.point ≠ .setup)
    (hnodeMs : link.node.lastHeartbeatMs = s.link.node.lastHeartbeatMs) {receive' : ℕ}
    (hms : link.sketch.lastReceiveMs = millisAt clocks.controllerOn receive')
    (hlooping : Looping clocks gap link.sketch.point t receive') {queuedAt : ℕ}
    (hqueuedAt : queuedAt ≤ t)
    (hstage : ∀ e ∈ pending', Stage clocks gap
      { link, now := t, controllerAt := t, nodeAt := s.nodeAt, queuedAt } heartbeat receive' e) :
    OnTime clocks gap { link, now := t, controllerAt := t, nodeAt := s.nodeAt, queuedAt } pending'
      heartbeat receive' where
  consistent := hconsistent
  idle := fun hsetup => absurd hsetup hbegun
  controllerAt_le := fun _ => Nat.le_refl t
  nodeAt_le := fun _ => htime.nodeAt_le
  queuedAt_le := hqueuedAt
  heartbeatMs := hnodeMs.trans h.heartbeatMs
  heartbeat_le := h.heartbeat_le
  receiveMs := hms
  looping := hlooping
  stage := hstage

/-- A command is queued, by `setup` or at the top of `loop`. -/
theorem OnTime.of_queued (h : OnTime clocks gap s pending heartbeat receive)
    (htime : Timely gap s t) {sketch : CommandSketch} {frame : Frame}
    (hconsistent : WireLink.Consistent { s.link with sketch }
      (some ⟨frame, millisAt clocks.controllerOn t, 0⟩))
    (hms : sketch.lastReceiveMs = s.link.sketch.lastReceiveMs)
    (hlooping : Looping clocks gap sketch.point t receive)
    (hpoint : sketch.point = .top ∨ ∃ loopMs, sketch.point = .transmit loopMs) :
    OnTime clocks gap
      { link := { s.link with sketch }
        now := t, controllerAt := t, nodeAt := s.nodeAt, queuedAt := t }
      (some ⟨frame, millisAt clocks.controllerOn t, 0⟩) heartbeat receive := by
  have hbegun : sketch.point ≠ .setup := by
    rcases hpoint with hpoint | ⟨loopMs, hpoint⟩ <;> simp [hpoint]
  refine h.of_controller htime hconsistent hbegun rfl (hms.trans h.receiveMs) hlooping
    (Nat.le_refl t) ?_
  rintro e ⟨⟩
  refine .queued rfl rfl ?_
  rcases hpoint with hpoint | hpoint
  · exact Or.inl ⟨hpoint, rfl⟩
  · exact Or.inr ⟨hpoint, Nat.le_refl t, Nat.le_add_right t gap⟩

/-- No command is queued at the top of `loop`. -/
theorem OnTime.of_idle (h : OnTime clocks gap s pending heartbeat receive)
    (htime : Timely gap s t) (hpoint : s.link.sketch.point = .top) {sketch : CommandSketch}
    (hsketch : sketch =
      { s.link.sketch with point := .transmit (millisAt clocks.controllerOn t) })
    (hconsistent : WireLink.Consistent { s.link with sketch } pending) :
    OnTime clocks gap
      { link := { s.link with sketch }
        now := t, controllerAt := t, nodeAt := s.nodeAt, queuedAt := s.queuedAt }
      pending heartbeat receive := by
  subst hsketch
  have hle := htime.controllerAt_le
  have hcontroller := htime.controller
  have hlooping := h.looping
  rw [hpoint] at hlooping
  refine h.of_controller htime hconsistent (by simp) rfl h.receiveMs
    (hlooping.top hle hcontroller) (h.queuedAt_le.trans htime.now_le) fun e he => ?_
  refine (h.stage e he).of_sketch hle (fun w hcopy => hcopy.of_sketch rfl) (fun _ hqueued => ?_)
    fun sent _ _ hwait _ => ⟨?_, fun _ hne => nomatch hne⟩
  · rcases hqueued with ⟨-, hat⟩ | ⟨⟨_, htransmit⟩, -⟩
    · exact ⟨⟨_, rfl⟩, by omega, by omega⟩
    · exact nomatch htransmit.symm.trans hpoint
  · rw [hpoint] at hwait
    simp only [CommandPoint.sinceLook] at hwait ⊢
    omega

/-- Nothing is due to be sent. -/
theorem OnTime.of_wait (h : OnTime clocks gap s pending heartbeat receive) (hgap : gap ≤ 15)
    (htime : Timely gap s t) {loopMs : UInt32} (hpoint : s.link.sketch.point = .transmit loopMs)
    (hdue : ∀ e ∈ pending, e.due loopMs = false) {sketch : CommandSketch}
    (hpoint' : sketch.point = .receive loopMs)
    (hnext : sketch.controller.next = s.link.sketch.controller.next)
    (hms : sketch.lastReceiveMs = s.link.sketch.lastReceiveMs)
    (hconsistent : WireLink.Consistent { s.link with sketch } pending) :
    OnTime clocks gap
      { link := { s.link with sketch }
        now := t, controllerAt := t, nodeAt := s.nodeAt, queuedAt := s.queuedAt }
      pending heartbeat receive := by
  have hle := htime.controllerAt_le
  have hcontroller := htime.controller
  have hlooping := h.looping
  rw [hpoint] at hlooping
  obtain rfl := hlooping.transmit loopMs rfl
  refine h.of_controller htime hconsistent (by simp [hpoint']) rfl (hms.trans h.receiveMs)
    (hpoint' ▸ hlooping.sent hle hcontroller) (h.queuedAt_le.trans htime.now_le) fun e he => ?_
  have hwaiting : ∀ deadline, e.deadlineMs = millisAt clocks.controllerOn deadline →
      deadline ≤ s.controllerAt + 2 ^ 31 → s.controllerAt < deadline + 2 ^ 31 →
      s.controllerAt < deadline := by
    intro deadline hdeadline hfuture hpast
    rw [← Nat.not_le, ← due_millisAt_iff hdeadline hfuture hpast, hdue e he]
    exact Bool.false_ne_true
  refine (h.stage e he).of_sketch hle (fun w hcopy => hcopy.of_sketch hnext)
    (fun hdeadline hqueued => ?_) fun sent hdeadline hpast hwait _ => ?_
  · -- a command that is queued is due at once
    have hlo : s.queuedAt ≤ s.controllerAt ∧ s.controllerAt ≤ s.queuedAt + gap := by
      rcases hqueued with ⟨-, hat⟩ | ⟨-, hlo, hhi⟩ <;> omega
    have hearly := hwaiting s.queuedAt hdeadline (by omega) (by omega)
    omega
  · rw [hpoint] at hwait
    rw [hpoint']
    simp only [CommandPoint.sinceLook] at hwait ⊢
    have hearly := hwaiting (sent + 250) hdeadline (by omega) (by omega)
    exact ⟨by omega, fun _ _ => by omega⟩

/-- A copy of the pending command is sent. -/
theorem OnTime.of_send (h : OnTime clocks gap s pending heartbeat receive) (hgap : gap ≤ 15)
    (htime : Timely gap s t) {transfer : BusTransfer} (hfull : transfer.Full) {loopMs : UInt32}
    (hpoint : s.link.sketch.point = .transmit loopMs) (hpending : pending = some e)
    (hpos : 0 < s.link.sketch.controller.next) (hdue : e.due loopMs = true)
    {sketch : CommandSketch} (hpoint' : sketch.point = .receive loopMs)
    (hnext : sketch.controller.next = s.link.sketch.controller.next)
    (hms : sketch.lastReceiveMs = s.link.sketch.lastReceiveMs)
    (hconsistent : WireLink.Consistent
      { sketch
        node := { s.link.node with
          endpoint := transfer.write s.link.node.endpoint
            (encodeFrame (WireLink.command (s.link.sketch.controller.next - 1))).active }
        history := s.link.history.write (s.link.sketch.controller.next - 1) transfer }
      (some (e.sent loopMs commandPolicy))) :
    OnTime clocks gap
      { link :=
          { sketch
            node := { s.link.node with
              endpoint := transfer.write s.link.node.endpoint
                (encodeFrame (WireLink.command (s.link.sketch.controller.next - 1))).active }
            history := s.link.history.write (s.link.sketch.controller.next - 1) transfer }
        now := t, controllerAt := t, nodeAt := s.nodeAt, queuedAt := s.queuedAt }
      (some (e.sent loopMs commandPolicy)) heartbeat receive := by
  have hlooping := h.looping
  rw [hpoint] at hlooping
  refine h.of_controller htime hconsistent (by simp [hpoint']) rfl (hms.trans h.receiveMs)
    (hpoint' ▸ hlooping.sent htime.controllerAt_le htime.controller)
    (h.queuedAt_le.trans htime.now_le) ?_
  rintro e' ⟨⟩
  exact (h.stage e hpending).of_sent hgap h.looping hpoint hdue htime.controllerAt_le
    htime.nodeAt_le htime.node htime.controller hnext hpos hfull

/-- It is not time to read. -/
theorem OnTime.of_skip (h : OnTime clocks gap s pending heartbeat receive) (hgap : gap ≤ 15)
    (htime : Timely gap s t) {loopMs : UInt32} (hpoint : s.link.sketch.point = .receive loopMs)
    (hdue : ¬loopMs - s.link.sketch.lastReceiveMs ≥ kReceivePollMs) {sketch : CommandSketch}
    (hsketch : sketch = { s.link.sketch with point := .top })
    (hconsistent : WireLink.Consistent { s.link with sketch } pending) :
    OnTime clocks gap
      { link := { s.link with sketch }
        now := t, controllerAt := t, nodeAt := s.nodeAt, queuedAt := s.queuedAt }
      pending heartbeat receive := by
  subst hsketch
  have hle := htime.controllerAt_le
  have hlooping := h.looping
  rw [hpoint] at hlooping
  refine h.of_controller htime hconsistent (by simp) rfl h.receiveMs
    (hlooping.skip h.receiveMs hgap hle htime.controller hdue)
    (h.queuedAt_le.trans htime.now_le) fun e he => ?_
  exact (h.stage e he).of_receive hle htime.controller hpoint rfl fun w hcopy =>
    hcopy.of_sketch rfl

/-- A read, which brings no acknowledgement of a command that stays pending. -/
theorem OnTime.of_read (h : OnTime clocks gap s pending heartbeat receive)
    (htime : Timely gap s t) {loopMs : UInt32} (hpoint : s.link.sketch.point = .receive loopMs)
    {sketch : CommandSketch} (hpoint' : sketch.point = .top)
    (hnext : sketch.controller.next = s.link.sketch.controller.next)
    (hms : sketch.lastReceiveMs = loopMs)
    (hstays : ∀ e ∈ pending', e ∈ pending ∧
      ∀ number, s.link.history.answered = some number →
        s.link.sketch.controller.next ≠ number + 1)
    (hconsistent : WireLink.Consistent { s.link with sketch } pending') :
    ∃ receive', OnTime clocks gap
      { link := { s.link with sketch }
        now := t, controllerAt := t, nodeAt := s.nodeAt, queuedAt := s.queuedAt }
      pending' heartbeat receive' := by
  have hlooping := h.looping
  rw [hpoint] at hlooping
  obtain ⟨loopAt, hloop, hlooping'⟩ := hlooping.read htime.controllerAt_le htime.controller
  refine ⟨loopAt, h.of_controller htime hconsistent (by simp [hpoint']) rfl (hms.trans hloop)
    (hpoint' ▸ hlooping') (h.queuedAt_le.trans htime.now_le) fun e he => ?_⟩
  obtain ⟨hpending, hmissed⟩ := hstays e he
  exact (h.stage e hpending).of_receive htime.controllerAt_le htime.controller hpoint hpoint'
    fun w hcopy => hcopy.of_read hnext hmissed

/-- **The controller's steps in time.** -/
theorem OnTime.of_controllerTurn (h : OnTime clocks gap s pending heartbeat receive)
    (hgap : gap ≤ 15) {transfer : BusTransfer} (hop : s.InPace gap (.controller t transfer))
    {link : WireLink} {events : List ControllerEvent}
    (hturn : WireLink.ControllerTurn s.link pending (millisAt clocks.controllerOn t) transfer link
      pending' events)
    (hconsistent : link.Consistent pending') :
    ∃ receive', OnTime clocks gap
      { link
        now := t
        controllerAt := t
        nodeAt := s.nodeAt
        queuedAt :=
          if link.sketch.controller.next ≠ s.link.sketch.controller.next then t else s.queuedAt }
      pending' heartbeat receive' := by
  obtain ⟨htime, hfull⟩ := h.timely hop
  have hlooping := h.looping
  cases hturn with
  | setup hpoint hnone hnext =>
    simp only [hnext, ne_eq, Nat.add_eq_left, one_ne_zero, not_false_eq_true, if_true]
    rw [hpoint] at hlooping
    exact ⟨receive, h.of_queued htime hconsistent rfl
      (hlooping.setup htime.controllerAt_le htime.controller) (Or.inl rfl)⟩
  | queue hpoint hnone hdue hnext =>
    simp only [hnext, ne_eq, Nat.add_eq_left, one_ne_zero, not_false_eq_true, if_true]
    rw [hpoint] at hlooping
    exact ⟨receive, h.of_queued htime hconsistent rfl
      (hlooping.top htime.controllerAt_le htime.controller) (Or.inr ⟨_, rfl⟩)⟩
  | idle hpoint =>
    simp only [ne_eq, not_true_eq_false, if_false]
    exact ⟨receive, h.of_idle htime hpoint rfl hconsistent⟩
  | wait hpoint hnext hdue =>
    simp only [hnext, ne_eq, not_true_eq_false, if_false]
    exact ⟨receive, h.of_wait hgap htime hpoint hdue rfl hnext rfl hconsistent⟩
  | send hpoint hnext hpending hpos hdue hleft =>
    simp only [hnext, ne_eq, not_true_eq_false, if_false]
    exact ⟨receive, h.of_send hgap htime hfull hpoint hpending hpos hdue rfl hnext rfl
      hconsistent⟩
  | @exhaust controller loopMs e hpoint hnext hpending hdue hspent =>
    have hattempts := (h.stage e hpending).attempts_le
    rw [hspent] at hattempts
    exact absurd hattempts (by decide)
  | skip hpoint hdue =>
    simp only [ne_eq, not_true_eq_false, if_false]
    exact ⟨receive, h.of_skip hgap htime hpoint hdue rfl hconsistent⟩
  | ignore hpoint hdue hnone =>
    simp only [ne_eq, not_true_eq_false, if_false]
    exact h.of_read htime hpoint rfl rfl rfl (fun e he => ⟨he, fun _ hanswered =>
      nomatch hanswered.symm.trans (hnone hfull)⟩) hconsistent
  | unmatched hpoint hdue hnext hanswered hreceived hother =>
    simp only [hnext, ne_eq, not_true_eq_false, if_false]
    refine h.of_read htime hpoint rfl hnext rfl (fun e he => ⟨he, fun number' hanswered' hlast =>
      ?_⟩) hconsistent
    obtain rfl := Option.some.inj (hanswered.symm.trans hanswered')
    rcases hother with hnone | hbyte
    · exact nomatch hnone.symm.trans he
    · rw [hlast] at hbyte
      exact hbyte rfl
  | resolve hpoint hdue hnext hanswered hreceived hpending hbyte =>
    simp only [hnext, ne_eq, not_true_eq_false, if_false]
    exact h.of_read htime hpoint rfl hnext rfl (fun _ he => nomatch he) hconsistent

/-! ### The node's steps -/

/-- **A step of the node moves a copy on**, or a heartbeat overwrites its acknowledgement. -/
theorem Delivery.of_node {w : ℕ} (h : Delivery gap s receive w) (hnode : t ≤ s.nodeAt + gap)
    {link : WireLink} {uptimeMs : UInt32} {polled : Option Frame}
    (hturn : WireLink.NodeTurn s.link (millisAt clocks.nodeOn t) uptimeMs link polled)
    (hreceive : receive ≤ t) :
    Delivery gap { link, now := t, controllerAt, nodeAt := t, queuedAt } receive w ∨
      s.link.node.point = .top ∧
        millisAt clocks.nodeOn t - s.link.node.lastHeartbeatMs ≥ kHeartbeatIntervalMs := by
  cases h with
  | unread number hlast hmessage hwritten hage =>
    cases hturn with
    | setup hpoint hpublish | heartbeat hpoint hdue hpublish
    | answer hpoint htaken hreceived hpublish =>
      -- what the node publishes leaves what it has not polled
      simp only [hpoint, NodePoint.untilPoll] at hage
      refine Or.inl (.unread number hlast ?_ hwritten ?_)
      · show WirePeripheralEndpoint.message _ = _
        rw [hpublish, WirePeripheralEndpoint.message_publish]
        exact hmessage
      · simp only [NodePoint.untilPoll]
        omega
    | quiet hpoint hdue =>
      rw [hpoint, show NodePoint.untilPoll .top = 2 from rfl] at hage
      refine Or.inl (.unread number hlast hmessage hwritten ?_)
      show t + 1 * gap ≤ w + 3 * gap
      omega
    | empty hpoint hmessage' hrequest hnone => exact absurd hmessage (hnone _)
    | @take endpoint number' hpoint hmessage' hrequest hwritten' =>
      obtain rfl := Option.some.inj (hwritten.symm.trans hwritten')
      rw [hpoint, show NodePoint.untilPoll .poll = 1 from rfl] at hage
      refine Or.inl (.taken number hlast rfl rfl rfl ?_)
      show t ≤ w + 3 * gap
      omega
  | taken number hlast hpoint htaken hwritten hage =>
    cases hturn with
    | setup hpoint' | heartbeat hpoint' | quiet hpoint' | empty hpoint' | take hpoint' =>
      exact nomatch hpoint.symm.trans hpoint'
    | answer hpoint' htaken' hreceived hpublish =>
      refine Or.inl (.answered number hlast htaken hwritten (Or.inl rfl) ?_)
      omega
  | answered number hlast hanswered hwritten hpoint hage =>
    cases hturn with
    | setup hpoint' | answer hpoint' =>
      rcases hpoint with htop | hpoll
      · exact nomatch htop.symm.trans hpoint'
      · exact nomatch hpoll.symm.trans hpoint'
    | heartbeat hpoint' hdue hpublish htype => exact Or.inr ⟨hpoint', hdue⟩
    | quiet hpoint' hdue =>
      exact Or.inl (.answered number hlast hanswered hwritten (Or.inr rfl) hage)
    | empty hpoint' hmessage' hrequest hnone =>
      exact Or.inl (.answered number hlast hanswered rfl (Or.inl rfl) hage)
    | take hpoint' hmessage' hrequest hwritten' => exact nomatch hwritten.symm.trans hwritten'

/-- The time of the last heartbeat, behind a step of the node. -/
theorem NodeTurn.beats {link link' : WireLink} {uptimeMs : UInt32} {polled : Option Frame}
    (hturn : WireLink.NodeTurn link (millisAt clocks.nodeOn t) uptimeMs link' polled)
    (hms : link.node.lastHeartbeatMs = millisAt clocks.nodeOn heartbeat) (hle : heartbeat ≤ t) :
    link'.sketch = link.sketch ∧ link'.node.point ≠ .setup ∧
    ∃ heartbeat', link'.node.lastHeartbeatMs = millisAt clocks.nodeOn heartbeat' ∧
      heartbeat ≤ heartbeat' ∧ heartbeat' ≤ t ∧
      (link.node.point = .top →
        millisAt clocks.nodeOn t - link.node.lastHeartbeatMs ≥ kHeartbeatIntervalMs →
        heartbeat' = t ∧ heartbeat + 1000 ≤ t) := by
  cases hturn with
  | heartbeat hpoint hdue hpublish htype =>
    rw [hms, millisAt_sub] at hdue
    exact ⟨rfl, by simp, t, rfl, hle, Nat.le_refl t,
      fun _ _ => ⟨rfl, add_le_of_le_uint32_sub hle hdue⟩⟩
  | quiet hpoint hdue =>
    exact ⟨rfl, by simp, heartbeat, hms, Nat.le_refl _, hle, fun _ hlate => absurd hlate hdue⟩
  | setup hpoint | empty hpoint | take hpoint | answer hpoint =>
    -- a step that does not look at the heartbeat timer
    exact ⟨rfl, by simp, heartbeat, hms, Nat.le_refl _, hle,
      fun htop => nomatch hpoint.symm.trans htop⟩

/-- **The node's steps in time.** -/
theorem OnTime.of_nodeTurn (h : OnTime clocks gap s pending heartbeat receive) (hgap : gap ≤ 15)
    {uptimeMs : UInt32} (hop : s.InPace gap (.node t uptimeMs)) {link : WireLink}
    {polled : Option Frame}
    (hturn : WireLink.NodeTurn s.link (millisAt clocks.nodeOn t) uptimeMs link polled)
    (hconsistent : link.Consistent pending) :
    ∃ heartbeat', OnTime clocks gap
      { link
        now := t
        controllerAt := s.controllerAt
        nodeAt := t
        queuedAt :=
          if link.sketch.controller.next ≠ s.link.sketch.controller.next then t else s.queuedAt }
      pending heartbeat' receive := by
  obtain ⟨hnow, hnode, hcontroller, hon, -⟩ := hop
  change s.now ≤ t at hnow
  change t ≤ s.nodeAt + gap at hnode
  change t ≤ s.controllerAt + gap at hcontroller
  change s.nodeAt ≤ t at hon
  have hle := h.heartbeat_le.trans hon
  have hqueuedAt := h.queuedAt_le.trans hnow
  obtain ⟨hsketch, hbegun, heartbeat', hms, hlater, hle', hbeats⟩ :=
    NodeTurn.beats hturn h.heartbeatMs hle
  have hnext : ¬link.sketch.controller.next ≠ s.link.sketch.controller.next := by
    rw [hsketch]
    exact not_not.mpr rfl
  rw [if_neg hnext]
  refine ⟨heartbeat',
    { consistent := hconsistent
      idle := by
        rw [hsketch]
        exact h.idle
      controllerAt_le := by
        rw [hsketch]
        exact fun hbegun => (h.controllerAt_le hbegun).trans hnow
      nodeAt_le := fun _ => Nat.le_refl t
      queuedAt_le := hqueuedAt
      heartbeatMs := hms
      heartbeat_le := hle'
      receiveMs := by
        rw [hsketch]
        exact h.receiveMs
      looping := by
        rw [hsketch]
        exact h.looping
      stage := fun e he => ?_ }⟩
  have hage := (h.stage e he).bound hgap h.looping hnode hcontroller
  have hcontrollerAt := (h.controllerAt_le fun hsetup =>
    nomatch (h.idle hsetup).symm.trans he).trans hnow
  have hreceive := h.looping.receive_le.trans hcontrollerAt
  cases h.stage e he with
  | queued hattempts hdeadline hqueued =>
    refine .queued hattempts hdeadline ?_
    rw [hsketch]
    exact hqueued
  | first sent w hattempts hdeadline hqueued hsent hlater' hw hpast hcopy =>
    rcases hcopy.of_node hnode hturn hreceive with hcopy' | ⟨htop, hdue⟩
    · exact .first sent w hattempts hdeadline hqueued hsent hlater' hw hpast hcopy'
    · -- the acknowledgement is overwritten: the command is sent again
      obtain ⟨rfl, -⟩ := hbeats htop hdue
      have hbound := hcopy.bound h.looping hnode hcontroller
      refine .overwritten sent hattempts hdeadline hqueued hsent (hlater'.trans hpast) hqueuedAt
        ?_ fun _ _ => ?_
      · show s.controllerAt ≤ _
        omega
      · show s.controllerAt ≤ _
        omega
  | overwritten sent hattempts hdeadline hqueued hsent hpast hheartbeat hwait hreceive' =>
    refine .overwritten sent hattempts hdeadline hqueued hsent hpast (hheartbeat.trans hlater) ?_ ?_
    · rw [hsketch]
      exact hwait
    · rw [hsketch]
      exact hreceive'
  | second sent w hattempts hdeadline hqueued hsent hlater' hw hpast hheartbeat hcopy =>
    rcases hcopy.of_node hnode hturn hreceive with hcopy' | ⟨htop, hdue⟩
    · exact .second sent w hattempts hdeadline hqueued hsent hlater' hw hpast
        (hheartbeat.trans hlater) hcopy'
    · -- the next heartbeat is a second behind the one that came after the command
      obtain ⟨-, hlate⟩ := hbeats htop hdue
      omega

/-- **A step in time.** -/
theorem OnTime.step (h : OnTime clocks gap s pending heartbeat receive) (hgap : gap ≤ 15)
    {op : TimedLinkOp} (hop : s.InPace gap op) :
    ∃ pending' heartbeat' receive',
      OnTime clocks gap (s.step clocks op).1 pending' heartbeat' receive' := by
  cases op with
  | controller t transfer =>
    obtain ⟨pending', hturn, hholds⟩ :=
      h.consistent.controllerTurn (millisAt clocks.controllerOn t) transfer
    obtain ⟨receive', hnext⟩ := h.of_controllerTurn hgap hop hturn
      (h.consistent.of_controllerTurn hturn hholds)
    exact ⟨pending', heartbeat, receive', hnext⟩
  | node t uptimeMs =>
    obtain ⟨polled, -, hturn⟩ := h.consistent.nodeTurn (millisAt clocks.nodeOn t) uptimeMs
    obtain ⟨heartbeat', hnext⟩ := h.of_nodeTurn hgap hop hturn (h.consistent.of_nodeTurn hturn)
    exact ⟨pending, heartbeat', receive, hnext⟩

/-! ### What the controller prints -/

/-- A decision of the queue that sends at most two copies and gives nothing up. -/
def TxDecision.Prompt (decision : TxDecision) : Prop :=
  decision.action ≠ .exhausted ∧ decision.attempts ≤ 2

/-- Every decision that a step prints is prompt. -/
def WireLinkReply.Prompt : WireLinkReply → Prop
  | .printed events => ∀ decision sent, .transmitDue decision sent ∈ events → decision.Prompt
  | .polled _ => True

theorem WireLinkReply.Prompt.tally_isExhaustion {reply : WireLinkReply} (h : reply.Prompt) :
    WireLink.tally WireLink.isExhaustion reply = 0 := by
  cases reply with
  | printed events =>
    unfold WireLink.tally
    rw [List.countP_eq_zero]
    intro event hevent
    cases event with
    | transmitDue decision sent =>
      have hprompt := (h decision sent hevent).1
      simpa [WireLink.isExhaustion] using hprompt
    | _ => exact Bool.false_ne_true
  | polled frame => rfl

/-- **A step in time prints prompt decisions only.** -/
theorem OnTime.prompt (h : OnTime clocks gap s pending heartbeat receive) (hgap : gap ≤ 15)
    {op : TimedLinkOp} (hop : s.InPace gap op) : (s.step clocks op).2.Prompt := by
  cases op with
  | node t uptimeMs => trivial
  | controller t transfer =>
    obtain ⟨htime, -⟩ := h.timely hop
    have hpace : s.controllerAt ≤ s.nodeAt + gap := htime.controllerAt_le.trans htime.node
    obtain ⟨pending', hturn, -⟩ :=
      h.consistent.controllerTurn (millisAt clocks.controllerOn t) transfer
    show ∀ decision sent,
      _ ∈ (s.link.controllerStep (millisAt clocks.controllerOn t) transfer).2 → _
    generalize (s.link.controllerStep (millisAt clocks.controllerOn t) transfer).1 = link at hturn
    generalize (s.link.controllerStep (millisAt clocks.controllerOn t) transfer).2 = events
      at hturn ⊢
    intro decision sent hprinted
    cases hturn with
    | wait hpoint hnext hdue =>
      obtain ⟨rfl, -⟩ := ControllerEvent.transmitDue.inj (List.mem_singleton.mp hprinted)
      exact ⟨by decide, by decide⟩
    | @send controller loopMs e sent' hpoint hnext hpending hpos hdue hleft =>
      obtain ⟨rfl, -⟩ := ControllerEvent.transmitDue.inj (List.mem_singleton.mp hprinted)
      have hlooping := h.looping
      rw [hpoint] at hlooping
      obtain rfl := hlooping.transmit loopMs rfl
      have hlt := (h.stage e hpending).attempts_lt_of_due hgap h.looping hpace hdue
      refine ⟨TxAction.noConfusion, ?_⟩
      show e.attempts + 1 ≤ 2
      rw [UInt8.lt_iff_toNat_lt] at hlt
      rw [UInt8.le_iff_toNat_le, UInt8.toNat_add]
      exact Nat.le_trans (Nat.mod_le _ _) hlt
    | exhaust hpoint hnext hpending hdue hspent =>
      have hattempts := (h.stage _ hpending).attempts_le
      rw [hspent] at hattempts
      exact absurd hattempts (by decide)
    | setup | queue | idle | skip | ignore | unmatched | resolve => simp at hprinted

end

/-- What holds along a run in which both programs keep pace and the bus loses nothing. -/
theorem onTime_timedLinkAfter {clocks : BoardClocks} {ops : List TimedLinkOp}
    (hops : (timedLink clocks).Along (TimedLink.InPace 15) (timedLink clocks).start ops) :
    ∃ pending heartbeat receive,
      OnTime clocks 15 (timedLinkAfter clocks ops) pending heartbeat receive :=
  (timedLink clocks).along_invariant
    (I := fun s => ∃ pending heartbeat receive, OnTime clocks 15 s pending heartbeat receive)
    (fun _ _ ⟨_, _, _, h⟩ hop => h.step (Nat.le_refl 15) hop)
    ⟨none, _, _, onTime_start clocks 15⟩ hops

/-- Neither program has rested for longer than it may. -/
theorem pace_timedLinkAfter {clocks : BoardClocks} {gap : ℕ} {ops : List TimedLinkOp}
    (hops : (timedLink clocks).Along (TimedLink.InPace gap) (timedLink clocks).start ops) :
    (timedLinkAfter clocks ops).now ≤ (timedLinkAfter clocks ops).nodeAt + gap ∧
      (timedLinkAfter clocks ops).now ≤ (timedLinkAfter clocks ops).controllerAt + gap := by
  refine (timedLink clocks).along_invariant (I := fun s => s.now ≤ s.nodeAt + gap ∧
    s.now ≤ s.controllerAt + gap) (fun s op _ hop => ?_)
    ⟨Nat.zero_le _, Nat.zero_le _⟩ hops
  obtain ⟨-, hnode, hcontroller, -, -⟩ := hop
  cases op with
  | controller t transfer => exact ⟨hnode, Nat.le_add_right t gap⟩
  | node t uptimeMs => exact ⟨Nat.le_add_right t gap, hcontroller⟩

theorem prompt_of_mem_outputs {clocks : BoardClocks} {ops : List TimedLinkOp}
    (hops : (timedLink clocks).Along (TimedLink.InPace 15) (timedLink clocks).start ops) :
    ∀ reply ∈ (timedLink clocks).outputs (timedLink clocks).start ops, reply.Prompt :=
  (timedLink clocks).along_outputs
    (I := fun s => ∃ pending heartbeat receive, OnTime clocks 15 s pending heartbeat receive)
    (fun _ _ ⟨_, _, _, h⟩ hop => h.step (Nat.le_refl 15) hop)
    (fun _ _ ⟨_, _, _, h⟩ hop => h.prompt (Nat.le_refl 15) hop)
    ⟨none, _, _, onTime_start clocks 15⟩ hops

/-- **Every command gets through.**  If both programs make a step at least every 15 ms and the bus
loses nothing, whatever heartbeats overwrite: no command is given up and none is sent a third
time, every command that was queued is pending or accepted, and the one that is pending was queued
at most half a second ago. -/
theorem wire_link_progress (clocks : BoardClocks) (ops : List TimedLinkOp)
    (hops : (timedLink clocks).Along (TimedLink.InPace 15) (timedLink clocks).start ops) :
    (∀ events, .printed events ∈ (timedLink clocks).outputs (timedLink clocks).start ops →
      ∀ decision sent, .transmitDue decision sent ∈ events →
        decision.action ≠ .exhausted ∧ decision.attempts ≤ 2) ∧
    (timedLinkAfter clocks ops).link.sketch.controller.next =
      (timedLinkAfter clocks ops).link.sketch.controller.queue.pendingCount +
        (((timedLink clocks).outputs (timedLink clocks).start ops).map
          (WireLink.tally WireLink.isAcceptance)).sum ∧
    ((timedLinkAfter clocks ops).link.sketch.controller.queue.pendingCount ≠ 0 →
      (timedLinkAfter clocks ops).now ≤ (timedLinkAfter clocks ops).queuedAt + 500) := by
  have hprompt := prompt_of_mem_outputs hops
  obtain ⟨hnode, hcontroller⟩ := pace_timedLinkAfter hops
  obtain ⟨pending, heartbeat, receive, h⟩ := onTime_timedLinkAfter hops
  refine ⟨fun events hevents => hprompt _ hevents, ?_, fun hpending => ?_⟩
  · have hsettled := wireLinkAfter_settled (ops.map (TimedLinkOp.clocked clocks))
    rw [← link_timedLinkAfter] at hsettled
    unfold wireLinkTally at hsettled
    rw [outputs_timedLink] at hsettled
    have hexhausted : (((timedLink clocks).outputs (timedLink clocks).start ops).map
        (WireLink.tally WireLink.isExhaustion)).sum = 0 := by
      apply List.sum_eq_zero
      intro n hn
      obtain ⟨reply, hreply, rfl⟩ := List.mem_map.mp hn
      exact (hprompt reply hreply).tally_isExhaustion
    rw [hexhausted] at hsettled
    exact hsettled
  · rw [ne_eq, h.consistent.holds.pendingCount_eq_zero_iff] at hpending
    obtain ⟨e, he⟩ := Option.ne_none_iff_exists'.mp hpending
    exact (h.stage e he).bound (Nat.le_refl 15) h.looping hnode hcontroller

/-- The controller is switched on 975 ms after the node.  The node takes the first command and
answers it, and its heartbeat overwrites the answer before the controller reads it. -/
def overwrittenRun : List TimedLinkOp :=
  (List.range 66).map (fun k => .node (15 * k) 0) ++
  [.controller 976 {}, .controller 977 {}, .controller 978 {}, .node 979 0, .node 980 0,
    .controller 985 {}, .controller 990 {}, .controller 991 {}, .controller 992 {}, .node 993 0,
    .controller 999 {}, .controller 1000 {}, .node 1000 0, .node 1001 0, .node 1002 0]

/-- Then both programs make a step every 15 ms. -/
def secondCopyRun : List TimedLinkOp :=
  overwrittenRun ++ .controller 1003 {} ::
    (List.range 21).flatMap fun k =>
      [.node (1010 + 15 * k) 0, .controller (1010 + 15 * k) {}]

/-- The overwritten answer leaves the command pending.  It is sent a second time, and the second
answer settles it. -/
theorem wire_link_progress_example :
    (timedLinkAfter ⟨975, 0⟩ overwrittenRun).link.history.received = [0] ∧
    (timedLinkAfter ⟨975, 0⟩ overwrittenRun).link.history.answered = none ∧
    (timedLinkAfter ⟨975, 0⟩ overwrittenRun).link.sketch.controller.queue.pendingCount = 1 ∧
    (timedLinkAfter ⟨975, 0⟩ secondCopyRun).link.history.copies = [0, 0] ∧
    (((timedLink ⟨975, 0⟩).outputs (timedLink ⟨975, 0⟩).start secondCopyRun).map
      (WireLink.tally WireLink.isAcceptance)).sum = 1 := by
  refine ⟨by decide +kernel, by decide +kernel, by decide +kernel, by decide +kernel, ?_⟩
  obtain ⟨-, hnext, -⟩ := wire_link_progress ⟨975, 0⟩ secondCopyRun (by decide +kernel)
  refine Nat.add_left_cancel (hnext.symm.trans ?_)
  decide +kernel

end PicoMesh
