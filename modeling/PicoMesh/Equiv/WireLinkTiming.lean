import PicoMesh.Equiv.WireLink
import PicoMesh.Library.SerialNumber

/-!
# The reliable command sketch and the node in real time

`timedLink` is the link with the true times of its steps.  Each board has a clock
of its own, which counts from when it was switched on, modulo 2^32.  What a
published acknowledgement is about grows old only as fast as the controller
queues commands, one in five seconds, and the next heartbeat overwrites it.  So
if the node's program never rests for more than three minutes, what is published
acknowledges one of the last 256 commands (`Fresh`), and every acceptance is
right (`wire_link_accepts`).
-/

namespace PicoMesh

open SerialNumber

/-! ### The link with its true times -/

/-- When the two boards were switched on. -/
structure BoardClocks where
  controllerOn : ℕ
  nodeOn : ℕ

/-- What `millis()` says at the time `t` on a board that was switched on at the time `on`: how long
ago that was, modulo 2^32. -/
def millisAt (on t : ℕ) : UInt32 := UInt32.ofNat t - UInt32.ofNat on

theorem millisAt_self (on : ℕ) : millisAt on on = 0 := UInt32.sub_self _

/-- Two readings of one clock are as far apart as the times are. -/
theorem millisAt_sub (on t s : ℕ) :
    millisAt on t - millisAt on s = UInt32.ofNat t - UInt32.ofNat s := by
  unfold millisAt
  grind

/-- The link, and when its steps were made. -/
structure TimedLink where
  link : WireLink := {}
  /-- The time of the last step. -/
  now : ℕ := 0
  /-- The time of the controller's last step, or when it was switched on. -/
  controllerAt : ℕ
  /-- The time of the node's last step, or when it was switched on. -/
  nodeAt : ℕ
  /-- The time at which the last command was queued. -/
  queuedAt : ℕ := 0

/-- A step at a true time. -/
inductive TimedLinkOp where
  | controller (t : ℕ) (transfer : BusTransfer)
  | node (t : ℕ) (uptimeMs : UInt32)
  deriving DecidableEq, Repr

/-- When a step is made. -/
def TimedLinkOp.time : TimedLinkOp → ℕ
  | .controller t _ => t
  | .node t _ => t

/-- The step as the programs see it. -/
def TimedLinkOp.clocked (clocks : BoardClocks) : TimedLinkOp → WireLinkOp
  | .controller t transfer => .controller (millisAt clocks.controllerOn t) transfer
  | .node t uptimeMs => .node (millisAt clocks.nodeOn t) uptimeMs

/-- One step at its time. -/
def TimedLink.step (clocks : BoardClocks) (s : TimedLink) (op : TimedLinkOp) :
    TimedLink × WireLinkReply :=
  let result := s.link.step (op.clocked clocks)
  let queued := result.1.sketch.controller.next ≠ s.link.sketch.controller.next
  let s' : TimedLink :=
    { s with
      link := result.1
      now := op.time
      queuedAt := if queued then op.time else s.queuedAt }
  match op with
  | .controller t _ => ({ s' with controllerAt := t }, result.2)
  | .node t _ => ({ s' with nodeAt := t }, result.2)

/-- The link with its true times. -/
def timedLink (clocks : BoardClocks) : Mealy TimedLink TimedLinkOp WireLinkReply where
  start := { controllerAt := clocks.controllerOn, nodeAt := clocks.nodeOn }
  step := TimedLink.step clocks

/-- The link after a run of timed steps. -/
def timedLinkAfter (clocks : BoardClocks) (ops : List TimedLinkOp) : TimedLink :=
  (timedLink clocks).run (timedLink clocks).start ops

/-- The true times change nothing of what the programs do. -/
theorem timedLink_simulation (clocks : BoardClocks) :
    Mealy.Simulation (timedLink clocks) wireLink (TimedLinkOp.clocked clocks) (fun _ _ => True)
      fun s link => s.link = link where
  answer := by
    rintro s link (_ | _) rfl - <;> rfl
  next := by
    rintro s link (_ | _) rfl - <;> rfl

theorem link_timedLinkAfter (clocks : BoardClocks) (ops : List TimedLinkOp) :
    (timedLinkAfter clocks ops).link = wireLinkAfter (ops.map (TimedLinkOp.clocked clocks)) := by
  apply (timedLink_simulation clocks).run rfl
  exact (timedLink clocks).along_of_forall fun _ _ => trivial

theorem outputs_timedLink (clocks : BoardClocks) (ops : List TimedLinkOp) :
    wireLink.outputs wireLink.start (ops.map (TimedLinkOp.clocked clocks)) =
      (timedLink clocks).outputs (timedLink clocks).start ops := by
  have hstart : (timedLink clocks).start.link = wireLink.start := rfl
  apply (timedLink_simulation clocks).outputs hstart
  exact (timedLink clocks).along_of_forall fun _ _ => trivial

/-- What a step can be: the board is on, and the bus finds no node before the node's program has
begun. -/
def TimedLink.Possible (s : TimedLink) : TimedLinkOp → Prop
  | .controller t transfer =>
    s.controllerAt ≤ t ∧ (s.link.node.point = .setup → transfer.addressed = false)
  | .node t _ => s.nodeAt ≤ t

/-- Time does not run back, and the node's program makes a step at least every `gap` ms from when
its board was switched on. -/
def TimedLink.NodeInPace (gap : ℕ) (s : TimedLink) (op : TimedLinkOp) : Prop :=
  s.now ≤ op.time ∧ op.time ≤ s.nodeAt + gap ∧ s.Possible op

instance (s : TimedLink) : DecidablePred s.Possible
  | .controller _ _ => inferInstanceAs (Decidable (_ ∧ _))
  | .node _ _ => inferInstanceAs (Decidable (_ ≤ _))

instance (gap : ℕ) (s : TimedLink) (op : TimedLinkOp) : Decidable (s.NodeInPace gap op) :=
  inferInstanceAs (Decidable (_ ∧ _ ∧ _))

/-! ### How old a message can be -/

/-- How many steps the node's program is behind its last look at the heartbeat timer. -/
def NodePoint.sinceTop : NodePoint → ℕ
  | .setup => 0
  | .top => 2
  | .poll => 0
  | .answer _ => 1

/-- How many steps it is before the end of its next poll. -/
def NodePoint.untilPoll : NodePoint → ℕ
  | .setup => 3
  | .top => 2
  | .poll => 1
  | .answer _ => 3

theorem NodePoint.untilPoll_le (point : NodePoint) : point.untilPoll ≤ 3 := by
  unfold untilPoll
  split <;> omega

theorem NodePoint.sinceTop_le (point : NodePoint) : point.sinceTop ≤ 2 := by
  unfold sinceTop
  split <;> omega

/-- The command with this number was the last one at the time `w`, and since then one was queued
and another one for every five seconds up to the time `command`. -/
def Behind (next command number w : ℕ) : Prop :=
  next ≤ number + 1 ∨ 5000 * (next - number - 2) + w ≤ command

theorem Behind.queue {next command number w t : ℕ} (h : Behind next command number w)
    (hw : w ≤ t) (ht : command + 5000 ≤ t) : Behind (next + 1) t number w := by
  unfold Behind at h ⊢
  omega

/-- **No message is old**, for the true times of the last heartbeat and the last command. -/
structure Fresh (clocks : BoardClocks) (gap : ℕ) (s : TimedLink) (heartbeat command : ℕ) :
    Prop where
  consistent : ∃ pending, s.link.Consistent pending
  setup : s.link.sketch.point = .setup → s.link.sketch.controller.next = 0
  controllerAt_le : s.link.sketch.point ≠ .setup → s.controllerAt ≤ s.now
  nodeAt_le : s.link.node.point ≠ .setup → s.nodeAt ≤ s.now
  now_le : s.now ≤ s.nodeAt + gap
  heartbeatMs : s.link.node.lastHeartbeatMs = millisAt clocks.nodeOn heartbeat
  heartbeat_le : heartbeat ≤ s.nodeAt
  beating : s.nodeAt ≤ heartbeat + 1000 + s.link.node.point.sinceTop * gap
  commandMs : s.link.sketch.lastCommandMs = millisAt clocks.controllerOn command
  command_le : command ≤ s.controllerAt
  written : ∀ n ∈ s.link.history.written, ∃ w ≤ s.now,
    s.nodeAt + s.link.node.point.untilPoll * gap ≤ w + 3 * gap ∧
    Behind s.link.sketch.controller.next command n w
  taken : ∀ incoming, s.link.node.point = .answer incoming → ∀ n ∈ s.link.history.taken,
    ∃ w ≤ s.now, s.nodeAt ≤ w + 3 * gap ∧ Behind s.link.sketch.controller.next command n w
  answered : ∀ n ∈ s.link.history.answered, ∃ w ≤ s.now, heartbeat ≤ w + 4 * gap ∧
    Behind s.link.sketch.controller.next command n w

theorem fresh_start (clocks : BoardClocks) (gap : ℕ) :
    Fresh clocks gap (timedLink clocks).start clocks.nodeOn clocks.controllerOn where
  consistent := ⟨none, WireLink.consistent_start⟩
  setup := fun _ => rfl
  controllerAt_le := fun hbegun => absurd rfl hbegun
  nodeAt_le := fun hbegun => absurd rfl hbegun
  now_le := Nat.zero_le _
  heartbeatMs := (millisAt_self _).symm
  heartbeat_le := Nat.le_refl _
  beating := by
    show clocks.nodeOn ≤ clocks.nodeOn + 1000 + _
    omega
  commandMs := (millisAt_self _).symm
  command_le := Nat.le_refl _
  written := fun _ hn => nomatch hn
  taken := fun _ hpoint => nomatch hpoint
  answered := fun _ hn => nomatch hn

section

variable {clocks : BoardClocks} {gap heartbeat command t : ℕ} {s : TimedLink}

/-- **What is published is of one of the last commands.** -/
theorem Fresh.window (h : Fresh clocks gap s heartbeat command) (hgap : gap ≤ 180000) {number : ℕ}
    (hanswered : number ∈ s.link.history.answered) :
    s.link.sketch.controller.next ≤ number + 256 := by
  obtain ⟨w, hw, hheartbeat, hbehind⟩ := h.answered number hanswered
  by_cases hsetup : s.link.sketch.point = .setup
  · rw [h.setup hsetup]
    exact Nat.zero_le _
  · have hnow := h.now_le
    have hbeating := h.beating
    have hcommand := h.command_le.trans (h.controllerAt_le hsetup)
    have hmul := Nat.mul_le_mul_right gap s.link.node.point.sinceTop_le
    rcases hbehind with hnext | hbehind <;> omega

/-! ### The controller's steps -/

variable {queuedAt : ℕ}

/-- A later time leaves an age as it is. -/
theorem exists_le_mono {P : ℕ → Prop} {now now' : ℕ} (h : ∃ w ≤ now, P w) (hnow : now ≤ now') :
    ∃ w ≤ now', P w := by
  obtain ⟨w, hw, hP⟩ := h
  exact ⟨w, hw.trans hnow, hP⟩

/-- A step of the controller that neither queues nor writes. -/
theorem Fresh.of_sketch (h : Fresh clocks gap s heartbeat command) (hon : s.controllerAt ≤ t)
    (hnow : s.now ≤ t) (hpace : t ≤ s.nodeAt + gap) {sketch : CommandSketch}
    (hconsistent : ∃ pending, WireLink.Consistent { s.link with sketch } pending)
    (hpoint : sketch.point ≠ .setup)
    (hnext : sketch.controller.next = s.link.sketch.controller.next)
    (hcommand : sketch.lastCommandMs = s.link.sketch.lastCommandMs) :
    Fresh clocks gap
      { link := { s.link with sketch }, now := t, controllerAt := t, nodeAt := s.nodeAt, queuedAt }
      heartbeat command where
  consistent := hconsistent
  setup := fun hsetup => absurd hsetup hpoint
  controllerAt_le := fun _ => Nat.le_refl t
  nodeAt_le := fun hbegun => (h.nodeAt_le hbegun).trans hnow
  now_le := hpace
  heartbeatMs := h.heartbeatMs
  heartbeat_le := h.heartbeat_le
  beating := h.beating
  commandMs := hcommand.trans h.commandMs
  command_le := h.command_le.trans hon
  written := fun n hn => by
    rw [hnext]
    exact exists_le_mono (h.written n hn) hnow
  taken := fun incoming hpoint n hn => by
    rw [hnext]
    exact exists_le_mono (h.taken incoming hpoint n hn) hnow
  answered := fun n hn => by
    rw [hnext]
    exact exists_le_mono (h.answered n hn) hnow

/-- `loop` queues a command: all others fall behind by one. -/
theorem Fresh.of_queued (h : Fresh clocks gap s heartbeat command) (hon : s.controllerAt ≤ t)
    (hnow : s.now ≤ t) (hpace : t ≤ s.nodeAt + gap) {sketch : CommandSketch}
    (hconsistent : ∃ pending, WireLink.Consistent { s.link with sketch } pending)
    (hpoint : sketch.point ≠ .setup)
    (hnext : sketch.controller.next = s.link.sketch.controller.next + 1)
    (hdue : millisAt clocks.controllerOn t - s.link.sketch.lastCommandMs ≥ kCommandIntervalMs)
    (hcommand : sketch.lastCommandMs = millisAt clocks.controllerOn t) :
    Fresh clocks gap
      { link := { s.link with sketch }, now := t, controllerAt := t, nodeAt := s.nodeAt, queuedAt }
      heartbeat t := by
  rw [h.commandMs, millisAt_sub] at hdue
  have hinterval : command + 5000 ≤ t :=
    add_le_of_le_uint32_sub (h.command_le.trans hon) hdue
  have hqueue : ∀ {n : ℕ} {P : ℕ → Prop},
      (∃ w ≤ s.now, P w ∧ Behind s.link.sketch.controller.next command n w) →
      ∃ w ≤ t, P w ∧ Behind sketch.controller.next t n w := by
    rintro n P ⟨w, hw, hP, hbehind⟩
    rw [hnext]
    exact ⟨w, hw.trans hnow, hP, hbehind.queue (hw.trans hnow) hinterval⟩
  exact
    { consistent := hconsistent
      setup := fun hsetup => absurd hsetup hpoint
      controllerAt_le := fun _ => Nat.le_refl t
      nodeAt_le := fun hbegun => (h.nodeAt_le hbegun).trans hnow
      now_le := hpace
      heartbeatMs := h.heartbeatMs
      heartbeat_le := h.heartbeat_le
      beating := h.beating
      commandMs := hcommand
      command_le := Nat.le_refl t
      written := fun n hn => hqueue (h.written n hn)
      taken := fun incoming hpoint n hn => hqueue (h.taken incoming hpoint n hn)
      answered := fun n hn => hqueue (h.answered n hn) }

/-- `setup` queues the first command: there is no message yet. -/
theorem Fresh.of_setup (h : Fresh clocks gap s heartbeat command) (hon : s.controllerAt ≤ t)
    (hnow : s.now ≤ t) (hpace : t ≤ s.nodeAt + gap) (hsetup : s.link.sketch.point = .setup)
    {sketch : CommandSketch}
    (hconsistent : ∃ pending, WireLink.Consistent { s.link with sketch } pending)
    (hpoint : sketch.point ≠ .setup)
    (hcommand : sketch.lastCommandMs = s.link.sketch.lastCommandMs) :
    Fresh clocks gap
      { link := { s.link with sketch }, now := t, controllerAt := t, nodeAt := s.nodeAt, queuedAt }
      heartbeat command := by
  obtain ⟨pending, hstart⟩ := h.consistent
  have hnone : ∀ n, n ∉ s.link.history.copies := fun n hn => by
    have hlt := hstart.copies n hn
    rw [h.setup hsetup] at hlt
    exact Nat.not_lt_zero n hlt
  have hunreceived : ∀ n, n ∉ s.link.history.received := fun n hn => by
    have hlt := hstart.lt_next hn
    rw [h.setup hsetup] at hlt
    exact Nat.not_lt_zero n hlt
  exact
    { consistent := hconsistent
      setup := fun hsetup => absurd hsetup hpoint
      controllerAt_le := fun _ => Nat.le_refl t
      nodeAt_le := fun hbegun => (h.nodeAt_le hbegun).trans hnow
      now_le := hpace
      heartbeatMs := h.heartbeatMs
      heartbeat_le := h.heartbeat_le
      beating := h.beating
      commandMs := hcommand.trans h.commandMs
      command_le := h.command_le.trans hon
      written := fun n hn => by
        have hcounted := hstart.counted n
        rw [List.count_eq_zero_of_not_mem (hnone n), show s.link.history.written = some n from hn,
          Option.toList_some, List.count_singleton_self] at hcounted
        omega
      taken := fun incoming hincoming n hn => by
        obtain ⟨number, htaken, hreceived, -⟩ := hstart.taken incoming hincoming
        exact absurd hreceived (hunreceived number)
      answered := fun n hn => by
        cases hstart.published with
        | nothing hanswered hbytes => exact nomatch hanswered.symm.trans hn
        | other hanswered f hbytes htype => exact nomatch hanswered.symm.trans hn
        | answer number hanswered hreceived hcarries =>
          exact absurd hreceived (hunreceived number) }

/-- A copy of the last command goes over the bus. -/
theorem Fresh.of_sent (h : Fresh clocks gap s heartbeat command) (hon : s.controllerAt ≤ t)
    (hnow : s.now ≤ t) (hpace : t ≤ s.nodeAt + gap) {sketch : CommandSketch}
    {transfer : BusTransfer}
    (hbegun : s.link.node.point = .setup → transfer.addressed = false)
    {endpoint : WirePeripheralEndpoint} {number : ℕ}
    (hconsistent : ∃ pending, WireLink.Consistent
      { sketch
        node := { s.link.node with endpoint }
        history := s.link.history.write number transfer } pending)
    (hpoint : sketch.point ≠ .setup)
    (hnext : sketch.controller.next = s.link.sketch.controller.next)
    (hlast : s.link.sketch.controller.next = number + 1)
    (hcommand : sketch.lastCommandMs = s.link.sketch.lastCommandMs) :
    Fresh clocks gap
      { link :=
          { sketch
            node := { s.link.node with endpoint }
            history := s.link.history.write number transfer }
        now := t, controllerAt := t, nodeAt := s.nodeAt, queuedAt }
      heartbeat command where
  consistent := hconsistent
  setup := fun hsetup => absurd hsetup hpoint
  controllerAt_le := fun _ => Nat.le_refl t
  nodeAt_le := fun hbegun => (h.nodeAt_le hbegun).trans hnow
  now_le := hpace
  heartbeatMs := h.heartbeatMs
  heartbeat_le := h.heartbeat_le
  beating := h.beating
  commandMs := hcommand.trans h.commandMs
  command_le := h.command_le.trans hon
  written := fun n hn => by
    have hn' : (if transfer.addressed then some number else s.link.history.written) = some n := hn
    rw [hnext]
    split_ifs at hn' with haddressed
    · obtain rfl := Option.some.inj hn'
      have hnode := h.nodeAt_le fun hsetup => nomatch haddressed.symm.trans (hbegun hsetup)
      have hpoll := Nat.mul_le_mul_right gap s.link.node.point.untilPoll_le
      refine ⟨t, Nat.le_refl t, Nat.add_le_add (hnode.trans hnow) hpoll, Or.inl ?_⟩
      exact Nat.le_of_eq hlast
    · exact exists_le_mono (h.written n hn') hnow
  taken := fun incoming hpoint n hn => by
    rw [hnext]
    exact exists_le_mono (h.taken incoming hpoint n hn) hnow
  answered := fun n hn => by
    rw [hnext]
    exact exists_le_mono (h.answered n hn) hnow

/-- **The controller's steps keep messages fresh.** -/
theorem Fresh.of_controllerTurn (h : Fresh clocks gap s heartbeat command)
    (hon : s.controllerAt ≤ t) (hnow : s.now ≤ t) (hpace : t ≤ s.nodeAt + gap)
    {pending pending' : Option (PendingEntry UInt32)} {link : WireLink}
    {transfer : BusTransfer} {events : List ControllerEvent}
    (hbegun : s.link.node.point = .setup → transfer.addressed = false)
    (hturn : WireLink.ControllerTurn s.link pending (millisAt clocks.controllerOn t) transfer link
      pending' events)
    (hconsistent : ∃ pending, link.Consistent pending) :
    ∃ command', Fresh clocks gap
      { link, now := t, controllerAt := t, nodeAt := s.nodeAt, queuedAt } heartbeat command' := by
  cases hturn with
  | setup hpoint hnone hnext =>
    exact ⟨command, h.of_setup hon hnow hpace hpoint hconsistent (by simp) rfl⟩
  | queue hpoint hnone hdue hnext =>
    exact ⟨t, h.of_queued hon hnow hpace hconsistent (by simp) hnext hdue rfl⟩
  | send hpoint hnext hpending hpos hdue hleft =>
    exact ⟨command, h.of_sent hon hnow hpace hbegun hconsistent (by simp) hnext (by omega) rfl⟩
  | wait hpoint hnext | exhaust hpoint hnext | unmatched hpoint hdue hnext
  | resolve hpoint hdue hnext =>
    exact ⟨command, h.of_sketch hon hnow hpace hconsistent (by simp) hnext rfl⟩
  | idle | skip | ignore =>
    exact ⟨command, h.of_sketch hon hnow hpace hconsistent (by simp) rfl rfl⟩

/-! ### The node's steps -/

/-- A step of the node: what is unread comes closer to the next poll. -/
theorem Fresh.of_node (h : Fresh clocks gap s heartbeat command) (hnow : s.now ≤ t)
    (hpace : t ≤ s.nodeAt + gap) {link : WireLink}
    (hconsistent : ∃ pending, link.Consistent pending) (hsketch : link.sketch = s.link.sketch)
    (p : NodePoint) (hp : link.node.point = p)
    {heartbeat' : ℕ} (hms : link.node.lastHeartbeatMs = millisAt clocks.nodeOn heartbeat')
    (hle : heartbeat' ≤ t) (hbeating : t ≤ heartbeat' + 1000 + p.sinceTop * gap)
    (hwritten : link.history.written = none ∨
      link.history.written = s.link.history.written ∧
        s.link.node.point.untilPoll = p.untilPoll + 1)
    (htaken : ∀ incoming, p = .answer incoming → ∀ n ∈ link.history.taken,
      ∃ w ≤ s.now, t ≤ w + 3 * gap ∧ Behind s.link.sketch.controller.next command n w)
    (hanswered : ∀ n ∈ link.history.answered, ∃ w ≤ s.now, heartbeat' ≤ w + 4 * gap ∧
      Behind s.link.sketch.controller.next command n w) :
    Fresh clocks gap { link, now := t, nodeAt := t, controllerAt := s.controllerAt, queuedAt }
      heartbeat' command where
  consistent := hconsistent
  setup := by
    rw [hsketch]
    exact h.setup
  controllerAt_le := by
    rw [hsketch]
    exact fun hbegun => (h.controllerAt_le hbegun).trans hnow
  nodeAt_le := fun _ => Nat.le_refl t
  now_le := Nat.le_add_right t gap
  heartbeatMs := hms
  heartbeat_le := hle
  beating := hp ▸ hbeating
  commandMs := by
    rw [hsketch]
    exact h.commandMs
  command_le := h.command_le
  written := fun n hn => by
    rcases hwritten with hnone | ⟨hsame, hcloser⟩
    · exact nomatch hnone.symm.trans hn
    · obtain ⟨w, hw, hage, hbehind⟩ := h.written n (hsame ▸ hn)
      rw [hsketch]
      refine ⟨w, hw.trans hnow, ?_, hbehind⟩
      rw [hcloser, Nat.add_mul] at hage
      show t + link.node.point.untilPoll * gap ≤ w + 3 * gap
      rw [hp]
      omega
  taken := fun incoming hincoming n hn => by
    rw [hsketch]
    exact exists_le_mono (htaken incoming (hp.symm.trans hincoming) n hn) hnow
  answered := fun n hn => by
    rw [hsketch]
    exact exists_le_mono (hanswered n hn) hnow

/-- Away from the top of `loop` the heartbeat was looked at so many steps ago. -/
theorem Fresh.still_beating (h : Fresh clocks gap s heartbeat command) (hpace : t ≤ s.nodeAt + gap)
    {point : NodePoint} (hpoint : s.link.node.point.sinceTop + 1 ≤ point.sinceTop) :
    t ≤ heartbeat + 1000 + point.sinceTop * gap := by
  have hbeating := h.beating
  have hmul := Nat.mul_le_mul_right gap hpoint
  rw [Nat.add_mul] at hmul
  omega

/-- The timer does not miss a heartbeat that is due: the last one was less than a turn of the
clock ago. -/
theorem Fresh.early (h : Fresh clocks gap s heartbeat command) (hgap : gap ≤ 180000)
    (hon : s.nodeAt ≤ t) (hpace : t ≤ s.nodeAt + gap)
    (hdue : ¬millisAt clocks.nodeOn t - s.link.node.lastHeartbeatMs ≥ kHeartbeatIntervalMs) :
    t < heartbeat + 1000 := by
  have hmul := Nat.mul_le_mul_right gap s.link.node.point.sinceTop_le
  have hbeating := h.beating
  have hle := h.heartbeat_le.trans hon
  by_contra hlate
  rw [h.heartbeatMs, millisAt_sub] at hdue
  exact hdue ((le_uint32_sub_iff hle (by omega)).mpr (Nat.not_lt.mp hlate))

/-- **The node's steps keep messages fresh.** -/
theorem Fresh.of_nodeTurn (h : Fresh clocks gap s heartbeat command) (hgap : gap ≤ 180000)
    (hon : s.nodeAt ≤ t) (hnow : s.now ≤ t) (hpace : t ≤ s.nodeAt + gap) {link : WireLink}
    {uptimeMs : UInt32} {polled : Option Frame}
    (hturn : WireLink.NodeTurn s.link (millisAt clocks.nodeOn t) uptimeMs link polled)
    (hconsistent : ∃ pending, link.Consistent pending) :
    ∃ heartbeat', Fresh clocks gap
      { link, now := t, nodeAt := t, controllerAt := s.controllerAt, queuedAt } heartbeat'
      command := by
  have hle := h.heartbeat_le.trans hon
  cases hturn with
  | setup hpoint hpublish htype =>
    refine ⟨heartbeat, h.of_node hnow hpace hconsistent rfl .top rfl
      h.heartbeatMs hle
      (h.still_beating hpace ?_) (Or.inr ⟨rfl, ?_⟩) (fun _ hincoming => nomatch hincoming)
      (fun _ hn => nomatch hn)⟩
    · rw [hpoint]
      decide
    · rw [hpoint]
      rfl
  | heartbeat hpoint hdue hpublish htype =>
    refine ⟨t, h.of_node hnow hpace hconsistent rfl .poll rfl rfl
      (Nat.le_refl t) ?_ (Or.inr ⟨rfl, ?_⟩) (fun _ hincoming => nomatch hincoming)
      (fun _ hn => nomatch hn)⟩
    · omega
    · rw [hpoint]
      rfl
  | quiet hpoint hdue =>
    have hearly := h.early hgap hon hpace hdue
    refine ⟨heartbeat, h.of_node hnow hpace hconsistent rfl .poll rfl h.heartbeatMs hle ?_
      (Or.inr ⟨rfl, ?_⟩) (fun _ hincoming => nomatch hincoming) h.answered⟩
    · omega
    · rw [hpoint]
      rfl
  | empty hpoint hmessage hrequest hnone =>
    refine ⟨heartbeat, h.of_node hnow hpace hconsistent rfl .top rfl h.heartbeatMs hle
      (h.still_beating hpace ?_) (Or.inl rfl) (fun _ hincoming => nomatch hincoming) h.answered⟩
    rw [hpoint]
    decide
  | @take endpoint number hpoint hmessage hrequest hwritten =>
    refine ⟨heartbeat, h.of_node hnow hpace hconsistent rfl
      (.answer (WireLink.command number).normalise) rfl h.heartbeatMs hle
      (h.still_beating hpace ?_) (Or.inl rfl) ?_ h.answered⟩
    · rw [hpoint]
      exact Nat.le_refl 1
    · -- the poll is the last of the steps that the command had to wait for
      intro incoming _ n hn
      obtain rfl := Option.some.inj hn
      obtain ⟨w, hw, hage, hbehind⟩ := h.written number hwritten
      rw [hpoint, show NodePoint.untilPoll .poll = 1 from rfl] at hage
      exact ⟨w, hw, by omega, hbehind⟩
  | answer hpoint htaken hreceived hpublish =>
    refine ⟨heartbeat, h.of_node hnow hpace hconsistent rfl .top rfl
      h.heartbeatMs hle
      (h.still_beating hpace ?_) (Or.inr ⟨rfl, ?_⟩) (fun _ hincoming => nomatch hincoming) ?_⟩
    · rw [hpoint]
      exact Nat.le_refl 2
    · rw [hpoint]
      rfl
    · intro n hn
      obtain ⟨w, hw, hage, hbehind⟩ := h.taken _ hpoint n hn
      have hheartbeat := h.heartbeat_le
      exact ⟨w, hw, by omega, hbehind⟩

/-- **A step in pace keeps messages fresh.** -/
theorem Fresh.step (h : Fresh clocks gap s heartbeat command) (hgap : gap ≤ 180000)
    {op : TimedLinkOp} (hop : s.NodeInPace gap op) :
    ∃ heartbeat' command', Fresh clocks gap (s.step clocks op).1 heartbeat' command' := by
  obtain ⟨pending, hconsistent⟩ := h.consistent
  cases op with
  | controller t transfer =>
    obtain ⟨hnow, hpace, hon, hbegun⟩ := hop
    obtain ⟨pending', hturn, hholds⟩ :=
      hconsistent.controllerTurn (millisAt clocks.controllerOn t) transfer
    have hconsistent' := hconsistent.of_controllerTurn hturn hholds
    obtain ⟨command', hfresh⟩ :=
      h.of_controllerTurn hon hnow hpace hbegun hturn ⟨pending', hconsistent'⟩
    exact ⟨heartbeat, command', hfresh⟩
  | node t uptimeMs =>
    obtain ⟨hnow, hpace, hon⟩ := hop
    obtain ⟨polled, -, hturn⟩ := hconsistent.nodeTurn (millisAt clocks.nodeOn t) uptimeMs
    have hconsistent' := hconsistent.of_nodeTurn hturn
    obtain ⟨heartbeat', hfresh⟩ := h.of_nodeTurn hgap hon hnow hpace hturn ⟨pending, hconsistent'⟩
    exact ⟨heartbeat', command, hfresh⟩

end

/-- **Every acceptance is right.**  Whenever the two boards were switched on, if the node's program
never rests for more than three minutes from then on, an acknowledgement that resolves a command as
accepted resolves the command queued last, which the node's program has received, whatever the bus
does. -/
theorem wire_link_accepts (clocks : BoardClocks) (ops : List TimedLinkOp)
    (hops : (timedLink clocks).Along (TimedLink.NodeInPace 180000) (timedLink clocks).start ops)
    (nowMs : UInt32) (transfer : BusTransfer) (sequence : UInt8) (status : AckStatus)
    (haccepted : .receiveAcknowledgement sequence status .accepted ∈
      ((timedLinkAfter clocks ops).link.controllerStep nowMs transfer).2) :
    (timedLinkAfter clocks ops).link.sketch.controller.queue.pendingCount ≠ 0 ∧
    ∃ number ∈ (timedLinkAfter clocks ops).link.history.received,
      (timedLinkAfter clocks ops).link.sketch.controller.next = number + 1 ∧
      sequence = UInt8.ofNat number := by
  obtain ⟨heartbeat, command, hfresh⟩ := (timedLink clocks).along_invariant
    (I := fun s => ∃ heartbeat command, Fresh clocks 180000 s heartbeat command)
    (fun s op ⟨heartbeat, command, h⟩ hop => h.step (Nat.le_refl _) hop)
    ⟨_, _, fresh_start clocks 180000⟩ hops
  change Fresh clocks 180000 (timedLinkAfter clocks ops) heartbeat command at hfresh
  obtain ⟨pending, h⟩ := hfresh.consistent
  obtain ⟨pending', hturn, -⟩ := h.controllerTurn nowMs transfer
  generalize ((timedLinkAfter clocks ops).link.controllerStep nowMs transfer).1 = s' at hturn
  generalize ((timedLinkAfter clocks ops).link.controllerStep nowMs transfer).2 = events
    at hturn haccepted
  cases hturn with
  | @resolve controller loopMs number e hpoint hdue hnext hanswered hreceived hpending hbyte =>
    obtain ⟨rfl, rfl, -⟩ :=
      ControllerEvent.receiveAcknowledgement.inj (List.mem_singleton.mp haccepted)
    refine ⟨?_, number, hreceived, ?_, rfl⟩
    · rw [ne_eq, h.holds.pendingCount_eq_zero_iff, hpending]
      exact Option.some_ne_none e
    · exact h.next_of_byte hreceived (hfresh.window (Nat.le_refl _) hanswered) hbyte
  | setup | queue | idle | wait | send | exhaust | skip | ignore | unmatched =>
    simp at haccepted

/-- A controller that is switched on five seconds after the node: its first command is answered. -/
theorem wire_link_accepts_example :
    ∃ number ∈ (timedLinkAfter { controllerOn := 5000, nodeOn := 0 }
      [.node 1 0, .controller 5001 {}, .controller 5002 {}, .controller 5002 {}, .node 5003 5003,
        .node 5003 5003, .node 5003 5003, .controller 5003 {}, .controller 5030 {},
        .controller 5030 {}]).link.history.received, (0 : UInt8) = UInt8.ofNat number := by
  obtain ⟨-, number, hreceived, -, hsequence⟩ := wire_link_accepts
    { controllerOn := 5000, nodeOn := 0 }
    [.node 1 0, .controller 5001 {}, .controller 5002 {}, .controller 5002 {}, .node 5003 5003,
      .node 5003 5003, .node 5003 5003, .controller 5003 {}, .controller 5030 {},
      .controller 5030 {}]
    (by decide +kernel) 30 {} 0 .accepted (by decide +kernel)
  exact ⟨number, hreceived, hsequence⟩

end PicoMesh
