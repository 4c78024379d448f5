import PicoMesh.Equiv.LogClassification
import PicoMesh.Equiv.LogRecovery
import PicoMesh.Equiv.WireLink
import PicoMesh.HeartbeatLink

/-!
# The log of the heartbeat controller counts the node's heartbeats

The node numbers its heartbeats modulo 256 and the controller's log shows those
bytes.  `NodeSummary.Counted` is what the summariser makes of numbers that run
forward by less than 128 at a time: it counts the different ones, and its last
value, with 256 for each wraparound, has run as far as the numbers have.

The node publishes at most one heartbeat a second (`Rate`), so the numbers of two
reads are as many apart as there are seconds between the reads, or one more
(`HeartbeatLink.Consistent`).  `heartbeat_log` takes the two together.
-/

namespace PicoMesh

open SerialNumber

/-! ### Numbers that run forward -/

/-- Frames of one type with some numbers, as the summariser observes them. -/
def numberedFrames (messageType : ℤ) (numbers : List ℕ) : List (ℤ × ℤ) :=
  numbers.map fun number => (((number % 256 : ℕ) : ℤ), messageType)

/-- What a summary holds after frames with some numbers, of which the last is the
greatest. -/
structure NodeSummary.Counted (node : NodeSummary) (first last : ℕ) (numbers : List ℕ) : Prop where
  frames : node.frames = numbers.length
  staleOrBackward : node.staleOrBackward = 0
  duplicates : node.duplicates + numbers.toFinset.card = numbers.length
  forwardSteps : node.forwardSteps + 1 = numbers.toFinset.card
  firstSequence : node.firstSequence = some ((first % 256 : ℕ) : ℤ)
  lastSequence : node.lastSequence = some ((last % 256 : ℕ) : ℤ)
  first_le : first ≤ last
  unwrapped : last % 256 + 256 * node.wraparounds = first % 256 + (last - first)
  mem_last : last ∈ numbers
  le_last : ∀ number ∈ numbers, number ≤ last

namespace NodeSummary

variable {node : NodeSummary} {first last : ℕ} {numbers : List ℕ}

/-- **The next frame**, less than 128 ahead of the last one. -/
theorem Counted.observe (h : node.Counted first last numbers) {next : ℕ} (hle : last ≤ next)
    (hlt : next < last + 128) (messageType : ℤ) :
    (node.observe ((next % 256 : ℕ) : ℤ) messageType).Counted first next (numbers ++ [next]) := by
  obtain ⟨hframes, hstale, hduplicates, hforward, hfirst, hlast, hfirst_le, hunwrapped, hmem, hall⟩ := h
  have hsome : node.firstSequence.isSome = true := Option.isSome_of_eq_some hfirst
  have hget : node.lastSequence.get (node.asserted hsome) = ((last % 256 : ℕ) : ℤ) :=
    Option.get_of_eq_some _ hlast
  have hmask : ((next % 256 : ℕ) : ℤ) % 256 = ((next % 256 : ℕ) : ℤ) := by omega
  have hdistance : (((next % 256 : ℕ) : ℤ) - ((last % 256 : ℕ) : ℤ)) % 256 = ((next - last : ℕ) : ℤ) := by
    omega
  have hlength : (numbers ++ [next]).length = numbers.length + 1 := by
    rw [List.length_append, List.length_singleton]
  have hall' : ∀ number ∈ numbers ++ [next], number ≤ next := by
    intro number hnumber
    rcases List.mem_append.mp hnumber with hbefore | hself
    · exact (hall number hbefore).trans hle
    · exact (List.mem_singleton.mp hself).le
  have hmem' : next ∈ numbers ++ [next] := List.mem_append_right _ (List.mem_singleton_self next)
  unfold NodeSummary.observe
  simp only [dif_pos hsome, hget, hmask, hdistance]
  by_cases hsame : next = last
  · -- the last number again
    subst hsame
    have hset : (numbers ++ [next]).toFinset = numbers.toFinset := by
      ext number
      simp only [List.mem_toFinset, List.mem_append, List.mem_singleton]
      constructor
      · rintro (hbefore | rfl)
        · exact hbefore
        · exact hmem
      · exact Or.inl
    rw [if_pos (by omega)]
    refine ⟨?_, hstale, ?_, ?_, hfirst, hlast, hfirst_le, hunwrapped, hmem', hall'⟩
    · rw [hlength, ← hframes]
    · rw [hset, hlength, ← hduplicates]
      exact Nat.add_right_comm _ _ _
    · rw [hset, ← hforward]
  · -- a number that was not seen before
    have hnew : next ∉ numbers.toFinset := by
      rw [List.mem_toFinset]
      intro hseen
      have hseen_le := hall next hseen
      omega
    have hcard : (numbers ++ [next]).toFinset.card = numbers.toFinset.card + 1 := by
      rw [List.toFinset_append, List.toFinset_cons, List.toFinset_nil, Finset.union_comm,
        LawfulSingleton.insert_empty_eq, Finset.singleton_union, Finset.card_insert_of_notMem hnew]
    rw [if_neg (by omega), if_pos (by omega)]
    refine ⟨?_, hstale, ?_, ?_, hfirst, rfl, hfirst_le.trans hle, ?_, hmem', hall'⟩
    · rw [hlength, ← hframes]
    · rw [hcard, hlength, ← hduplicates]
      exact (Nat.add_assoc _ _ _).symm
    · rw [hcard, ← hforward]
    · simp only
      split_ifs with hwrap <;> omega

/-- **Frames whose numbers run forward by less than 128 at a time.** -/
theorem Counted.observeAll (h : node.Counted first last numbers) (messageType : ℤ)
    {more : List ℕ}
    (hmore : (last :: more).IsChain fun number next => number ≤ next ∧ next < number + 128) :
    (node.observeAll (numberedFrames messageType more)).Counted first
      ((last :: more).getLast (List.cons_ne_nil _ _)) (numbers ++ more) := by
  induction more generalizing node last numbers with
  | nil =>
    rw [List.append_nil]
    exact h
  | cons next more ih =>
    obtain ⟨⟨hle, hlt⟩, hmore⟩ := List.isChain_cons_cons.mp hmore
    rw [List.getLast_cons_cons, List.append_cons]
    exact ih (h.observe hle hlt messageType) hmore

end NodeSummary

/-! ### One pass of the controller -/

/-- The read of a pass. -/
def HeartbeatLink.received (s : HeartbeatLink) (transfer : BusTransfer) : List UInt8 × ℕ :=
  WireControllerTransport.receive { address := kNodeAddress }
    (fun _ requested => transfer.read s.node.endpoint requested) kMaxEncodedFrameSize

/-- What a pass prints: nothing, or its read and a count. -/
theorem HeartbeatLink.printed_cases (s : HeartbeatLink) (time : ℕ) (nowMs : UInt32)
    (transfer : BusTransfer) :
    (s.step (.controller time nowMs transfer)).2 = [] ∨
      ∃ count, (s.step (.controller time nowMs transfer)).2 =
        [.heartbeatRead (s.received transfer).2
            (decodeFrame ((s.received transfer).1.take (s.received transfer).2)),
          .onlineCount count] := by
  unfold HeartbeatLink.step PollingSketch.loop
  dsimp only
  split_ifs
  · exact Or.inl rfl
  · exact Or.inr ⟨_, rfl⟩

/-! ### The rate of heartbeats -/

/-- How many frames can have been published since a read: one at once, and then one a
second. -/
structure HeartbeatHistory.Rate (history : HeartbeatHistory) (read : ℕ × ℕ) : Prop where
  read_lt : read.2 < history.published
  read_le : read.1 ≤ history.now
  spaced : history.published = read.2 + 1 ∨
    read.1 + 1000 * (history.published - (read.2 + 2)) ≤ history.heartbeatAt

/-- Two reads of which the second one is next to the first one. -/
def NextRead (read next : ℕ × ℕ) : Prop :=
  read.1 ≤ next.1 ∧ read.2 ≤ next.2 ∧ next.2 ≤ read.2 + 1 + (next.1 - read.1) / 1000

/-- The next read brings the frame published last. -/
theorem HeartbeatHistory.Rate.next {history : HeartbeatHistory} {read : ℕ × ℕ}
    (h : history.Rate read) (hheartbeat : history.heartbeatAt ≤ history.now) {time : ℕ}
    (htime : history.now ≤ time) : NextRead read (time, history.published - 1) := by
  obtain ⟨hlt, hle, hspaced⟩ := h
  refine ⟨hle.trans htime, by omega, ?_⟩
  show history.published - 1 ≤ read.2 + 1 + (time - read.1) / 1000
  rcases hspaced with hnone | hspaced
  · omega
  · have hseconds : history.published - (read.2 + 2) ≤ (time - read.1) / 1000 := by
      rw [Nat.le_div_iff_mul_le (by omega)]
      omega
    omega

/-! ### The invariant -/

/-- What the log says of a read: the node's ID, the number as a byte, and the type. -/
def loggedRead (read : ℕ × ℕ) : ℤ × ℤ × ℤ := (0, ((read.2 % 256 : ℕ) : ℤ), 1)

/-- What reads are answered with: nothing before the first heartbeat, then the one
published last. -/
inductive ServesLast (endpoint : WirePeripheralEndpoint) (published : ℕ) : Prop where
  | nothing (hpublished : published = 0) (hbytes : endpoint.requestFromIsr = [])
  | heartbeat (hpublished : 0 < published) (uptimeMs : UInt32)
      (hbytes : endpoint.requestFromIsr =
        (encodeFrame (heartbeatFrame (UInt8.ofNat (published - 1)) uptimeMs)).active)

/-- What holds of the link and of what was printed after every run in order. -/
structure HeartbeatLink.Consistent (s : HeartbeatLink) (printed : List ControllerEvent) :
    Prop where
  sequenceNumber : s.node.sequenceNumber = UInt8.ofNat s.history.published
  serves : ServesLast s.node.endpoint s.history.published
  unread : s.node.endpoint.rxReady = false
  setup : s.node.point = .setup → s.history.published = 0
  point : ∀ incoming, s.node.point ≠ .answer incoming
  lastHeartbeatMs : s.node.lastHeartbeatMs = UInt32.ofNat s.history.heartbeatAt
  heartbeatAt_le : s.history.heartbeatAt ≤ s.history.now
  rate : ∀ read ∈ s.history.reads.getLast?, s.history.Rate read
  reads : s.history.reads.IsChain NextRead
  logged : printed.filterMap (fun event => event.found.bind LogEvent.read?) =
    s.history.reads.map loggedRead

namespace HeartbeatLink

variable {s : HeartbeatLink} {printed : List ControllerEvent}

theorem consistent_start : ({} : HeartbeatLink).Consistent [.ready .heartbeat] where
  sequenceNumber := rfl
  serves := .nothing rfl rfl
  unread := rfl
  setup _ := rfl
  point _ h := by simp at h
  lastHeartbeatMs := rfl
  heartbeatAt_le := Nat.le_refl 0
  rate _ h := by simp at h
  reads := List.isChain_nil
  logged := rfl

theorem rxReady_publish (endpoint : WirePeripheralEndpoint) (frame : Frame) :
    (endpoint.publish frame).1.rxReady = endpoint.rxReady := by
  unfold WirePeripheralEndpoint.publish
  dsimp only
  split_ifs <;> rfl

/-- **A heartbeat is published.** -/
theorem Consistent.of_published (h : s.Consistent printed) {s' : HeartbeatLink} (uptimeMs : UInt32)
    (hendpoint : s'.node.endpoint =
      (s.node.endpoint.publish (heartbeatFrame s.node.sequenceNumber uptimeMs)).1)
    (hnumber : s'.node.sequenceNumber = s.node.sequenceNumber + 1)
    (hpublished : s'.history.published = s.history.published + 1)
    (hreads : s'.history.reads = s.history.reads)
    (hmillis : s'.node.lastHeartbeatMs = UInt32.ofNat s'.history.heartbeatAt)
    (hnow : s'.history.heartbeatAt ≤ s'.history.now)
    (hrate : ∀ read ∈ s.history.reads.getLast?, s'.history.Rate read)
    (hpoint : s'.node.point = .top ∨ s'.node.point = .poll) : s'.Consistent printed where
  sequenceNumber := by
    rw [hnumber, h.sequenceNumber, hpublished, UInt8.ofNat_add]
    rfl
  serves := by
    apply ServesLast.heartbeat (by omega) uptimeMs
    rw [hpublished, Nat.add_sub_cancel, ← h.sequenceNumber, hendpoint]
    exact WirePeripheralEndpoint.requestFromIsr_publish _
  unread := by rw [hendpoint, rxReady_publish, h.unread]
  setup hsetup := by
    rw [hsetup] at hpoint
    simp at hpoint
  point incoming hanswer := by
    rw [hanswer] at hpoint
    simp at hpoint
  lastHeartbeatMs := hmillis
  heartbeatAt_le := hnow
  rate := by
    rw [hreads]
    exact hrate
  reads := by
    rw [hreads]
    exact h.reads
  logged := by
    rw [hreads]
    exact h.logged

/-- **The node's steps.** -/
theorem Consistent.node (h : s.Consistent printed) {time : ℕ} (htime : s.history.now ≤ time)
    (uptimeMs : UInt32) : (s.step (.node time uptimeMs)).1.Consistent printed := by
  -- a step that publishes nothing
  have hquiet : ∀ point : NodePoint, point ≠ .setup → (∀ incoming, point ≠ .answer incoming) →
      HeartbeatLink.Consistent
        { s with node := { s.node with point }, history := { s.history with now := time } }
        printed := by
    intro point hsetup hpoint
    exact
      { h with
        setup := fun hnone => absurd hnone hsetup
        point := hpoint
        heartbeatAt_le := h.heartbeatAt_le.trans htime
        rate := fun read hread =>
          { h.rate read hread with read_le := (h.rate read hread).read_le.trans htime } }
  unfold HeartbeatLink.step HeartbeatNode.step HeartbeatHistory.node
  cases hpoint : s.node.point with
  | setup =>
    have hzero := h.setup hpoint
    simp only [HeartbeatNode.publishHeartbeat, HeartbeatNode.publishNext]
    refine h.of_published uptimeMs rfl rfl rfl rfl h.lastHeartbeatMs (h.heartbeatAt_le.trans htime)
      (fun read hread => ?_) (Or.inl rfl)
    -- there are no reads before the first heartbeat
    have hlt := (h.rate read hread).read_lt
    omega
  | top =>
    simp only [HeartbeatNode.publishHeartbeat, HeartbeatNode.publishNext]
    split_ifs with hdue
    · rw [h.lastHeartbeatMs] at hdue
      have hle := h.heartbeatAt_le.trans htime
      have hspaced := add_le_of_le_uint32_sub hle hdue
      have hinterval : kHeartbeatIntervalMs.toNat = 1000 := rfl
      refine h.of_published uptimeMs rfl rfl rfl rfl rfl (Nat.le_refl time)
        (fun read hread => ?_) (Or.inr rfl)
      obtain ⟨hlt, hread_le, hrate⟩ := h.rate read hread
      refine ⟨Nat.lt_succ_of_lt hlt, hread_le.trans htime, Or.inr ?_⟩
      show read.1 + 1000 * (s.history.published + 1 - (read.2 + 2)) ≤ time
      omega
    · exact hquiet .poll (by simp) (by simp)
  | poll =>
    have hpoll : s.node.endpoint.poll {} none =
        (s.node.endpoint, { received := false, frame := {}, error := none }) := by
      unfold WirePeripheralEndpoint.poll
      rw [h.unread]
      rfl
    dsimp only
    rw [hpoll]
    exact hquiet .top (by simp) (by simp)
  | answer incoming => exact absurd hpoint (h.point incoming)

/-! ### The controller's passes -/

/-- **A valid read brings the heartbeat published last.** -/
theorem Consistent.decodeFrame_received (h : s.Consistent printed) (transfer : BusTransfer)
    (hok : (decodeFrame ((s.received transfer).1.take (s.received transfer).2)).ok = true) :
    0 < s.history.published ∧ ∃ uptimeMs,
      decodeFrame ((s.received transfer).1.take (s.received transfer).2) =
        { frame := (heartbeatFrame (UInt8.ofNat (s.history.published - 1)) uptimeMs).normalise } := by
  obtain ⟨n, hpart, -⟩ := transfer.receive_isPrefix s.node.endpoint { address := kNodeAddress }
  have hlength : (s.received transfer).2 = receivedLength (s.received transfer).1 :=
    WireControllerTransport.receive_length _ _ _
  rw [hlength] at hok ⊢
  cases h.serves with
  | nothing hpublished hbytes =>
    rw [hbytes, List.nil_append] at hpart
    rw [HeartbeatLink.received, decodeFrame_of_isPrefix_replicate hpart] at hok
    cases hok
  | heartbeat hpublished uptimeMs hbytes =>
    rw [hbytes] at hpart
    refine ⟨hpublished, uptimeMs, ?_⟩
    rw [HeartbeatLink.received, take_receivedLength_of_padded hpart hok, decodeFrame_encodeFrame]

/-- The log says of it what it should. -/
theorem read?_found (length number : ℕ) (uptimeMs : UInt32) (time : ℕ) :
    (ControllerEvent.heartbeatRead length
        { frame := (heartbeatFrame (UInt8.ofNat number) uptimeMs).normalise }).found.bind
      LogEvent.read? = some (loggedRead (time, number)) := by
  have hnode : (heartbeatFrame (UInt8.ofNat number) uptimeMs).normalise.nodeId = 0 :=
    Frame.nodeId_normalise _
  have hsequence : (heartbeatFrame (UInt8.ofNat number) uptimeMs).normalise.sequence =
      UInt8.ofNat number := Frame.sequence_normalise _
  have htype : (heartbeatFrame (UInt8.ofNat number) uptimeMs).normalise.type =
      MessageType.heartbeat := Frame.type_normalise _
  show some (((heartbeatFrame (UInt8.ofNat number) uptimeMs).normalise.nodeId.toNat : ℤ),
    ((heartbeatFrame (UInt8.ofNat number) uptimeMs).normalise.sequence.toNat : ℤ),
    ((heartbeatFrame (UInt8.ofNat number) uptimeMs).normalise.type.raw.toNat : ℤ)) = _
  rw [hnode, hsequence, htype, UInt8.toNat_ofNat']
  rfl

/-- **The controller's passes.** -/
theorem Consistent.controller (h : s.Consistent printed) {time : ℕ} (htime : s.history.now ≤ time)
    (nowMs : UInt32) (transfer : BusTransfer) :
    (s.step (.controller time nowMs transfer)).1.Consistent
      (printed ++ (s.step (.controller time nowMs transfer)).2) := by
  have hstep : (s.step (.controller time nowMs transfer)).1 =
      { s with
        sketch := (s.step (.controller time nowMs transfer)).1.sketch
        history :=
          s.history.controller time (s.step (.controller time nowMs transfer)).2 } := rfl
  have hcases := s.printed_cases time nowMs transfer
  rw [hstep]
  generalize (s.step (.controller time nowMs transfer)).1.sketch = sketch
  generalize (s.step (.controller time nowMs transfer)).2 = events at hcases
  -- a pass without a valid read
  have hquiet : events.filter ControllerEvent.isValidRead = [] →
      events.filterMap (fun event => event.found.bind LogEvent.read?) = [] →
      HeartbeatLink.Consistent { s with sketch, history := s.history.controller time events }
        (printed ++ events) := by
    intro hnone hlogged
    have hreads : (s.history.controller time events).reads = s.history.reads := by
      rw [HeartbeatHistory.controller, hnone, List.map_nil, List.append_nil]
    exact
      { h with
        heartbeatAt_le := h.heartbeatAt_le.trans htime
        rate := fun read hread => by
          rw [hreads] at hread
          obtain ⟨hlt, hle, hspaced⟩ := h.rate read hread
          exact ⟨hlt, hle.trans htime, hspaced⟩
        reads := by
          rw [hreads]
          exact h.reads
        logged := by
          rw [hreads, List.filterMap_append, hlogged, List.append_nil]
          exact h.logged }
  rcases hcases with rfl | ⟨count, rfl⟩
  · exact hquiet rfl rfl
  cases hok : (decodeFrame ((s.received transfer).1.take (s.received transfer).2)).ok with
  | false =>
    apply hquiet
    · simp [ControllerEvent.isValidRead, hok]
    · simp [ControllerEvent.found, ControllerEvent.isFailedPoll, ControllerEvent.logged, hok,
        LogEvent.read?]
  | true =>
    obtain ⟨hpublished, uptimeMs, hdecoded⟩ := h.decodeFrame_received transfer hok
    generalize (s.received transfer).2 = length at hok hdecoded ⊢
    have hread := read?_found length (s.history.published - 1) uptimeMs time
    rw [← hdecoded] at hread
    generalize decodeFrame ((s.received transfer).1.take length) = decoded at hok hread ⊢
    have hreads : (s.history.controller time
        [.heartbeatRead length decoded, .onlineCount count]).reads =
        s.history.reads ++ [(time, s.history.published - 1)] := by
      simp [HeartbeatHistory.controller, ControllerEvent.isValidRead, hok]
    exact
      { h with
        heartbeatAt_le := h.heartbeatAt_le.trans htime
        rate := fun read hlast => by
          rw [hreads, List.getLast?_concat] at hlast
          obtain rfl := Option.some.inj hlast
          exact ⟨Nat.sub_one_lt_of_lt hpublished, Nat.le_refl time,
            Or.inl (Nat.sub_add_cancel hpublished).symm⟩
        reads := by
          rw [hreads]
          apply h.reads.append (List.isChain_singleton _)
          rintro read hlast next hnext
          obtain rfl := Option.some.inj hnext
          exact (h.rate read hlast).next h.heartbeatAt_le htime
        logged := by
          rw [hreads, List.filterMap_append, h.logged, List.map_append, List.filterMap_cons, hread]
          rfl }

/-- **Every step keeps the invariant.** -/
theorem Consistent.step (h : s.Consistent printed) {op : HeartbeatLinkOp} (hop : s.InOrder op) :
    (s.step op).1.Consistent (printed ++ (s.step op).2) := by
  cases op with
  | controller time nowMs transfer => exact h.controller hop nowMs transfer
  | node time uptimeMs =>
    rw [show (s.step (.node time uptimeMs)).2 = [] from rfl, List.append_nil]
    exact h.node hop uptimeMs

end HeartbeatLink

end PicoMesh
