import PicoMesh.Equiv.LogRecovery
import PicoMesh.Equiv.RegistryAccuracy
import PicoMesh.PollingController

/-!
# What the logs of the polling sketches say

`LivenessBoard` is what the two sketches are for: it remembers the true time at
which each node was last heard, and at a poll it counts the nodes that were heard
in the last 2.5 s.  The sketches keep that time modulo 2^32 in the registry and
print the count; `summarize_serial_log.py` reads it out of the log again.
`polling_log_accuracy` takes the three together.
-/

namespace PicoMesh

open SerialNumber

/-! ### The board -/

/-- The frame that a read of an address brings, if it is a valid one. -/
def frameRead (requestFrom : UInt8 → UInt8 → ℕ × List UInt8) (address : UInt8) : Option Frame :=
  let transport : WireControllerTransport := { address }
  let received := transport.receive requestFrom kMaxEncodedFrameSize
  let decoded := decodeFrame (received.1.take received.2)
  if decoded.ok then some decoded.frame else none

/-- When each node was last heard. -/
structure LivenessBoard where
  heard : UInt8 → Option ℕ := fun _ => none
  /-- The time of the last poll. -/
  polledAt : ℕ := 0
  /-- The time of the last pass. -/
  now : ℕ := 0

namespace LivenessBoard

/-- A valid frame is heard of its node. -/
def hear (board : LivenessBoard) (t : ℕ) : Option Frame → LivenessBoard
  | none => board
  | some frame => { board with heard := Function.update board.heard frame.nodeId (some t) }

@[simp] theorem now_hear (board : LivenessBoard) (t : ℕ) (frame : Option Frame) :
    (board.hear t frame).now = board.now := by
  cases frame <;> rfl

/-- How many nodes were heard in the last 2.5 s. -/
def online (board : LivenessBoard) (t : ℕ) : ℕ :=
  (List.finRange kMaxNodes).countP fun i : Fin kMaxNodes =>
    (board.heard (UInt8.ofNat i)).any fun heardAt => decide (t ≤ heardAt + 2500)

/-- A pass: every half second a poll, with its count. -/
def pass (board : LivenessBoard) (program : PollingProgram) (pass : PollingPass) :
    LivenessBoard × List ℕ :=
  if pass.time < board.polledAt + 500 then ({ board with now := pass.time }, [])
  else
    let frames := program.reads.map fun read => frameRead pass.requestFrom read.1
    let polled := { board with polledAt := pass.time, now := pass.time }
    let board := frames.foldl (·.hear pass.time ·) polled
    (board, [board.online pass.time])

/-- Time does not run back, and the sketch neither polls nor hears from a node that it has heard of
more than a turn of the clock later. -/
def InTime (board : LivenessBoard) (pass : PollingPass) : Prop :=
  board.now ≤ pass.time ∧ pass.time < board.polledAt + 2 ^ 32 ∧
    ∀ i < kMaxNodes, ∀ heardAt ∈ board.heard (UInt8.ofNat i), pass.time < heardAt + 2 ^ 32

instance (board : LivenessBoard) (pass : PollingPass) : Decidable (board.InTime pass) :=
  inferInstanceAs (Decidable (_ ∧ _ ∧ _))

end LivenessBoard

/-- The board as a machine.  It answers with its counts. -/
def livenessBoard (program : PollingProgram) : Mealy LivenessBoard PollingPass (List ℕ) where
  start := {}
  step board pass := board.pass program pass

/-! ### The registry shows the board -/

/-- The registry holds when each node was last heard, modulo 2^32. -/
structure NodeRegistry.Shows (registry : NodeRegistry) (heard : UInt8 → Option ℕ) : Prop where
  timeoutMs : registry.timeoutMs = 2500
  present : ∀ i : Fin kMaxNodes, registry.present.get i = (heard (UInt8.ofNat i)).isSome
  lastSeenMs : ∀ i : Fin kMaxNodes, ∀ heardAt ∈ heard (UInt8.ofNat i),
    (registry.nodes.get i).lastSeenMs = UInt32.ofNat heardAt

namespace NodeRegistry

variable {registry : NodeRegistry} {heard : UInt8 → Option ℕ}

theorem shows_new : (new 2500).Shows fun _ => none where
  timeoutMs := rfl
  present i := SlotTable.get_replicate false i
  lastSeenMs _ _ h := by simp at h

/-- An index and the node ID that it stands for. -/
theorem ofNat_eq_iff (i : Fin kMaxNodes) (nodeId : UInt8) :
    UInt8.ofNat i = nodeId ↔ nodeId.toNat = i := by
  have hlt : (i : ℕ) < 32 := i.isLt
  rw [← UInt8.toNat_inj, UInt8.toNat_ofNat']
  omega

theorem Shows.observe (h : registry.Shows heard) (nodeId sequence : UInt8) (t : ℕ) :
    (registry.observe nodeId sequence (UInt32.ofNat t)).1.Shows
      (Function.update heard nodeId (some t)) where
  timeoutMs := by rw [timeoutMs_observe, h.timeoutMs]
  present i := by
    simp only [present_observe, Function.update_apply, ofNat_eq_iff, h.present]
    split_ifs <;> rfl
  lastSeenMs i heardAt := by
    simp only [nodes_observe, Function.update_apply, ofNat_eq_iff]
    split_ifs
    · rintro ⟨⟩
      rfl
    · exact h.lastSeenMs i heardAt

theorem Shows.refresh (h : registry.Shows heard) (nowMs : UInt32) :
    (registry.refresh nowMs).Shows heard where
  timeoutMs := by rw [timeoutMs_refresh, h.timeoutMs]
  present i := by rw [present_refresh, h.present]
  lastSeenMs i heardAt hheard := by rw [lastSeenMs_refresh, h.lastSeenMs i heardAt hheard]

/-- **Behind a refresh the registry counts what the board counts**, if every node was heard less
than a turn of the clock ago. -/
theorem Shows.onlineCount_refresh (h : registry.Shows heard) {t : ℕ}
    (hle : ∀ i : Fin kMaxNodes, ∀ heardAt ∈ heard (UInt8.ofNat i), heardAt ≤ t)
    (hlt : ∀ i : Fin kMaxNodes, ∀ heardAt ∈ heard (UInt8.ofNat i), t < heardAt + 2 ^ 32) :
    (registry.refresh (UInt32.ofNat t)).onlineCount =
      (List.finRange kMaxNodes).countP fun i : Fin kMaxNodes =>
        (heard (UInt8.ofNat i)).any fun heardAt => decide (t ≤ heardAt + 2500) := by
  apply List.countP_congr
  intro i _
  unfold counts
  rw [present_refresh, nodes_refresh, h.present]
  cases hheard : heard (UInt8.ofNat i) with
  | none => simp
  | some heardAt =>
    have hle' := hle i heardAt hheard
    have helapsed := elapsed_le_iff hle' (hlt i heardAt hheard) 2500
    have htimeout : (2500 : UInt32).toNat = 2500 := rfl
    rw [htimeout] at helapsed
    simp only [Option.isSome_some, if_true, Bool.true_and, h.timeoutMs, Option.any_some,
      h.lastSeenMs i heardAt hheard, decide_eq_true_eq, helapsed]
    omega

end NodeRegistry

/-! ### The sketches refine the board -/

/-- The counts that an event prints. -/
def ControllerEvent.counted? : ControllerEvent → Option ℕ
  | .onlineCount count => some count
  | _ => none

/-- What a sketch holds of the board. -/
structure PollingSketch.Shows (sketch : PollingSketch) (board : LivenessBoard) : Prop where
  lastPollMs : sketch.lastPollMs = UInt32.ofNat board.polledAt
  polledAt_le : board.polledAt ≤ board.now
  heard_le : ∀ nodeId, ∀ heardAt ∈ board.heard nodeId, heardAt ≤ board.now
  registry : sketch.registry.Shows board.heard

namespace PollingSketch

variable {sketch : PollingSketch} {board : LivenessBoard} {t : ℕ}

theorem shows_start : ({} : PollingSketch).Shows {} where
  lastPollMs := rfl
  polledAt_le := Nat.le_refl _
  heard_le _ _ h := by simp at h
  registry := NodeRegistry.shows_new

/-- A read is heard of. -/
theorem Shows.pollNode (h : sketch.Shows board) (hnow : board.now = t)
    (requestFrom : UInt8 → UInt8 → ℕ × List UInt8)
    (read : UInt8 × (ℕ → DecodeResult → ControllerEvent)) :
    (sketch.pollNode requestFrom (UInt32.ofNat t) read).1.Shows
      (board.hear t (frameRead requestFrom read.1)) := by
  unfold PollingSketch.pollNode frameRead
  simp only
  split_ifs
  · refine ⟨h.lastPollMs, h.polledAt_le, fun nodeId heardAt => ?_, h.registry.observe _ _ t⟩
    simp only [LivenessBoard.hear, Function.update_apply]
    split_ifs
    · rintro ⟨⟩
      exact hnow.ge
    · exact h.heard_le nodeId heardAt
  · exact h

theorem Shows.withRegistry (h : sketch.Shows board) {registry : NodeRegistry}
    (hregistry : registry.Shows board.heard) :
    PollingSketch.Shows { sketch with registry } board :=
  ⟨h.lastPollMs, h.polledAt_le, h.heard_le, hregistry⟩

/-- All reads of a pass are. -/
theorem Shows.pollNodes (h : sketch.Shows board) (hnow : board.now = t)
    (requestFrom : UInt8 → UInt8 → ℕ × List UInt8)
    (reads : List (UInt8 × (ℕ → DecodeResult → ControllerEvent))) :
    (sketch.pollNodes requestFrom (UInt32.ofNat t) reads).1.Shows
      ((reads.map fun read => frameRead requestFrom read.1).foldl (·.hear t ·) board) := by
  induction reads generalizing sketch board with
  | nil => exact h
  | cons read reads ih =>
    apply ih (h.pollNode hnow requestFrom read)
    rw [LivenessBoard.now_hear, hnow]

/-- Of its reads a pass prints no counts. -/
theorem counted?_pollNodes (program : PollingProgram)
    (requestFrom : UInt8 → UInt8 → ℕ × List UInt8) (nowMs : UInt32) :
    (sketch.pollNodes requestFrom nowMs program.reads).2.filterMap
      ControllerEvent.counted? = [] := by
  cases program <;> rfl

/-- The sketch polls when the board does. -/
theorem Shows.waits_iff
    (h : sketch.Shows board) {pass : PollingPass} (hpass : board.InTime pass) :
    UInt32.ofNat pass.time - sketch.lastPollMs < kPollIntervalMs ↔
      pass.time < board.polledAt + 500 := by
  obtain ⟨hnow, hturn, -⟩ := hpass
  have hle := h.polledAt_le.trans hnow
  have hinterval : kPollIntervalMs.toNat = 500 := rfl
  rw [h.lastPollMs, UInt32.lt_iff_toNat_lt, toNat_uint32_sub, forwardDistance_of_le hle hturn,
    hinterval]
  omega

/-- What was heard is not taken back. -/
theorem mem_heard_foldl {frames : List (Option Frame)} {heardAt : ℕ} {nodeId : UInt8}
    (h : heardAt ∈ (frames.foldl (·.hear t ·) board).heard nodeId) :
    heardAt = t ∨ heardAt ∈ board.heard nodeId := by
  induction frames generalizing board with
  | nil => exact Or.inr h
  | cons frame frames ih =>
    rcases ih h with ht | hbefore
    · exact Or.inl ht
    · cases frame with
      | none => exact Or.inr hbefore
      | some frame =>
        simp only [LivenessBoard.hear, Function.update_apply] at hbefore
        split_ifs at hbefore
        · exact Or.inl (Option.mem_some.mp hbefore).symm
        · exact Or.inr hbefore

/-- **The sketches refine the board**: a pass in time prints what the board counts. -/
theorem Shows.loop
    (h : sketch.Shows board) (program : PollingProgram) {pass : PollingPass}
    (hpass : board.InTime pass) :
    (sketch.loop program pass.requestFrom (UInt32.ofNat pass.time)).2.filterMap
        ControllerEvent.counted? = (board.pass program pass).2 ∧
      (sketch.loop program pass.requestFrom (UInt32.ofNat pass.time)).1.Shows
        (board.pass program pass).1 := by
  have hwaits := h.waits_iff hpass
  obtain ⟨hnow, hturn, hheard⟩ := hpass
  unfold PollingSketch.loop LivenessBoard.pass
  simp only [hwaits]
  split_ifs with hwait
  · refine ⟨rfl, ?_⟩
    exact
      { h with
        polledAt_le := h.polledAt_le.trans hnow
        heard_le := fun nodeId heardAt hmem => (h.heard_le nodeId heardAt hmem).trans hnow }
  · have hpolled : PollingSketch.Shows
        { sketch with lastPollMs := UInt32.ofNat pass.time }
        { board with polledAt := pass.time, now := pass.time } :=
      { h with
        lastPollMs := rfl
        polledAt_le := Nat.le_refl _
        heard_le := fun nodeId heardAt hmem => (h.heard_le nodeId heardAt hmem).trans hnow }
    have hread := hpolled.pollNodes (t := pass.time) rfl pass.requestFrom program.reads
    rw [List.filterMap_append, counted?_pollNodes, List.nil_append]
    refine ⟨congrArg (fun count => [count]) ?_, hread.withRegistry (hread.registry.refresh _)⟩
    apply hread.registry.onlineCount_refresh
    · intro i heardAt hmem
      rcases mem_heard_foldl hmem with rfl | hbefore
      · exact Nat.le_refl _
      · exact (h.heard_le _ _ hbefore).trans hnow
    · intro i heardAt hmem
      rcases mem_heard_foldl hmem with rfl | hbefore
      · exact Nat.lt_add_of_pos_right (by decide)
      · exact hheard i i.isLt heardAt hbefore

end PollingSketch

theorem livenessBoard_simulation (program : PollingProgram) :
    Mealy.Simulation (livenessBoard program)
      ((pollingController program).mapOutput fun events =>
        events.filterMap ControllerEvent.counted?)
      id LivenessBoard.InTime fun board sketch => sketch.Shows board where
  answer _ _ _ h hpass := (h.loop program hpass).1
  next _ _ _ h hpass := (h.loop program hpass).2

/-! ### The log -/

/-- The summariser finds the counts. -/
theorem ControllerEvent.online?_found (event : ControllerEvent) :
    event.found.bind LogEvent.online? = event.counted?.map Nat.cast := by
  cases event with
  | onlineCount count => rfl
  | ready sketch => rfl
  | heartbeatRead length decoded =>
    cases hok : decoded.ok <;> simp [found, isFailedPoll, logged, hok, counted?, LogEvent.online?]
  | pollNode address length decoded =>
    cases hok : decoded.ok <;> simp [found, isFailedPoll, logged, hok, counted?, LogEvent.online?]
  | enqueueCommand sequence result => cases result <;> rfl
  | transmitDue decision sent =>
    cases haction : decision.action <;>
      simp [found, isFailedPoll, logged, haction, counted?, LogEvent.online?]
  | receiveAcknowledgement sequence status resolution => rfl

/-- The online samples of a log are the counts printed. -/
theorem onlineSamples_summarize (events : List ControllerEvent) :
    (summarize (serialOutput events)).onlineSamples =
      (events.filterMap ControllerEvent.counted?).map Nat.cast := by
  rw [(tallies_summarize events).onlineSamples, List.filterMap_filterMap, List.map_filterMap]
  simp only [ControllerEvent.online?_found]

/-- **The log of a polling sketch tells the truth.**  Whatever the bus answers, the online counts
that the summariser takes from the log are, poll by poll, how many of the nodes 0 to 31 were heard
with a valid frame in the last 2.5 s of true time. -/
theorem polling_log_accuracy (program : PollingProgram) (passes : List PollingPass)
    (hpasses : (livenessBoard program).Along LivenessBoard.InTime (livenessBoard program).start
      passes) :
    (summarize (serialOutput (program.printed passes))).onlineSamples =
      (((livenessBoard program).outputs (livenessBoard program).start passes).flatten).map
        Nat.cast := by
  have hstart : PollingSketch.Shows (pollingController program).start
      (livenessBoard program).start := PollingSketch.shows_start
  have houtputs := (livenessBoard_simulation program).outputs hstart hpasses
  rw [List.map_id, Mealy.outputs_mapOutput] at houtputs
  rw [onlineSamples_summarize, PollingProgram.printed, List.filterMap_cons_none rfl, ← houtputs,
    List.filterMap_flatten]

/-- A node is heard once, and is offline at a poll three seconds later. -/
theorem polling_log_accuracy_example :
    (summarize (serialOutput (PollingProgram.multiNode.printed
      [⟨100, fun _ _ => (0, [])⟩, ⟨500, fun _ _ => (8, (encodeFrame { nodeId := 3 }).active)⟩,
        ⟨3500, fun _ _ => (0, [])⟩]))).onlineSamples = [1, 0] := by
  rw [polling_log_accuracy _ _ (by decide +kernel)]
  decide +kernel

end PicoMesh
