import PicoMesh.Equiv.SequenceTracker
import PicoMesh.SerialLog

/-!
# The log summariser classifies like the firmware

`NodeSummary.observe` works on unbounded integers that it masks, and
`SequenceTracker.observe` on bytes.  `Lockstep` says that the two remember the
same value for a node; one observation keeps that and does to the counters what
the tracker's answer says (`Lockstep.observe`), and a step forward moves the
unwrapped sequence, the last value and 256 for each wraparound, by the forward
distance.  `log_classification` adds this up over a list of observations.
-/

namespace PicoMesh

open SequenceTracker

/-! ### The two readings of an observation -/

/-- The byte that the tracker sees of a sequence value. -/
theorem toNat_ofInt (u : ℤ) : ((UInt8.ofInt u).toNat : ℤ) = u % 256 := by
  have hlo := Int.emod_nonneg u (show (256 : ℤ) ≠ 0 by omega)
  have hhi := Int.emod_lt_of_pos u (show (0 : ℤ) < 256 by omega)
  show ((UInt8.ofNat (u % 256).toNat).toNat : ℤ) = u % 256
  rw [UInt8.toNat_ofNat', Nat.mod_eq_of_lt (by omega)]
  omega

/-- The masked difference is the difference of the bytes. -/
theorem toNat_sub_eq (x y : UInt8) : ((x - y).toNat : ℤ) = ((x.toNat : ℤ) - y.toNat) % 256 := by
  have hx := x.toNat_lt
  have hy := y.toNat_lt
  rw [UInt8.toNat_sub]
  omega

/-- How far a step forward from byte `y` to byte `x` goes, with or without passing
zero. -/
theorem forward_step {x y : UInt8} :
    (x.toNat : ℤ) + (if (x.toNat : ℤ) < y.toNat then 256 else 0) = y.toNat + (x - y).toNat := by
  have hx := x.toNat_lt
  have hy := y.toNat_lt
  rw [UInt8.toNat_sub]
  split_ifs <;> omega

/-! ### One node on both sides -/

section Node

variable {nodeId : UInt8} {i : Fin kMaxNodes} {tracker : SequenceTracker} {summary : NodeSummary}

/-- Both remember the same value for the node, or none. -/
structure Lockstep (i : Fin kMaxNodes) (summary : NodeSummary) (tracker : SequenceTracker) :
    Prop where
  seen : tracker.seen.get i = summary.firstSequence.isSome
  last : summary.firstSequence.isSome = true →
    summary.lastSequence = some ((tracker.lastSequence.get i).toNat : ℤ)

theorem lockstep_start (i : Fin kMaxNodes) : Lockstep i .start {} :=
  ⟨SlotTable.get_replicate false i, fun h => Bool.noConfusion h⟩

/-- The last value and 256 for each wraparound, counted from where the first one
is. -/
def NodeSummary.unwrapped (summary : NodeSummary) : ℤ :=
  summary.lastSequence.getD 0 + 256 * summary.wraparounds

/-- The forward distance of an observation that the tracker calls newer. -/
def newerDistance (i : Fin kMaxNodes) (tracker : SequenceTracker) (nodeId sequence : UInt8) : ℕ :=
  if (tracker.observe nodeId sequence).2 = .newer then
    (sequence - tracker.lastSequence.get i).toNat
  else 0

/-- **The first observation of a node.** -/
theorem Lockstep.observe_first (h : Lockstep i summary tracker) (hnode : nodeId.toNat = i.val)
    (hfirst : summary.firstSequence = none) (u messageType : ℤ) :
    Lockstep i (summary.observe u messageType) (tracker.observe nodeId (UInt8.ofInt u)).1 ∧
      (tracker.observe nodeId (UInt8.ofInt u)).2 = .first ∧
      summary.observe u messageType =
        { summary with
          frames := summary.frames + 1
          messageTypes := summary.messageTypes.modify messageType 0 (· + 1)
          firstSequence := some (u % 256)
          lastSequence := some (u % 256)
          asserted := fun _ => rfl } := by
  have hseen : tracker.seen.get i = false := by rw [h.seen, hfirst, Option.isSome_none]
  have hobserve : summary.observe u messageType =
      { summary with
        frames := summary.frames + 1
        messageTypes := summary.messageTypes.modify messageType 0 (· + 1)
        firstSequence := some (u % 256)
        lastSequence := some (u % 256)
        asserted := fun _ => rfl } := by
    rw [NodeSummary.observe]
    exact dif_neg (by rw [hfirst, Option.isSome_none]; exact Bool.false_ne_true)
  have htracker : tracker.observe nodeId (UInt8.ofInt u) =
      (tracker.remember i (UInt8.ofInt u), .first) := by
    rw [observe_eq hnode, hseen]
    rfl
  rw [hobserve, htracker]
  refine ⟨⟨?_, fun _ => ?_⟩, rfl, rfl⟩
  · show (tracker.seen.set i true i.isLt).get i = true
    rw [SlotTable.get_set, if_pos rfl]
  · show some (u % 256) =
      some (((tracker.lastSequence.set i (UInt8.ofInt u) i.isLt).get i).toNat : ℤ)
    rw [SlotTable.get_set, if_pos rfl, toNat_ofInt]

/-- What a later observation does to a summary, by the tracker's answer. -/
structure Follows (i : Fin kMaxNodes) (tracker : SequenceTracker) (nodeId sequence : UInt8)
    (summary summary' : NodeSummary) : Prop where
  frames : summary'.frames = summary.frames + 1
  balanced : summary'.duplicates + summary'.forwardSteps + summary'.staleOrBackward =
    summary.duplicates + summary.forwardSteps + summary.staleOrBackward + 1
  firstSequence : summary'.firstSequence = summary.firstSequence
  duplicates : summary'.duplicates = summary.duplicates +
    if (tracker.observe nodeId sequence).2 = .duplicate then 1 else 0
  forwardSteps : summary'.forwardSteps = summary.forwardSteps +
    if (tracker.observe nodeId sequence).2 = .newer then 1 else 0
  staleOrBackward : summary'.staleOrBackward = summary.staleOrBackward +
    if (tracker.observe nodeId sequence).2 = .stale then 1 else 0
  unwrapped : summary'.unwrapped =
    summary.unwrapped + newerDistance i tracker nodeId sequence

/-- A summary with one more frame. -/
def NodeSummary.counted (summary : NodeSummary) (messageType : ℤ) : NodeSummary :=
  { summary with
    frames := summary.frames + 1
    messageTypes := summary.messageTypes.modify messageType 0 (· + 1) }

/-- A later observation, read on bytes. -/
theorem NodeSummary.observe_later {last : UInt8} (hfirst : summary.firstSequence.isSome = true)
    (hlast : summary.lastSequence = some (last.toNat : ℤ)) (u messageType : ℤ) :
    summary.observe u messageType =
      if UInt8.ofInt u - last = 0 then
        { summary.counted messageType with duplicates := summary.duplicates + 1 }
      else if UInt8.ofInt u - last < 128 then
        { summary.counted messageType with
          forwardSteps := summary.forwardSteps + 1
          wraparounds :=
            if ((UInt8.ofInt u).toNat : ℤ) < last.toNat then summary.wraparounds + 1
            else summary.wraparounds
          lastSequence := some ((UInt8.ofInt u).toNat : ℤ)
          asserted := fun _ => rfl }
      else
        { summary.counted messageType with staleOrBackward := summary.staleOrBackward + 1 } := by
  have hget : summary.lastSequence.get (summary.asserted hfirst) = (last.toNat : ℤ) :=
    Option.get_of_eq_some _ hlast
  have hdistance := toNat_sub_eq (UInt8.ofInt u) last
  rw [toNat_ofInt] at hdistance
  have hzero : UInt8.ofInt u - last = 0 ↔ (u % 256 - last.toNat) % 256 = 0 := by
    rw [← hdistance, ← UInt8.toNat_inj, UInt8.toNat_zero, Int.natCast_eq_zero]
  have hhalf : UInt8.ofInt u - last < 128 ↔ (u % 256 - last.toNat) % 256 < 128 := by
    rw [← hdistance, UInt8.lt_iff_toNat_lt]
    exact Int.ofNat_lt.symm
  rw [NodeSummary.observe]
  simp only [dif_pos hfirst, hget, hzero, hhalf, toNat_ofInt]
  rfl

/-- **A later observation of a node.** -/
theorem Lockstep.observe_later (h : Lockstep i summary tracker) (hnode : nodeId.toNat = i.val)
    (hfirst : summary.firstSequence.isSome = true) (u messageType : ℤ) :
    Lockstep i (summary.observe u messageType) (tracker.observe nodeId (UInt8.ofInt u)).1 ∧
      Follows i tracker nodeId (UInt8.ofInt u) summary (summary.observe u messageType) := by
  have hseen : tracker.seen.get i = true := h.seen.trans hfirst
  have hlast := h.last hfirst
  have hobserve := NodeSummary.observe_later hfirst hlast u messageType
  have htracker : tracker.observe nodeId (UInt8.ofInt u) = _ := observe_eq hnode (UInt8.ofInt u)
  rw [hseen] at htracker
  by_cases hzero : UInt8.ofInt u - tracker.lastSequence.get i = 0
  · -- the remembered value again
    rw [if_pos hzero] at hobserve
    have hanswer : tracker.observe nodeId (UInt8.ofInt u) = (tracker, .duplicate) := by
      rw [htracker]
      exact if_pos hzero
    rw [hobserve, hanswer]
    refine ⟨⟨h.seen, h.last⟩, ?_⟩
    constructor
    case balanced =>
      simp only [NodeSummary.counted]
      omega
    all_goals simp [hanswer, newerDistance, NodeSummary.unwrapped, NodeSummary.counted]
  by_cases hhalf : UInt8.ofInt u - tracker.lastSequence.get i < 128
  · -- a step forward
    rw [if_neg hzero, if_pos hhalf] at hobserve
    have hanswer : tracker.observe nodeId (UInt8.ofInt u) =
        ({ tracker with lastSequence := tracker.lastSequence.set i (UInt8.ofInt u) i.isLt },
          .newer) := by
      rw [htracker]
      exact (if_neg hzero).trans (if_pos hhalf)
    have hstep := forward_step (x := UInt8.ofInt u) (y := tracker.lastSequence.get i)
    rw [hobserve, hanswer]
    refine ⟨⟨h.seen, fun _ => ?_⟩, ?_⟩
    · rw [SlotTable.get_set, if_pos rfl]
    · constructor
      case unwrapped =>
        simp only [NodeSummary.unwrapped, newerDistance, hanswer, if_true, hlast,
          Option.getD_some]
        split_ifs at hstep ⊢ with hwrap
        · push_cast
          omega
        · omega
      case balanced =>
        simp only [NodeSummary.counted]
        omega
      all_goals simp [hanswer, NodeSummary.counted]
  · -- behind the remembered value
    rw [if_neg hzero, if_neg hhalf] at hobserve
    have hanswer : tracker.observe nodeId (UInt8.ofInt u) = (tracker, .stale) := by
      rw [htracker]
      exact (if_neg hzero).trans (if_neg hhalf)
    rw [hobserve, hanswer]
    refine ⟨⟨h.seen, h.last⟩, ?_⟩
    constructor
    case balanced =>
      simp only [NodeSummary.counted]
      omega
    all_goals simp [hanswer, newerDistance, NodeSummary.unwrapped, NodeSummary.counted]

end Node

/-! ### A list of observations -/

/-- A summary after observations of a node, each with its message type. -/
def NodeSummary.observeAll (summary : NodeSummary) (observations : List (ℤ × ℤ)) : NodeSummary :=
  observations.foldl (fun summary observation => summary.observe observation.1 observation.2)
    summary

/-- The same observations as calls of the tracker. -/
def trackerCalls (nodeId : UInt8) (observations : List (ℤ × ℤ)) : List (TrackerOp UInt8) :=
  observations.map fun observation => .observe nodeId (UInt8.ofInt observation.1)

/-- The sum of the forward distances of the newer ones among some observations. -/
def forwardTotal (i : Fin kMaxNodes) (nodeId : UInt8) :
    SequenceTracker → List (ℤ × ℤ) → ℕ
  | _, [] => 0
  | tracker, observation :: later =>
    newerDistance i tracker nodeId (UInt8.ofInt observation.1) +
      forwardTotal i nodeId (tracker.observe nodeId (UInt8.ofInt observation.1)).1 later

/-- What observations do to a summary of a node that has been seen, by the tracker's
answers. -/
structure FollowsAll (i : Fin kMaxNodes) (tracker : SequenceTracker) (nodeId : UInt8)
    (observations : List (ℤ × ℤ)) (summary summary' : NodeSummary) : Prop where
  frames : summary'.frames = summary.frames + observations.length
  balanced : summary'.duplicates + summary'.forwardSteps + summary'.staleOrBackward =
    summary.duplicates + summary.forwardSteps + summary.staleOrBackward + observations.length
  firstSequence : summary'.firstSequence = summary.firstSequence
  duplicates : summary'.duplicates = summary.duplicates +
    (sequenceTracker.outputs tracker (trackerCalls nodeId observations)).count (some .duplicate)
  forwardSteps : summary'.forwardSteps = summary.forwardSteps +
    (sequenceTracker.outputs tracker (trackerCalls nodeId observations)).count (some .newer)
  staleOrBackward : summary'.staleOrBackward = summary.staleOrBackward +
    (sequenceTracker.outputs tracker (trackerCalls nodeId observations)).count (some .stale)
  unwrapped : summary'.unwrapped =
    summary.unwrapped + forwardTotal i nodeId tracker observations

/-- **The two stay in lockstep**, and the counters follow the answers. -/
theorem Lockstep.observeAll {nodeId : UInt8} {i : Fin kMaxNodes} {tracker : SequenceTracker}
    {summary : NodeSummary} (h : Lockstep i summary tracker) (hnode : nodeId.toNat = i.val)
    (hfirst : summary.firstSequence.isSome = true) (observations : List (ℤ × ℤ)) :
    Lockstep i (summary.observeAll observations)
        (sequenceTracker.run tracker (trackerCalls nodeId observations)) ∧
      FollowsAll i tracker nodeId observations summary (summary.observeAll observations) := by
  induction observations generalizing tracker summary with
  | nil => exact ⟨h, ⟨rfl, rfl, rfl, rfl, rfl, rfl, (Int.add_zero _).symm⟩⟩
  | cons observation later ih =>
    obtain ⟨hnext, hfollows⟩ := h.observe_later hnode hfirst observation.1 observation.2
    obtain ⟨hlater, hrun⟩ := ih hnext (by rw [hfollows.firstSequence]; exact hfirst)
    refine ⟨hlater, ?_⟩
    have houtputs : sequenceTracker.outputs tracker (trackerCalls nodeId (observation :: later)) =
        some (tracker.observe nodeId (UInt8.ofInt observation.1)).2 ::
          sequenceTracker.outputs (tracker.observe nodeId (UInt8.ofInt observation.1)).1
            (trackerCalls nodeId later) := rfl
    have hsummary : summary.observeAll (observation :: later) =
        (summary.observe observation.1 observation.2).observeAll later := rfl
    rw [hsummary]
    constructor
    case frames =>
      rw [hrun.frames, hfollows.frames, List.length_cons]
      omega
    case balanced =>
      rw [hrun.balanced, hfollows.balanced, List.length_cons]
      omega
    case firstSequence => rw [hrun.firstSequence, hfollows.firstSequence]
    case duplicates =>
      rw [hrun.duplicates, hfollows.duplicates, houtputs, List.count_cons]
      simp only [beq_iff_eq, Option.some.injEq]
      omega
    case forwardSteps =>
      rw [hrun.forwardSteps, hfollows.forwardSteps, houtputs, List.count_cons]
      simp only [beq_iff_eq, Option.some.injEq]
      omega
    case staleOrBackward =>
      rw [hrun.staleOrBackward, hfollows.staleOrBackward, houtputs, List.count_cons]
      simp only [beq_iff_eq, Option.some.injEq]
      omega
    case unwrapped =>
      rw [hrun.unwrapped, hfollows.unwrapped, forwardTotal, Nat.cast_add, Int.add_assoc]

/-- **The log summariser classifies like the firmware.**  For observations of a node
fed to both, fresh: after any of them the last value is the one that the tracker
stores, the counters are the numbers of its answers and add up to the frames, and
the last value, with 256 for each wraparound, is as far from the first one as the
newer observations have gone forward together. -/
theorem log_classification (nodeId : UInt8) (hnode : nodeId.toNat < kMaxNodes)
    (observations : List (ℤ × ℤ)) :
    let summary := NodeSummary.start.observeAll observations
    let tracker := sequenceTracker.run sequenceTracker.start (trackerCalls nodeId observations)
    let results :=
      sequenceTracker.outputs sequenceTracker.start (trackerCalls nodeId observations)
    summary.duplicates = results.count (some .duplicate) ∧
    summary.forwardSteps = results.count (some .newer) ∧
    summary.staleOrBackward = results.count (some .stale) ∧
    (observations ≠ [] →
      summary.lastSequence = some ((tracker.lastSequence.get ⟨nodeId.toNat, hnode⟩).toNat : ℤ) ∧
      summary.frames =
        1 + summary.duplicates + summary.forwardSteps + summary.staleOrBackward ∧
      ∃ first last, summary.firstSequence = some first ∧ summary.lastSequence = some last ∧
        last + 256 * summary.wraparounds - first =
          forwardTotal ⟨nodeId.toNat, hnode⟩ nodeId sequenceTracker.start observations) := by
  intro summary tracker results
  cases observations with
  | nil => exact ⟨rfl, rfl, rfl, fun hne => absurd rfl hne⟩
  | cons observation later =>
    -- the first observation, then the run from there
    have hnode' : nodeId.toNat = (⟨nodeId.toNat, hnode⟩ : Fin kMaxNodes).val := rfl
    obtain ⟨hnext, hresult, hobserve⟩ :=
      (lockstep_start ⟨nodeId.toNat, hnode⟩).observe_first hnode' rfl observation.1 observation.2
    have hfirst : (NodeSummary.start.observe observation.1 observation.2).firstSequence =
        some (observation.1 % 256) := by rw [hobserve]
    have hsome := Option.isSome_of_eq_some hfirst
    obtain ⟨hlock, hrun⟩ := hnext.observeAll hnode' hsome later
    have hsummary : summary =
        (NodeSummary.start.observe observation.1 observation.2).observeAll later := rfl
    have hresults : results = some .first :: sequenceTracker.outputs
        (({} : SequenceTracker).observe nodeId (UInt8.ofInt observation.1)).1
        (trackerCalls nodeId later) := by
      rw [← hresult]
      rfl
    have hlast : summary.lastSequence =
        some ((tracker.lastSequence.get ⟨nodeId.toNat, hnode⟩).toNat : ℤ) := by
      apply hlock.last
      rw [hrun.firstSequence]
      exact hsome
    refine ⟨?_, ?_, ?_, fun _ => ⟨hlast, ?_, ?_⟩⟩
    · rw [hsummary, hrun.duplicates, hobserve, hresults, List.count_cons_of_ne (by simp)]
      exact Nat.zero_add _
    · rw [hsummary, hrun.forwardSteps, hobserve, hresults, List.count_cons_of_ne (by simp)]
      exact Nat.zero_add _
    · rw [hsummary, hrun.staleOrBackward, hobserve, hresults, List.count_cons_of_ne (by simp)]
      exact Nat.zero_add _
    · have hframes := hrun.frames
      have hbalanced := hrun.balanced
      rw [hobserve] at hframes hbalanced
      rw [hsummary, hobserve]
      dsimp only [NodeSummary.start] at hframes hbalanced ⊢
      omega
    · refine ⟨_, _, hrun.firstSequence.trans hfirst, hlast, ?_⟩
      have hunwrapped := hrun.unwrapped
      rw [NodeSummary.unwrapped, ← hsummary, hlast, Option.getD_some] at hunwrapped
      have hstart : (NodeSummary.start.observe observation.1 observation.2).unwrapped =
          observation.1 % 256 := by
        rw [hobserve]
        exact Int.add_zero _
      -- the first answer is not a step forward
      have htotal : forwardTotal ⟨nodeId.toNat, hnode⟩ nodeId {} (observation :: later) =
          forwardTotal ⟨nodeId.toNat, hnode⟩ nodeId
            (({} : SequenceTracker).observe nodeId (UInt8.ofInt observation.1)).1 later := by
        rw [forwardTotal, newerDistance, hresult, if_neg (by simp), Nat.zero_add]
      rw [hstart] at hunwrapped
      rw [hunwrapped, ← htotal, add_sub_cancel_left]
      rfl

/-- Five frames of node 0, with a wraparound, a duplicate and a stale one. -/
theorem log_classification_example :
    let summary :=
      NodeSummary.start.observeAll [(254, 1), (255, 1), (0, 1), (0, 1), (250, 1)]
    (summary.wraparounds = 1 ∧ summary.duplicates = 1 ∧ summary.forwardSteps = 2 ∧
      summary.staleOrBackward = 1) ∧
    summary.frames =
      1 + summary.duplicates + summary.forwardSteps + summary.staleOrBackward := by
  have hclassified := (log_classification 0 (by decide)
    [(254, 1), (255, 1), (0, 1), (0, 1), (250, 1)]).2.2.2 (List.cons_ne_nil _ _)
  exact ⟨by decide, hclassified.2.1⟩

end PicoMesh
