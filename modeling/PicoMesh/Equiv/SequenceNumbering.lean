import Mathlib.Data.List.Induction
import PicoMesh.Equiv.SequenceTracker

/-!
# The sequence tracker on unbounded numbers

`classify` is what the tracker is for: it orders an unbounded number against the
largest one observed since the last reset.  `sequence_numbering` says that the
tracker, which sees the numbers modulo 256, answers like it for every node as
long as the numbers of that node stay within the window that a byte can tell
apart (`InWindow`), whatever is done to other nodes in between.
-/

namespace PicoMesh

/-! ### Runs on unbounded numbers -/

/-- The tracker after calls with unbounded sequence numbers, which it sees modulo
256. -/
def trackerAfter (ops : List (TrackerOp ℤ)) : SequenceTracker :=
  sequenceTracker.run sequenceTracker.start (ops.map (TrackerOp.mapSequence UInt8.ofInt))

/-- The answers to these calls. -/
def trackerReplies (ops : List (TrackerOp ℤ)) : List (Option SequenceState) :=
  sequenceTracker.outputs sequenceTracker.start (ops.map (TrackerOp.mapSequence UInt8.ofInt))

theorem trackerAfter_concat (ops : List (TrackerOp ℤ)) (op : TrackerOp ℤ) :
    trackerAfter (ops ++ [op]) =
      ((trackerAfter ops).step (op.mapSequence UInt8.ofInt)).1 := by
  rw [trackerAfter, List.map_append]
  exact Mealy.run_concat _ _ _ _

theorem trackerReplies_concat (ops : List (TrackerOp ℤ)) (op : TrackerOp ℤ) :
    trackerReplies (ops ++ [op]) =
      trackerReplies ops ++ [((trackerAfter ops).step (op.mapSequence UInt8.ofInt)).2] := by
  rw [trackerReplies, List.map_append]
  exact Mealy.outputs_concat _ _ _ _

/-- Whether a call concerns a node. -/
def TrackerOp.Concerns {ν : Type} (nodeId : UInt8) : TrackerOp ν → Prop
  | .observe nodeId' _ => nodeId' = nodeId
  | .reset nodeId' => nodeId' = nodeId
  | .resetAll => True

instance {ν : Type} (nodeId : UInt8) : ∀ op : TrackerOp ν, Decidable (op.Concerns nodeId)
  | .observe nodeId' _ => inferInstanceAs (Decidable (nodeId' = nodeId))
  | .reset nodeId' => inferInstanceAs (Decidable (nodeId' = nodeId))
  | .resetAll => .isTrue trivial

/-! ### What the tracker is for -/

/-- The largest number observed for a node since its last reset, after a call. -/
def largestAfter (nodeId : UInt8) (largest : Option ℤ) : TrackerOp ℤ → Option ℤ
  | .observe nodeId' u =>
    if nodeId' = nodeId then some (largest.elim u (max u)) else largest
  | .reset nodeId' => if nodeId' = nodeId then none else largest
  | .resetAll => none

/-- The largest number observed for a node since its last reset. -/
def largestObserved (nodeId : UInt8) (ops : List (TrackerOp ℤ)) : Option ℤ :=
  ops.foldl (largestAfter nodeId) none

/-- How a number compares with the largest one observed. -/
def classify (largest : Option ℤ) (u : ℤ) : SequenceState :=
  match largest with
  | none => .first
  | some m => if m < u then .newer else if u = m then .duplicate else .stale

/-- A number is accepted if it exceeds all that were observed before. -/
theorem classify_accepts_iff (largest : Option ℤ) (u : ℤ) :
    (classify largest u).accepts = true ↔ ∀ m, largest = some m → m < u := by
  cases largest with
  | none => exact iff_of_true rfl nofun
  | some m =>
    simp only [classify, Option.some.injEq, forall_eq']
    split_ifs with hlt heq
    · exact iff_of_true rfl hlt
    · exact iff_of_false Bool.false_ne_true hlt
    · exact iff_of_false Bool.false_ne_true hlt

/-- Every number observed for a node is at most 128 behind and 127 ahead of the
largest one observed before. -/
def InWindow (nodeId : UInt8) (ops : List (TrackerOp ℤ)) : Prop :=
  ∀ before u rest, ops = before ++ .observe nodeId u :: rest →
    ∀ m, largestObserved nodeId before = some m → m - 128 ≤ u ∧ u ≤ m + 127

/-- The numbers accepted for a node since its last reset, after a call and its
answer. -/
def acceptedAfter (nodeId : UInt8) (accepted : List ℤ) :
    TrackerOp ℤ × Option SequenceState → List ℤ
  | (.observe nodeId' u, state) =>
    if nodeId' = nodeId ∧ state.any SequenceState.accepts then accepted ++ [u] else accepted
  | (.reset nodeId', _) => if nodeId' = nodeId then [] else accepted
  | (.resetAll, _) => []

/-- The numbers that the tracker has accepted for a node since its last reset, in
order. -/
def acceptedNumbers (nodeId : UInt8) (ops : List (TrackerOp ℤ)) : List ℤ :=
  (ops.zip (trackerReplies ops)).foldl (acceptedAfter nodeId) []

theorem acceptedNumbers_concat (nodeId : UInt8) (ops : List (TrackerOp ℤ)) (op : TrackerOp ℤ) :
    acceptedNumbers nodeId (ops ++ [op]) = acceptedAfter nodeId (acceptedNumbers nodeId ops)
      (op, ((trackerAfter ops).step (op.mapSequence UInt8.ofInt)).2) := by
  have hlength : ops.length = (trackerReplies ops).length := by
    rw [trackerReplies, Mealy.length_outputs, List.length_map]
  rw [acceptedNumbers, trackerReplies_concat, List.zip_append hlength, List.foldl_append,
    ← acceptedNumbers]
  rfl

/-! ### One node -/

/-- Two integers that agree modulo 256 have the same byte. -/
theorem ofInt_eq_ofNat {m : ℤ} {k : ℕ} (h : (k : ℤ) % 256 = m % 256) :
    UInt8.ofInt m = UInt8.ofNat k := by
  rw [← UInt8.toNat_inj, UInt8.ofInt, UInt8.toNat_ofNat', UInt8.toNat_ofNat']
  omega

namespace SequenceTracker

/-- The tracker remembers the byte of `largest` for node `i`. -/
structure Tracks (tracker : SequenceTracker) (i : Fin kMaxNodes) (largest : Option ℤ) : Prop where
  seen : tracker.seen.get i = largest.isSome
  sequence : ∀ m, largest = some m → tracker.lastSequence.get i = UInt8.ofInt m

variable {tracker : SequenceTracker} {i : Fin kMaxNodes} {nodeId : UInt8} {largest : Option ℤ}

theorem tracks_start (i : Fin kMaxNodes) : Tracks {} i none :=
  ⟨SlotTable.get_replicate false i, nofun⟩

/-- The remembered number, counted from another turn. -/
theorem Tracks.numbered {m : ℤ} {k : ℕ} (h : tracker.Tracks i (some m))
    (hk : (k : ℤ) % 256 = m % 256) : tracker.Numbered i (some k) where
  seen := h.seen
  sequence k' hk' := by
    obtain rfl := Option.some.inj hk'
    rw [h.sequence m rfl, ofInt_eq_ofNat hk]

theorem tracks_remember (u : ℤ) : (tracker.remember i (UInt8.ofInt u)).Tracks i (some u) := by
  constructor
  · show (tracker.seen.set i true i.isLt).get i = true
    rw [SlotTable.get_set, if_pos rfl]
  · intro m hm
    obtain rfl := Option.some.inj hm
    show (tracker.lastSequence.set i (UInt8.ofInt u) i.isLt).get i = UInt8.ofInt u
    rw [SlotTable.get_set, if_pos rfl]

/-- **An observation within the window** is classified like the number itself, and the
largest number is remembered. -/
theorem Tracks.observe (h : tracker.Tracks i largest) (hnode : nodeId.toNat = i.val) {u : ℤ}
    (hwindow : ∀ m, largest = some m → m - 128 ≤ u ∧ u ≤ m + 127) :
    (tracker.observe nodeId (UInt8.ofInt u)).2 = classify largest u ∧
      (tracker.observe nodeId (UInt8.ofInt u)).1.Tracks i (some (largest.elim u (max u))) := by
  cases largest with
  | none =>
    have hnumbered : tracker.Numbered i none := ⟨h.seen, nofun⟩
    rw [hnumbered.observe_first hnode]
    exact ⟨rfl, tracks_remember u⟩
  | some m =>
    obtain ⟨hlow, hhigh⟩ := hwindow m rfl
    -- the same two numbers, counted from a turn in which both are positive
    obtain ⟨k, hk⟩ : ∃ k : ℕ, (k : ℤ) = m % 256 + 256 := ⟨(m % 256 + 256).toNat, by omega⟩
    obtain ⟨v, hv⟩ : ∃ v : ℕ, (v : ℤ) = k + (u - m) := ⟨(k + (u - m)).toNat, by omega⟩
    have hnumbered : tracker.Numbered i (some k) := h.numbered (by omega)
    have hbyte : UInt8.ofInt u = UInt8.ofNat v := ofInt_eq_ofNat (by omega)
    rw [hbyte]
    rcases lt_trichotomy m u with hlt | rfl | hgt
    · rw [hnumbered.observe_newer hnode (by omega) (by omega), ← hbyte]
      refine ⟨(if_pos hlt).symm, ?_⟩
      rw [Option.elim_some, max_eq_left hlt.le]
      exact tracks_remember u
    · obtain rfl : v = k := by omega
      rw [hnumbered.observe_duplicate hnode]
      refine ⟨((if_neg (lt_irrefl _)).trans (if_pos rfl)).symm, ?_⟩
      rw [Option.elim_some, max_self]
      exact h
    · rw [hnumbered.observe_stale hnode (by omega) (by omega)]
      refine ⟨((if_neg hgt.not_gt).trans (if_neg hgt.ne)).symm, ?_⟩
      rw [Option.elim_some, max_eq_right hgt.le]
      exact h

/-- A reset of a valid node, at its index. -/
theorem reset_eq (hnode : nodeId.toNat = i.val) :
    tracker.reset nodeId =
      { lastSequence := tracker.lastSequence.set i 0 i.isLt
        seen := tracker.seen.set i false i.isLt } := by
  obtain ⟨n, hn⟩ := i
  subst hnode
  unfold reset
  rw [dif_pos hn]

theorem tracks_reset (hnode : nodeId.toNat = i.val) : (tracker.reset nodeId).Tracks i none := by
  rw [reset_eq hnode]
  exact ⟨(SlotTable.get_set _ _ _ _).trans (if_pos rfl), nofun⟩

theorem tracks_resetAll (tracker : SequenceTracker) : tracker.resetAll.Tracks i none :=
  ⟨SlotTable.get_replicate false i, nofun⟩

/-! ### Other nodes -/

/-- Two trackers that hold the same for node `i`. -/
structure SameAt (i : Fin kMaxNodes) (tracker₁ tracker₂ : SequenceTracker) : Prop where
  seen : tracker₁.seen.get i = tracker₂.seen.get i
  sequence : tracker₁.lastSequence.get i = tracker₂.lastSequence.get i

theorem SameAt.trans {tracker₁ tracker₂ tracker₃ : SequenceTracker}
    (h : SameAt i tracker₁ tracker₂) (h' : SameAt i tracker₂ tracker₃) :
    SameAt i tracker₁ tracker₃ :=
  ⟨h.seen.trans h'.seen, h.sequence.trans h'.sequence⟩

theorem Tracks.of_sameAt {tracker' : SequenceTracker} (h : tracker.Tracks i largest)
    (hsame : SameAt i tracker' tracker) : tracker'.Tracks i largest :=
  ⟨hsame.seen.trans h.seen, fun m hm => hsame.sequence.trans (h.sequence m hm)⟩

/-- A write at another index. -/
theorem get_set_of_ne {α : Type} {j : Fin kMaxNodes} (hne : j.val ≠ i.val) (xs : Vector α kMaxNodes)
    (x : α) : (xs.set j x j.isLt).get i = xs.get i := by
  rw [SlotTable.get_set, if_neg]
  exact fun hji => hne (congrArg Fin.val hji)

/-- An observation of another node. -/
theorem sameAt_observe {nodeId' : UInt8} (hne : nodeId'.toNat ≠ i.val) (sequence : UInt8) :
    SameAt i (tracker.observe nodeId' sequence).1 tracker := by
  by_cases hlt : nodeId'.toNat < kMaxNodes
  · have hnode : nodeId'.toNat = (⟨nodeId'.toNat, hlt⟩ : Fin kMaxNodes).val := rfl
    rw [observe_eq hnode]
    split_ifs
    · exact ⟨get_set_of_ne hne _ _, get_set_of_ne hne _ _⟩
    · exact ⟨rfl, rfl⟩
    · exact ⟨rfl, get_set_of_ne hne _ _⟩
    · exact ⟨rfl, rfl⟩
  · unfold observe
    rw [dif_neg hlt]
    exact ⟨rfl, rfl⟩

/-- A reset of another node. -/
theorem sameAt_reset {nodeId' : UInt8} (hne : nodeId'.toNat ≠ i.val) :
    SameAt i (tracker.reset nodeId') tracker := by
  unfold reset
  split_ifs with hlt
  · exact ⟨get_set_of_ne (j := ⟨nodeId'.toNat, hlt⟩) hne _ _,
      get_set_of_ne (j := ⟨nodeId'.toNat, hlt⟩) hne _ _⟩
  · exact ⟨rfl, rfl⟩

/-- A call that concerns other nodes. -/
theorem sameAt_step (hnode : nodeId.toNat = i.val) {op : TrackerOp UInt8}
    (hop : ¬op.Concerns nodeId) : SameAt i (tracker.step op).1 tracker := by
  have hne : ∀ nodeId' : UInt8, nodeId' ≠ nodeId → nodeId'.toNat ≠ i.val :=
    fun nodeId' hne heq => hne (UInt8.toNat_inj.mp (heq.trans hnode.symm))
  cases op with
  | observe nodeId' sequence => exact sameAt_observe (hne nodeId' hop) sequence
  | reset nodeId' => exact sameAt_reset (hne nodeId' hop)
  | resetAll => exact absurd trivial hop

/-- Writing the same value at the same index. -/
theorem get_set_self {α : Type} (xs ys : Vector α kMaxNodes) (x : α) :
    (xs.set i x i.isLt).get i = (ys.set i x i.isLt).get i := by
  rw [SlotTable.get_set, SlotTable.get_set, if_pos rfl, if_pos rfl]

/-- What an observation answers depends on its node only. -/
theorem SameAt.observe {tracker₁ tracker₂ : SequenceTracker} (h : SameAt i tracker₁ tracker₂)
    (hnode : nodeId.toNat = i.val) (sequence : UInt8) :
    (tracker₁.observe nodeId sequence).2 = (tracker₂.observe nodeId sequence).2 ∧
      SameAt i (tracker₁.observe nodeId sequence).1 (tracker₂.observe nodeId sequence).1 := by
  rw [observe_eq hnode, observe_eq hnode, h.seen, h.sequence]
  split_ifs
  · exact ⟨rfl, get_set_self _ _ _, get_set_self _ _ _⟩
  · exact ⟨rfl, h⟩
  · exact ⟨rfl, h.seen, get_set_self _ _ _⟩
  · exact ⟨rfl, h⟩

/-- A call on the node itself keeps two trackers alike at it. -/
theorem SameAt.step {tracker₁ tracker₂ : SequenceTracker} (h : SameAt i tracker₁ tracker₂)
    (hnode : nodeId.toNat = i.val) {op : TrackerOp UInt8} (hop : op.Concerns nodeId) :
    SameAt i (tracker₁.step op).1 (tracker₂.step op).1 := by
  cases op with
  | observe nodeId' sequence =>
    obtain rfl : nodeId' = nodeId := hop
    exact (h.observe hnode sequence).2
  | reset nodeId' =>
    obtain rfl : nodeId' = nodeId := hop
    show SameAt i (tracker₁.reset nodeId') (tracker₂.reset nodeId')
    rw [reset_eq hnode, reset_eq hnode]
    exact ⟨get_set_self _ _ _, get_set_self _ _ _⟩
  | resetAll => exact ⟨rfl, rfl⟩

end SequenceTracker

/-! ### Whole runs -/

variable {nodeId : UInt8} {i : Fin kMaxNodes}

theorem TrackerOp.concerns_mapSequence {ν ν' : Type} (f : ν → ν') (op : TrackerOp ν) :
    (op.mapSequence f).Concerns nodeId ↔ op.Concerns nodeId := by
  cases op <;> exact Iff.rfl

/-- Calls that do not concern a node leave no trace at it. -/
theorem sameAt_filter (hnode : nodeId.toNat = i.val) (ops : List (TrackerOp ℤ)) :
    SequenceTracker.SameAt i (trackerAfter ops)
      (trackerAfter (ops.filter (·.Concerns nodeId))) := by
  induction ops using List.reverseRecOn with
  | nil => exact ⟨rfl, rfl⟩
  | append_singleton ops op ih =>
    rw [List.filter_append, trackerAfter_concat]
    by_cases hop : op.Concerns nodeId
    · have hkeep : [op].filter (·.Concerns nodeId) = [op] :=
        List.filter_cons_of_pos (decide_eq_true hop)
      rw [hkeep, trackerAfter_concat]
      exact ih.step hnode ((op.concerns_mapSequence _).mpr hop)
    · have hdrop : [op].filter (·.Concerns nodeId) = [] :=
        List.filter_cons_of_neg (by simpa using hop)
      rw [hdrop, List.append_nil]
      exact (SequenceTracker.sameAt_step hnode
        ((op.concerns_mapSequence _).not.mpr hop)).trans ih

/-- The beginning of a run within the window. -/
theorem InWindow.of_append {ops ops' : List (TrackerOp ℤ)} (h : InWindow nodeId (ops ++ ops')) :
    InWindow nodeId ops := by
  intro before u rest hops
  exact h before u (rest ++ ops') (by rw [hops, List.append_assoc, List.cons_append])

theorem inWindow_nil : InWindow nodeId [] := by
  intro before u rest hops
  have hlength := congrArg List.length hops
  rw [List.length_append, List.length_cons] at hlength
  cases hlength

/-- One more call within the window. -/
theorem InWindow.concat {ops : List (TrackerOp ℤ)} {op : TrackerOp ℤ} (h : InWindow nodeId ops)
    (hop : ∀ u, op = .observe nodeId u →
      ∀ m, largestObserved nodeId ops = some m → m - 128 ≤ u ∧ u ≤ m + 127) :
    InWindow nodeId (ops ++ [op]) := by
  intro before u rest hops
  rcases List.eq_nil_or_concat rest with rfl | ⟨rest, last, rfl⟩
  · obtain ⟨rfl, hlast⟩ := List.append_inj' hops rfl
    exact hop u (List.cons.inj hlast).1
  · rw [List.concat_eq_append, ← List.cons_append, ← List.append_assoc] at hops
    obtain ⟨hops, -⟩ := List.append_inj' hops rfl
    exact h before u rest hops

theorem largestObserved_concat (nodeId : UInt8) (ops : List (TrackerOp ℤ)) (op : TrackerOp ℤ) :
    largestObserved nodeId (ops ++ [op]) = largestAfter nodeId (largestObserved nodeId ops) op :=
  List.foldl_concat _ _ _ _

/-- What holds of the tracker, the largest number and the accepted ones after a run. -/
structure Ordered (nodeId : UInt8) (i : Fin kMaxNodes) (ops : List (TrackerOp ℤ)) : Prop where
  tracks : (trackerAfter ops).Tracks i (largestObserved nodeId ops)
  increasing : (acceptedNumbers nodeId ops).Pairwise (· < ·)
  bounded : ∀ a ∈ acceptedNumbers nodeId ops, ∃ m, largestObserved nodeId ops = some m ∧ a ≤ m

theorem Ordered.start (nodeId : UInt8) (i : Fin kMaxNodes) : Ordered nodeId i [] where
  tracks := SequenceTracker.tracks_start i
  increasing := List.Pairwise.nil
  bounded _ ha := nomatch ha

theorem Ordered.observe {ops : List (TrackerOp ℤ)} (h : Ordered nodeId i ops)
    (hnode : nodeId.toNat = i.val) {u : ℤ}
    (hwindow : ∀ m, largestObserved nodeId ops = some m → m - 128 ≤ u ∧ u ≤ m + 127) :
    Ordered nodeId i (ops ++ [.observe nodeId u]) := by
  obtain ⟨hstate, htracks⟩ := h.tracks.observe hnode hwindow
  have hlargest : largestObserved nodeId (ops ++ [.observe nodeId u]) =
      some ((largestObserved nodeId ops).elim u (max u)) := by
    rw [largestObserved_concat]
    exact if_pos rfl
  have haccepted : acceptedNumbers nodeId (ops ++ [.observe nodeId u]) =
      if (classify (largestObserved nodeId ops) u).accepts then acceptedNumbers nodeId ops ++ [u]
      else acceptedNumbers nodeId ops := by
    rw [acceptedNumbers_concat, ← hstate]
    exact if_congr (and_iff_right rfl) rfl rfl
  refine ⟨?_, ?_, ?_⟩
  · rw [trackerAfter_concat, hlargest]
    exact htracks
  · rw [haccepted]
    split_ifs with haccepts
    · -- an accepted number exceeds all that were accepted before
      rw [List.pairwise_append]
      refine ⟨h.increasing, List.pairwise_singleton _ _, fun a ha b hb => ?_⟩
      obtain rfl := List.mem_singleton.mp hb
      obtain ⟨m, hm, hle⟩ := h.bounded a ha
      exact hle.trans_lt ((classify_accepts_iff _ _).mp haccepts m hm)
    · exact h.increasing
  · intro a ha
    refine ⟨_, hlargest, ?_⟩
    have hmem : a ∈ acceptedNumbers nodeId ops ∨ a = u := by
      rw [haccepted] at ha
      split_ifs at ha
      · rwa [List.mem_append, List.mem_singleton] at ha
      · exact Or.inl ha
    rcases hmem with hold | rfl
    · obtain ⟨m, hm, hle⟩ := h.bounded a hold
      rw [hm]
      exact hle.trans (le_max_right u m)
    · cases largestObserved nodeId ops with
      | none => exact le_refl _
      | some m => exact le_max_left _ m

/-- After a reset nothing has been observed. -/
theorem Ordered.of_reset {ops : List (TrackerOp ℤ)} (htracks : (trackerAfter ops).Tracks i none)
    (hnone : largestObserved nodeId ops = none) (hnil : acceptedNumbers nodeId ops = []) :
    Ordered nodeId i ops where
  tracks := by rwa [hnone]
  increasing := by
    rw [hnil]
    exact List.Pairwise.nil
  bounded a ha := by
    rw [hnil] at ha
    cases ha

/-- A call on another node. -/
theorem Ordered.other {ops : List (TrackerOp ℤ)} (h : Ordered nodeId i ops)
    (hnode : nodeId.toNat = i.val) {op : TrackerOp ℤ} (hop : ¬op.Concerns nodeId) :
    Ordered nodeId i (ops ++ [op]) := by
  have hlargest : largestObserved nodeId (ops ++ [op]) = largestObserved nodeId ops := by
    rw [largestObserved_concat]
    cases op with
    | resetAll => exact absurd trivial hop
    | _ => exact if_neg hop
  have haccepted : acceptedNumbers nodeId (ops ++ [op]) = acceptedNumbers nodeId ops := by
    rw [acceptedNumbers_concat]
    cases op with
    | observe nodeId' u => exact if_neg fun hand => hop hand.1
    | reset nodeId' => exact if_neg hop
    | resetAll => exact absurd trivial hop
  refine ⟨?_, ?_, ?_⟩
  · rw [hlargest, trackerAfter_concat]
    exact h.tracks.of_sameAt
      (SequenceTracker.sameAt_step hnode ((op.concerns_mapSequence _).not.mpr hop))
  · rw [haccepted]
    exact h.increasing
  · rw [haccepted, hlargest]
    exact h.bounded

/-- **Every call within the window keeps the order.** -/
protected theorem Ordered.step {ops : List (TrackerOp ℤ)} (h : Ordered nodeId i ops)
    (hnode : nodeId.toNat = i.val) (op : TrackerOp ℤ) (hwindow : InWindow nodeId (ops ++ [op])) :
    Ordered nodeId i (ops ++ [op]) := by
  by_cases hop : op.Concerns nodeId
  · have htracker := trackerAfter_concat ops op
    have hlargest := largestObserved_concat nodeId ops op
    have haccepted := acceptedNumbers_concat nodeId ops op
    cases op with
    | observe nodeId' u =>
      obtain rfl : nodeId' = nodeId := hop
      exact h.observe hnode (hwindow ops u [] rfl)
    | reset nodeId' =>
      obtain rfl : nodeId' = nodeId := hop
      refine Ordered.of_reset ?_ (hlargest.trans (if_pos rfl)) (haccepted.trans (if_pos rfl))
      rw [htracker]
      exact SequenceTracker.tracks_reset hnode
    | resetAll =>
      refine Ordered.of_reset ?_ hlargest haccepted
      rw [htracker]
      exact SequenceTracker.tracks_resetAll (trackerAfter ops)
  · exact h.other hnode hop

theorem ordered_after (hnode : nodeId.toNat = i.val) {ops : List (TrackerOp ℤ)}
    (hwindow : InWindow nodeId ops) : Ordered nodeId i ops := by
  induction ops using List.reverseRecOn with
  | nil => exact Ordered.start nodeId i
  | append_singleton ops op ih => exact (ih hwindow.of_append).step hnode op hwindow

/-- **Modulo-256 tracking is unbounded numbering.**  As long as the numbers observed
for a node stay within the window, the tracker answers each observation like
`classify`, and the numbers it accepts between two resets are strictly
increasing.  Whatever the numbers are, what it answers for a node depends on the
calls that concern this node only. -/
theorem sequence_numbering (nodeId : UInt8) (hnode : nodeId.toNat < kMaxNodes) :
    (∀ ops : List (TrackerOp ℤ), InWindow nodeId ops →
      (∀ before u rest, ops = before ++ .observe nodeId u :: rest →
        ((trackerAfter before).observe nodeId (UInt8.ofInt u)).2 =
          classify (largestObserved nodeId before) u) ∧
      ∀ before, before <+: ops → (acceptedNumbers nodeId before).Pairwise (· < ·)) ∧
    ∀ (ops : List (TrackerOp ℤ)) (sequence : UInt8),
      ((trackerAfter ops).observe nodeId sequence).2 =
        ((trackerAfter (ops.filter (·.Concerns nodeId))).observe nodeId sequence).2 := by
  have hindex : nodeId.toNat = (⟨nodeId.toNat, hnode⟩ : Fin kMaxNodes).val := rfl
  refine ⟨fun ops hwindow => ⟨?_, ?_⟩, fun ops sequence => ?_⟩
  · rintro before u rest rfl
    exact ((ordered_after hindex hwindow.of_append).tracks.observe hindex
      (hwindow before u rest rfl)).1
  · rintro before ⟨rest, rfl⟩
    exact (ordered_after hindex hwindow.of_append).increasing
  · exact ((sameAt_filter hindex ops).observe hindex sequence).1

/-- Two numbers of node 3 across the wrap, with an observation of another node in
between. -/
theorem sequence_numbering_example :
    let ops : List (TrackerOp ℤ) := [.observe 3 255, .observe 40 7, .observe 3 256]
    InWindow 3 ops ∧ (acceptedNumbers 3 ops).Pairwise (· < ·) := by
  intro ops
  have hfirst : InWindow 3 [.observe 3 255] := inWindow_nil.concat fun u _ m hm => nomatch hm
  have hother : InWindow 3 [.observe 3 255, .observe 40 7] := hfirst.concat fun u hu => nomatch hu
  have hwindow : InWindow 3 ops := by
    apply hother.concat
    intro u hu m hm
    obtain ⟨-, rfl⟩ := TrackerOp.observe.inj hu
    obtain rfl : 255 = m := Option.some.inj hm
    decide
  exact ⟨hwindow, ((sequence_numbering 3 (by decide)).1 ops hwindow).2 ops (List.prefix_refl _)⟩

end PicoMesh
