import PicoMesh.NodeRegistry
import PicoMesh.Library.SerialNumber
import PicoMesh.Library.SlotTable

/-!
# The registry over true time

Every call happens at a true time, a natural number, and passes it modulo 2^32.
`timedRegistry` runs the registry with history variables: when each node was
last heard, and whether a refresh has since then found it offline.

`refresh` decides from the modular elapsed time alone.  A node that stays
silent for a whole turn of the clock is therefore found within the timeout
again: `stays_offline_iff` says exactly which refreshes do that, and
`offline_node_revives` shows one.
-/

namespace PicoMesh

open SerialNumber

/-! ### What the operations write -/

namespace NodeRegistry

variable (registry : NodeRegistry) (nodeId sequence : UInt8) (nowMs : UInt32) (i : Fin kMaxNodes)

/-- The status an accepted observation writes. -/
def heardStatus (nodeId sequence : UInt8) (nowMs : UInt32) : NodeStatus :=
  { nodeId := nodeId, lastSequence := sequence, lastSeenMs := nowMs, online := true }

theorem observe_of_ge (h : nodeId.toNat ≥ kMaxNodes) :
    registry.observe nodeId sequence nowMs = (registry, false) := dif_pos h

theorem observe_of_lt (h : nodeId.toNat < kMaxNodes) :
    registry.observe nodeId sequence nowMs =
      ({ registry with
          nodes := registry.nodes.set nodeId.toNat (heardStatus nodeId sequence nowMs) h
          present := registry.present.set nodeId.toNat true h }, true) :=
  dif_neg (Nat.not_le_of_lt h)

/-- The write of an observation, at every index. -/
theorem nodes_observe :
    (registry.observe nodeId sequence nowMs).1.nodes.get i =
      if nodeId.toNat = i.val then heardStatus nodeId sequence nowMs else registry.nodes.get i := by
  rcases lt_or_ge nodeId.toNat kMaxNodes with h | h
  · rw [observe_of_lt registry nodeId sequence nowMs h]
    exact Vector.getElem_set h i.isLt
  · rw [observe_of_ge registry nodeId sequence nowMs h, if_neg (by omega)]

theorem present_observe :
    (registry.observe nodeId sequence nowMs).1.present.get i =
      if nodeId.toNat = i.val then true else registry.present.get i := by
  rcases lt_or_ge nodeId.toNat kMaxNodes with h | h
  · rw [observe_of_lt registry nodeId sequence nowMs h]
    exact Vector.getElem_set h i.isLt
  · rw [observe_of_ge registry nodeId sequence nowMs h, if_neg (by omega)]

theorem timeoutMs_observe :
    (registry.observe nodeId sequence nowMs).1.timeoutMs = registry.timeoutMs := by
  unfold observe
  split_ifs <;> rfl

theorem nodes_refresh :
    (registry.refresh nowMs).nodes.get i =
      if registry.present.get i then
        { registry.nodes.get i with
          online := decide (nowMs - (registry.nodes.get i).lastSeenMs ≤ registry.timeoutMs) }
      else registry.nodes.get i := by
  unfold refresh
  refine (Vector.getElem_ofFn i.isLt).trans ?_
  cases registry.present.get i <;> rfl

theorem present_refresh : (registry.refresh nowMs).present = registry.present := by
  simp only [refresh]

theorem timeoutMs_refresh : (registry.refresh nowMs).timeoutMs = registry.timeoutMs := by
  simp only [refresh]

theorem lastSeenMs_refresh :
    ((registry.refresh nowMs).nodes.get i).lastSeenMs = (registry.nodes.get i).lastSeenMs := by
  rw [nodes_refresh, apply_ite NodeStatus.lastSeenMs]
  exact ite_self _

end NodeRegistry

/-! ### True time -/

/-- The time a call is made at, for the calls that read the clock. -/
def RegistryOp.calledAt {τ : Type} : RegistryOp τ → Option τ
  | .observe _ _ nowMs => some nowMs
  | .refresh nowMs => some nowMs
  | _ => none

/-- The registry with history variables. -/
structure TimedRegistry where
  registry : NodeRegistry
  /-- The true time of each node's last observation. -/
  heard : Fin kMaxNodes → Option ℕ
  /-- Whether a refresh since then has set the node's online flag to false. -/
  offline : Fin kMaxNodes → Bool
  /-- The time of the last call. -/
  now : ℕ

/-- When each node was last heard, after a call. -/
def TimedRegistry.hear (s : TimedRegistry) : RegistryOp ℕ → Fin kMaxNodes → Option ℕ
  | .observe nodeId _ t => fun i => if nodeId.toNat = i.val then some t else s.heard i
  | _ => s.heard

/-- Which nodes have been found offline since they were last heard, after a call
that leaves `registry` behind. -/
def TimedRegistry.find (s : TimedRegistry) (registry : NodeRegistry) :
    RegistryOp ℕ → Fin kMaxNodes → Bool
  | .observe nodeId _ _ => fun i => if nodeId.toNat = i.val then false else s.offline i
  | .refresh _ => fun i => s.offline i || registry.present.get i && !(registry.nodes.get i).online
  | _ => s.offline

/-- The registry driven at true times, which it sees modulo 2^32. -/
def timedRegistry (timeoutMs : UInt32) : Mealy TimedRegistry (RegistryOp ℕ) RegistryReply where
  start := ⟨.new timeoutMs, fun _ => none, fun _ => false, 0⟩
  step s op :=
    ({ registry := (s.registry.step (op.mapTime UInt32.ofNat)).1
       heard := s.hear op
       offline := s.find (s.registry.step (op.mapTime UInt32.ofNat)).1 op
       now := op.calledAt.getD s.now },
      (s.registry.step (op.mapTime UInt32.ofNat)).2)

/-- The registry and its history after a run. -/
def timedRegistryAfter (timeoutMs : UInt32) (ops : List (RegistryOp ℕ)) : TimedRegistry :=
  (timedRegistry timeoutMs).run (timedRegistry timeoutMs).start ops

theorem timedRegistryAfter_concat (timeoutMs : UInt32) (ops : List (RegistryOp ℕ))
    (op : RegistryOp ℕ) :
    timedRegistryAfter timeoutMs (ops ++ [op]) =
      ((timedRegistry timeoutMs).step (timedRegistryAfter timeoutMs ops) op).1 :=
  Mealy.run_concat _ _ _ _

namespace TimedRegistry

variable {timeoutMs : UInt32} {s : TimedRegistry}

/-- What holds of the history after every run. -/
structure Consistent (timeoutMs : UInt32) (s : TimedRegistry) : Prop where
  timeout : s.registry.timeoutMs = timeoutMs
  present : ∀ i : Fin kMaxNodes, s.registry.present.get i = (s.heard i).isSome
  /-- The stored time is the true one modulo 2^32. -/
  seen : ∀ i : Fin kMaxNodes, ∀ u, s.heard i = some u →
    (s.registry.nodes.get i).lastSeenMs = UInt32.ofNat u ∧ u ≤ s.now
  /-- A node found offline was silent for longer than the timeout. -/
  lapsed : ∀ i : Fin kMaxNodes, s.offline i = true →
    ∃ u, s.heard i = some u ∧ u + timeoutMs.toNat < s.now

/-- `refresh` finds a node within the timeout exactly when the true time is
within the timeout after a whole number of turns of the clock. -/
theorem online_refresh_iff {i : Fin kMaxNodes} {u t : ℕ} (h : s.Consistent timeoutMs)
    (hu : s.heard i = some u) (ht : s.now ≤ t) :
    ((s.registry.refresh (UInt32.ofNat t)).nodes.get i).online = true ↔
      ∃ turns, u + turns * 2 ^ 32 ≤ t ∧ t ≤ u + turns * 2 ^ 32 + timeoutMs.toNat := by
  obtain ⟨hseen, hle⟩ := h.seen i u hu
  have hpresent : s.registry.present.get i = true := by
    rw [h.present i, hu]
    rfl
  rw [NodeRegistry.nodes_refresh, if_pos hpresent, h.timeout]
  show decide _ = true ↔ _
  rw [decide_eq_true_iff, hseen, UInt32.le_iff_toNat_le, toNat_uint32_sub,
    forwardDistance_le_iff (hle.trans ht)]

/-- A node found offline stays offline at a refresh exactly when the refresh does
not come within the timeout after a whole number of turns, at least one. -/
theorem online_refresh_of_offline {i : Fin kMaxNodes} {u t : ℕ} (h : s.Consistent timeoutMs)
    (hoffline : s.offline i = true) (hu : s.heard i = some u) (ht : s.now ≤ t) :
    ((s.registry.refresh (UInt32.ofNat t)).nodes.get i).online = false ↔
      ∀ turns, 1 ≤ turns →
        ¬(u + turns * 2 ^ 32 ≤ t ∧ t ≤ u + turns * 2 ^ 32 + timeoutMs.toNat) := by
  obtain ⟨u', hu', hlapsed⟩ := h.lapsed i hoffline
  obtain rfl : u = u' := Option.some.inj (hu.symm.trans hu')
  rw [← Bool.not_eq_true, online_refresh_iff h hu ht, not_exists]
  constructor
  · intro hno turns _
    exact hno turns
  · intro hno turns
    rcases Nat.eq_zero_or_pos turns with rfl | hpos
    · -- no turn: the node was found offline, so the timeout has passed
      omega
    · exact hno turns hpos

theorem Consistent.observe (h : s.Consistent timeoutMs) (nodeId sequence : UInt8) {t : ℕ}
    (hnow : s.now ≤ t) :
    ((timedRegistry timeoutMs).step s (.observe nodeId sequence t)).1.Consistent timeoutMs where
  timeout := (NodeRegistry.timeoutMs_observe _ _ _ _).trans h.timeout
  present i := by
    show (s.registry.observe nodeId sequence (UInt32.ofNat t)).1.present.get i =
      Option.isSome (if nodeId.toNat = i.val then some t else s.heard i)
    rw [NodeRegistry.present_observe]
    split_ifs
    · rfl
    · exact h.present i
  seen i u hu := by
    change (if nodeId.toNat = i.val then some t else s.heard i) = some u at hu
    show ((s.registry.observe nodeId sequence (UInt32.ofNat t)).1.nodes.get i).lastSeenMs = _ ∧
      u ≤ t
    rw [NodeRegistry.nodes_observe]
    split_ifs at hu ⊢
    · obtain rfl := Option.some.inj hu
      exact ⟨rfl, le_refl _⟩
    · exact ⟨(h.seen i u hu).1, (h.seen i u hu).2.trans hnow⟩
  lapsed i hoffline := by
    change (if nodeId.toNat = i.val then false else s.offline i) = true at hoffline
    show ∃ u, (if nodeId.toNat = i.val then some t else s.heard i) = some u ∧ _ < t
    -- the observed node itself is no longer offline
    split_ifs at hoffline ⊢
    obtain ⟨u, hu, hlapsed⟩ := h.lapsed i hoffline
    exact ⟨u, hu, by omega⟩

/-- A node that a refresh finds offline has been silent for more than the
timeout. -/
theorem lapsed_of_offline {i : Fin kMaxNodes} {t : ℕ} (h : s.Consistent timeoutMs)
    (hnow : s.now ≤ t) (hpresent : s.registry.present.get i = true)
    (hoffline : ((s.registry.refresh (UInt32.ofNat t)).nodes.get i).online = false) :
    ∃ u, s.heard i = some u ∧ u + timeoutMs.toNat < t := by
  rw [h.present i] at hpresent
  obtain ⟨u, hu⟩ := Option.isSome_iff_exists.mp hpresent
  refine ⟨u, hu, ?_⟩
  -- within the timeout no turn of the clock is needed to be found online
  by_contra hle
  have hheard := (h.seen i u hu).2
  have honline := (online_refresh_iff h hu hnow).mpr ⟨0, by omega, by omega⟩
  rw [hoffline] at honline
  cases honline

theorem Consistent.refresh (h : s.Consistent timeoutMs) {t : ℕ} (hnow : s.now ≤ t) :
    ((timedRegistry timeoutMs).step s (.refresh t)).1.Consistent timeoutMs where
  timeout := (NodeRegistry.timeoutMs_refresh _ _).trans h.timeout
  present i := by
    show (s.registry.refresh (UInt32.ofNat t)).present.get i = (s.heard i).isSome
    rw [NodeRegistry.present_refresh]
    exact h.present i
  seen i u hu := by
    show ((s.registry.refresh (UInt32.ofNat t)).nodes.get i).lastSeenMs = _ ∧ u ≤ t
    obtain ⟨hseen, hle⟩ := h.seen i u hu
    rw [NodeRegistry.lastSeenMs_refresh]
    exact ⟨hseen, hle.trans hnow⟩
  lapsed i hoffline := by
    have hfind : (s.offline i || (s.registry.refresh (UInt32.ofNat t)).present.get i &&
        !((s.registry.refresh (UInt32.ofNat t)).nodes.get i).online) = true := hoffline
    rw [NodeRegistry.present_refresh, Bool.or_eq_true_iff, Bool.and_eq_true_iff,
      Bool.not_eq_true'] at hfind
    show ∃ u, s.heard i = some u ∧ _ < t
    rcases hfind with hbefore | ⟨hpresent, hfound⟩
    · obtain ⟨u, hu, hlapsed⟩ := h.lapsed i hbefore
      exact ⟨u, hu, by omega⟩
    · exact lapsed_of_offline h hnow hpresent hfound

theorem Consistent.step (h : s.Consistent timeoutMs) (op : RegistryOp ℕ)
    (hop : ∀ t, op.calledAt = some t → s.now ≤ t) :
    ((timedRegistry timeoutMs).step s op).1.Consistent timeoutMs := by
  cases op with
  | observe nodeId sequence t => exact h.observe nodeId sequence (hop t rfl)
  | refresh t => exact h.refresh (hop t rfl)
  | get nodeId => exact ⟨h.timeout, h.present, h.seen, h.lapsed⟩
  | onlineCount => exact ⟨h.timeout, h.present, h.seen, h.lapsed⟩

/-- A node found offline, and not heard since, is offline and not counted. -/
def OfflineKept (s : TimedRegistry) : Prop :=
  ∀ i : Fin kMaxNodes, s.offline i = true →
    (s.registry.nodes.get i).online = false ∧ s.registry.counts i = false

/-- The call is no refresh that comes within the timeout after a whole number of
clock turns, at least one, of silence of a node found offline before. -/
def Harmless (timeoutMs : UInt32) (s : TimedRegistry) (op : RegistryOp ℕ) : Prop :=
  ∀ t, op = .refresh t → ∀ i u, s.offline i = true → s.heard i = some u →
    ∀ turns, 1 ≤ turns → ¬(u + turns * 2 ^ 32 ≤ t ∧ t ≤ u + turns * 2 ^ 32 + timeoutMs.toNat)

theorem offlineKept_iff :
    s.OfflineKept ↔ ∀ i : Fin kMaxNodes, s.offline i = true →
      (s.registry.nodes.get i).online = false := by
  constructor
  · intro h i hi
    exact (h i hi).1
  · intro h i hi
    refine ⟨h i hi, ?_⟩
    unfold NodeRegistry.counts
    rw [h i hi, Bool.and_false]

/-- A harmless call keeps nodes found offline that way. -/
theorem OfflineKept.step (h : s.OfflineKept) (hs : s.Consistent timeoutMs) {op : RegistryOp ℕ}
    (hop : ∀ t, op.calledAt = some t → s.now ≤ t) (hharmless : s.Harmless timeoutMs op) :
    ((timedRegistry timeoutMs).step s op).1.OfflineKept := by
  rw [offlineKept_iff] at h ⊢
  intro i hi
  cases op with
  | observe nodeId sequence t =>
    change (if nodeId.toNat = i.val then false else s.offline i) = true at hi
    show ((s.registry.observe nodeId sequence (UInt32.ofNat t)).1.nodes.get i).online = false
    rw [NodeRegistry.nodes_observe]
    split_ifs at hi ⊢
    exact h i hi
  | refresh t =>
    have hfind : (s.offline i || (s.registry.refresh (UInt32.ofNat t)).present.get i &&
        !((s.registry.refresh (UInt32.ofNat t)).nodes.get i).online) = true := hi
    rw [Bool.or_eq_true_iff, Bool.and_eq_true_iff, Bool.not_eq_true'] at hfind
    show ((s.registry.refresh (UInt32.ofNat t)).nodes.get i).online = false
    rcases hfind with hbefore | ⟨-, hfound⟩
    · -- found offline before: this refresh is harmless, so it says the same
      obtain ⟨u, hu, -⟩ := hs.lapsed i hbefore
      rw [online_refresh_of_offline hs hbefore hu (hop t rfl)]
      exact hharmless t rfl i u hbefore hu
    · exact hfound
  | get nodeId => exact h i hi
  | onlineCount => exact h i hi

/-- A refresh that keeps nodes found offline that way was harmless. -/
theorem harmless_of_offlineKept (hs : s.Consistent timeoutMs) {op : RegistryOp ℕ}
    (hop : ∀ t, op.calledAt = some t → s.now ≤ t)
    (h : ((timedRegistry timeoutMs).step s op).1.OfflineKept) : s.Harmless timeoutMs op := by
  rintro t rfl i u hi hu
  rw [← online_refresh_of_offline hs hi hu (hop t rfl)]
  rw [offlineKept_iff] at h
  apply h i
  show (s.offline i || _) = true
  rw [hi, Bool.true_or]

end TimedRegistry

/-- In every state of the run a node found offline stays so until it is heard. -/
def StaysOffline (timeoutMs : UInt32) (ops : List (RegistryOp ℕ)) : Prop :=
  ∀ before rest, ops = before ++ rest → (timedRegistryAfter timeoutMs before).OfflineKept

section

variable {timeoutMs : UInt32} {ops : List (RegistryOp ℕ)}

theorem registry_along_inOrder (hops : Mealy.NonDecreasing RegistryOp.calledAt ops) :
    (timedRegistry timeoutMs).Along (fun s op => ∀ t, op.calledAt = some t → s.now ≤ t)
      (timedRegistry timeoutMs).start ops :=
  Mealy.along_of_nonDecreasing
    (show ∀ s op, ((timedRegistry timeoutMs).step s op).1.now = op.calledAt.getD s.now
      from fun _ _ => rfl) hops fun t _ => Nat.zero_le t

theorem consistent_start : (timedRegistry timeoutMs).start.Consistent timeoutMs :=
  ⟨rfl, SlotTable.get_replicate false, fun _ _ hu => (nomatch hu),
    fun _ hi => nomatch hi⟩

theorem consistent_after (hops : Mealy.NonDecreasing RegistryOp.calledAt ops) :
    (timedRegistryAfter timeoutMs ops).Consistent timeoutMs := by
  apply (timedRegistry timeoutMs).along_invariant
  · intro s op h hop
    exact h.step op hop
  · exact consistent_start
  · exact registry_along_inOrder hops

end

/-- **When an offline node stays offline.**  Over a run at non-decreasing true
times, a node that a refresh has set offline is offline and uncounted in every
later state until it is heard, exactly when no refresh comes within the timeout
after a whole number, at least one, of turns of the 32-bit clock since the last
observation of a node that an earlier refresh had set offline. -/
theorem stays_offline_iff (timeoutMs : UInt32) (ops : List (RegistryOp ℕ))
    (hops : Mealy.NonDecreasing RegistryOp.calledAt ops) :
    StaysOffline timeoutMs ops ↔
      ∀ before t rest, ops = before ++ .refresh t :: rest →
        ∀ i u, (timedRegistryAfter timeoutMs before).offline i = true →
          (timedRegistryAfter timeoutMs before).heard i = some u →
          ∀ turns, 1 ≤ turns →
            ¬(u + turns * 2 ^ 32 ≤ t ∧ t ≤ u + turns * 2 ^ 32 + timeoutMs.toNat) := by
  have horder : (timedRegistry timeoutMs).Along _ (timedRegistry timeoutMs).start ops :=
    registry_along_inOrder hops
  constructor
  · rintro hstays before t rest rfl
    rw [Mealy.along_append] at horder
    apply TimedRegistry.harmless_of_offlineKept (consistent_after hops.of_append) horder.2.1 _ t rfl
    rw [← timedRegistryAfter_concat]
    exact hstays _ rest (by rw [List.append_assoc, List.singleton_append])
  · rintro hharmless before rest rfl
    -- every step of the run up to here was in order and harmless
    have hsteps : (timedRegistry timeoutMs).Along
        (fun s op => (∀ t, op.calledAt = some t → s.now ≤ t) ∧ s.Harmless timeoutMs op)
        (timedRegistry timeoutMs).start before := by
      rw [Mealy.along_append] at horder
      rw [Mealy.along_iff]
      rintro start op later rfl
      refine ⟨(Mealy.along_iff _ _ _ _).mp horder.1 start op later rfl, ?_⟩
      rintro t rfl
      exact hharmless start t (later ++ rest) (by rw [List.append_assoc, List.cons_append])
    have hinvariant := (timedRegistry timeoutMs).along_invariant
      (I := fun s => s.Consistent timeoutMs ∧ s.OfflineKept)
      (fun s op h hop => ⟨h.1.step op hop.1, h.2.step h.1 hop.1 hop.2⟩)
      ⟨consistent_start, fun _ hi => nomatch hi⟩ hsteps
    exact hinvariant.2

/-- **A silent node comes back online.**  It is heard at time 0, found offline at
time 1001 with a timeout of 1000, and reported online again when the 32-bit clock
has gone round. -/
theorem offline_node_revives :
    ¬∀ (timeoutMs : UInt32) (ops : List (RegistryOp ℕ)), timeoutMs.toNat < 2 ^ 32 - 1 →
      Mealy.NonDecreasing RegistryOp.calledAt ops → StaysOffline timeoutMs ops := by
  intro halways
  have hstays := halways 1000 [.observe 0 0 0, .refresh 1001, .refresh 4294967296] (by decide)
    (by decide)
  have hkept := hstays _ [] (List.append_nil _).symm 0
  revert hkept
  decide

/-- A node that stays silent for ten timeouts stays offline. -/
theorem stays_offline_iff_example :
    StaysOffline 1000 [.observe 0 0 0, .refresh 1001, .refresh 10000] := by
  apply (stays_offline_iff 1000 [.observe 0 0 0, .refresh 1001, .refresh 10000] (by decide)).mpr
  intro before t rest hsplit i u _ _ turns hturns
  have ht : RegistryOp.refresh t ∈ [.observe 0 0 0, .refresh 1001, .refresh 10000] := by
    rw [hsplit]
    exact List.mem_append_right before List.mem_cons_self
  simp only [List.mem_cons, RegistryOp.refresh.injEq, List.not_mem_nil, or_false,
    reduceCtorEq, false_or] at ht
  omega

end PicoMesh
