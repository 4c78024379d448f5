import Mathlib.Data.List.Induction
import PicoMesh.Equiv.NodeRegistry

/-!
# What the registry reports

`lastHeard` is what the registry is for: the latest observation of a node and the
latest refresh after it, read off the calls alone.  While every refresh comes
less than a turn of the 32-bit clock after the latest observation of each node,
the two arrays of the registry say just that (`Knows.step`), and so do `get` and
`online_count` (`registry_accuracy`).
-/

namespace PicoMesh

open SerialNumber

/-! ### What the calls say about a node -/

/-- The latest observation of a node. -/
structure Heard where
  sequence : UInt8
  time : ℕ
  /-- The time of the latest refresh since then. -/
  refreshed : Option ℕ
  deriving DecidableEq, Repr

/-- The latest observation of a node, after a call. -/
def hearAfter (nodeId : UInt8) (heard : Option Heard) : RegistryOp ℕ → Option Heard
  | .observe nodeId' sequence t => if nodeId' = nodeId then some ⟨sequence, t, none⟩ else heard
  | .refresh t => heard.map fun last => { last with refreshed := some t }
  | .get _ => heard
  | .onlineCount => heard

/-- The latest observation of a node in a run of calls. -/
def lastHeard (nodeId : UInt8) (ops : List (RegistryOp ℕ)) : Option Heard :=
  ops.foldl (hearAfter nodeId) none

theorem lastHeard_concat (nodeId : UInt8) (ops : List (RegistryOp ℕ)) (op : RegistryOp ℕ) :
    lastHeard nodeId (ops ++ [op]) = hearAfter nodeId (lastHeard nodeId ops) op :=
  List.foldl_concat _ _ _ _

/-- The status to report: online unless the latest refresh since the observation came
more than the timeout after it. -/
def Heard.status (last : Heard) (nodeId : UInt8) (timeoutMs : UInt32) : NodeStatus where
  nodeId := nodeId
  lastSequence := last.sequence
  lastSeenMs := UInt32.ofNat last.time
  online := last.refreshed.all fun t => decide (t - last.time ≤ timeoutMs.toNat)

/-- At every refresh each node was heard less than 2^32 ms ago, if ever. -/
def HeardRecently (ops : List (RegistryOp ℕ)) : Prop :=
  ∀ before t rest, ops = before ++ .refresh t :: rest →
    ∀ nodeId last, nodeId.toNat < kMaxNodes → lastHeard nodeId before = some last →
      t < last.time + 2 ^ 32

theorem HeardRecently.of_append {ops ops' : List (RegistryOp ℕ)} (h : HeardRecently (ops ++ ops')) :
    HeardRecently ops := by
  intro before t rest hops
  exact h before t (rest ++ ops') (by rw [hops, List.append_assoc, List.cons_append])

/-- What is heard of a node was observed. -/
theorem mem_of_lastHeard {nodeId : UInt8} {ops : List (RegistryOp ℕ)} {last : Heard}
    (h : lastHeard nodeId ops = some last) : .observe nodeId last.sequence last.time ∈ ops := by
  induction ops using List.reverseRecOn generalizing last with
  | nil => cases h
  | append_singleton ops op ih =>
    rw [lastHeard_concat] at h
    rw [List.mem_append, List.mem_singleton]
    cases op with
    | observe nodeId' sequence t =>
      simp only [hearAfter] at h
      split_ifs at h with hnode
      · obtain rfl := Option.some.inj h
        exact .inr (by rw [hnode])
      · exact .inl (ih h)
    | refresh t =>
      obtain ⟨last', hlast', rfl⟩ := Option.map_eq_some_iff.mp h
      have hmem := ih hlast'
      exact .inl hmem
    | get nodeId' => exact .inl (ih h)
    | onlineCount => exact .inl (ih h)

/-- A node that was observed is heard of ever after. -/
theorem isSome_lastHeard {nodeId : UInt8} {ops : List (RegistryOp ℕ)} {sequence : UInt8} {t : ℕ}
    (h : .observe nodeId sequence t ∈ ops) : (lastHeard nodeId ops).isSome = true := by
  induction ops using List.reverseRecOn with
  | nil => cases h
  | append_singleton ops op ih =>
    rw [lastHeard_concat]
    rw [List.mem_append, List.mem_singleton] at h
    rcases h with hbefore | rfl
    · cases op with
      | observe nodeId' sequence' t' =>
        simp only [hearAfter]
        split_ifs
        · rfl
        · exact ih hbefore
      | refresh t' =>
        rw [hearAfter, Option.isSome_map]
        exact ih hbefore
      | get nodeId' => exact ih hbefore
      | onlineCount => exact ih hbefore
    · rw [hearAfter, if_pos rfl]
      rfl

theorem lastHeard_eq_none_iff {nodeId : UInt8} {ops : List (RegistryOp ℕ)} :
    lastHeard nodeId ops = none ↔ ∀ sequence t, .observe nodeId sequence t ∉ ops := by
  constructor
  · intro hnone sequence t hmem
    have hsome := isSome_lastHeard hmem
    rw [hnone] at hsome
    cases hsome
  · intro hnever
    cases hlast : lastHeard nodeId ops with
    | none => rfl
    | some last => exact absurd (mem_of_lastHeard hlast) (hnever _ _)

/-- A later call is not before the observation. -/
theorem time_le_of_lastHeard {nodeId : UInt8} {ops : List (RegistryOp ℕ)} {op : RegistryOp ℕ}
    {last : Heard} {t : ℕ} (hops : Mealy.NonDecreasing RegistryOp.calledAt (ops ++ [op]))
    (hop : op.calledAt = some t) (h : lastHeard nodeId ops = some last) : last.time ≤ t := by
  unfold Mealy.NonDecreasing at hops
  rw [List.filterMap_append, List.pairwise_append] at hops
  apply hops.2.2
  · exact List.mem_filterMap.mpr ⟨_, mem_of_lastHeard h, rfl⟩
  · exact List.mem_filterMap.mpr ⟨op, List.mem_singleton_self op, hop⟩

/-! ### What the registry knows -/

namespace NodeRegistry

/-- The registry holds what was heard of a node. -/
structure Knows (registry : NodeRegistry) (timeoutMs : UInt32) (nodeId : UInt8)
    (heard : Option Heard) (i : Fin kMaxNodes) : Prop where
  timeout : registry.timeoutMs = timeoutMs
  present : registry.present.get i = heard.isSome
  node : ∀ last, heard = some last → registry.nodes.get i = last.status nodeId timeoutMs

variable {registry : NodeRegistry} {timeoutMs : UInt32} {nodeId : UInt8} {heard : Option Heard}
  {i : Fin kMaxNodes}

theorem knows_new (timeoutMs : UInt32) (nodeId : UInt8) (i : Fin kMaxNodes) :
    Knows (new timeoutMs) timeoutMs nodeId none i where
  timeout := rfl
  present := SlotTable.get_replicate false i
  node _ h := nomatch h

theorem Knows.observe (h : registry.Knows timeoutMs nodeId heard i) (hnode : nodeId.toNat = i.val)
    (nodeId' sequence : UInt8) (t : ℕ) :
    (registry.observe nodeId' sequence (UInt32.ofNat t)).1.Knows timeoutMs nodeId
      (hearAfter nodeId heard (.observe nodeId' sequence t)) i := by
  refine ⟨(timeoutMs_observe _ _ _ _).trans h.timeout, ?_, ?_⟩
  · rw [present_observe, hearAfter]
    by_cases hsame : nodeId' = nodeId
    · rw [if_pos hsame, if_pos (by rw [hsame]; exact hnode)]
      rfl
    · rw [if_neg hsame, if_neg fun heq => hsame (UInt8.toNat_inj.mp (heq.trans hnode.symm))]
      exact h.present
  · intro last hlast
    rw [hearAfter] at hlast
    rw [nodes_observe]
    by_cases hsame : nodeId' = nodeId
    · rw [if_pos hsame] at hlast
      obtain rfl := Option.some.inj hlast
      rw [if_pos (by rw [hsame]; exact hnode), hsame]
      rfl
    · rw [if_neg hsame] at hlast
      rw [if_neg fun heq => hsame (UInt8.toNat_inj.mp (heq.trans hnode.symm))]
      exact h.node last hlast

/-- Within the horizon the modular difference is the true one. -/
theorem elapsed_le_iff {t u : ℕ} (hle : u ≤ t) (hlt : t < u + 2 ^ 32) (timeoutMs : UInt32) :
    UInt32.ofNat t - UInt32.ofNat u ≤ timeoutMs ↔ t - u ≤ timeoutMs.toNat := by
  rw [UInt32.le_iff_toNat_le, toNat_uint32_sub, forwardDistance_of_le hle hlt]

theorem Knows.refresh (h : registry.Knows timeoutMs nodeId heard i) {t : ℕ}
    (hle : ∀ last, heard = some last → last.time ≤ t)
    (hlt : ∀ last, heard = some last → t < last.time + 2 ^ 32) :
    (registry.refresh (UInt32.ofNat t)).Knows timeoutMs nodeId
      (hearAfter nodeId heard (.refresh t)) i := by
  refine ⟨(timeoutMs_refresh _ _).trans h.timeout, ?_, ?_⟩
  · rw [present_refresh, hearAfter, Option.isSome_map]
    exact h.present
  · intro last hlast
    obtain ⟨before, hbefore, rfl⟩ := Option.map_eq_some_iff.mp hlast
    have hpresent : registry.present.get i = true := by
      rw [h.present, hbefore]
      rfl
    rw [nodes_refresh, if_pos hpresent, h.node before hbefore, h.timeout]
    have helapsed := elapsed_le_iff (hle before hbefore) (hlt before hbefore) timeoutMs
    simp only [Heard.status, Option.all_some, helapsed]

theorem Knows.step {ops : List (RegistryOp ℕ)} {op : RegistryOp ℕ}
    (h : registry.Knows timeoutMs nodeId (lastHeard nodeId ops) i) (hnode : nodeId.toNat = i.val)
    (hops : Mealy.NonDecreasing RegistryOp.calledAt (ops ++ [op]))
    (hhorizon : HeardRecently (ops ++ [op])) :
    (registry.step (op.mapTime UInt32.ofNat)).1.Knows timeoutMs nodeId
      (lastHeard nodeId (ops ++ [op])) i := by
  rw [lastHeard_concat]
  cases op with
  | observe nodeId' sequence t => exact h.observe hnode nodeId' sequence t
  | refresh t =>
    apply h.refresh
    · exact fun last hlast => time_le_of_lastHeard hops rfl hlast
    · exact fun last hlast => hhorizon ops t [] rfl nodeId last (hnode ▸ i.isLt) hlast
  | get nodeId' => exact ⟨h.timeout, h.present, h.node⟩
  | onlineCount => exact ⟨h.timeout, h.present, h.node⟩

/-- What `get` returns. -/
theorem Knows.get_eq (h : registry.Knows timeoutMs nodeId heard i)
    (hnode : nodeId.toNat = i.val) :
    registry.get nodeId = heard.map (Heard.status · nodeId timeoutMs) := by
  have hlt : nodeId.toNat < kMaxNodes := hnode ▸ i.isLt
  obtain rfl : i = ⟨nodeId.toNat, hlt⟩ := Fin.ext hnode.symm
  have hpresent := h.present
  unfold get
  rw [dif_neg (Nat.not_le_of_lt hlt)]
  simp only [hpresent]
  cases hheard : heard with
  | none => rfl
  | some last => exact congrArg some (h.node last hheard)

end NodeRegistry

/-! ### Runs -/

/-- The registry after a run of calls at true times, which it sees modulo 2^32. -/
def registryAfter (timeoutMs : UInt32) (ops : List (RegistryOp ℕ)) : NodeRegistry :=
  (nodeRegistry timeoutMs).run (nodeRegistry timeoutMs).start
    (ops.map (RegistryOp.mapTime UInt32.ofNat))

theorem registryAfter_concat (timeoutMs : UInt32) (ops : List (RegistryOp ℕ))
    (op : RegistryOp ℕ) :
    registryAfter timeoutMs (ops ++ [op]) =
      ((registryAfter timeoutMs ops).step (op.mapTime UInt32.ofNat)).1 := by
  rw [registryAfter, List.map_append]
  exact Mealy.run_concat _ _ _ _

theorem knows_after (timeoutMs : UInt32) {nodeId : UInt8} {i : Fin kMaxNodes}
    (hnode : nodeId.toNat = i.val) {ops : List (RegistryOp ℕ)}
    (hops : Mealy.NonDecreasing RegistryOp.calledAt ops) (hhorizon : HeardRecently ops) :
    (registryAfter timeoutMs ops).Knows timeoutMs nodeId (lastHeard nodeId ops) i := by
  induction ops using List.reverseRecOn with
  | nil => exact NodeRegistry.knows_new timeoutMs nodeId i
  | append_singleton ops op ih =>
    rw [registryAfter_concat]
    exact (ih hops.of_append hhorizon.of_append).step hnode hops hhorizon

/-- The loop of `online_count` counts what `get` reports. -/
theorem NodeRegistry.onlineCount_eq (registry : NodeRegistry) :
    registry.onlineCount = (List.finRange kMaxNodes).countP fun i =>
      (registry.get (UInt8.ofNat i.val)).any NodeStatus.online := by
  apply List.countP_congr
  intro i _
  have hnode : (UInt8.ofNat i.val).toNat = i.val := by
    have hlt : i.val < 32 := i.isLt
    rw [UInt8.toNat_ofNat']
    omega
  have hlt : (UInt8.ofNat i.val).toNat < kMaxNodes := by
    rw [hnode]
    exact i.isLt
  have hindex : (⟨(UInt8.ofNat i.val).toNat, hlt⟩ : Fin kMaxNodes) = i := Fin.ext hnode
  unfold counts get
  rw [dif_neg (Nat.not_le_of_lt hlt)]
  simp only [hindex]
  cases registry.present.get i <;> rfl

/-- **What the registry reports.**  Over a run at non-decreasing true times within the
horizon, `get` reports the latest observation of a node, online unless the latest
refresh since then came more than the timeout after it; nothing exactly for
nodes that were never observed, which includes every ID outside the table; and
`online_count` is the number of nodes reported online.  An observation with an
ID outside the table changes nothing. -/
theorem registry_accuracy (timeoutMs : UInt32) (ops : List (RegistryOp ℕ))
    (hops : Mealy.NonDecreasing RegistryOp.calledAt ops) (hhorizon : HeardRecently ops) :
    let registry := registryAfter timeoutMs ops
    (∀ nodeId : UInt8, registry.get nodeId =
      if nodeId.toNat < kMaxNodes then
        (lastHeard nodeId ops).map (Heard.status · nodeId timeoutMs)
      else none) ∧
    (∀ nodeId : UInt8, registry.get nodeId = none ↔
      ¬(nodeId.toNat < kMaxNodes ∧ ∃ sequence t, .observe nodeId sequence t ∈ ops)) ∧
    registry.onlineCount = (List.finRange kMaxNodes).countP (fun i =>
      (registry.get (UInt8.ofNat i.val)).any NodeStatus.online) ∧
    ∀ (nodeId sequence : UInt8) (nowMs : UInt32), kMaxNodes ≤ nodeId.toNat →
      registry.observe nodeId sequence nowMs = (registry, false) := by
  intro registry
  have hget : ∀ nodeId : UInt8, registry.get nodeId =
      if nodeId.toNat < kMaxNodes then
        (lastHeard nodeId ops).map (Heard.status · nodeId timeoutMs)
      else none := by
    intro nodeId
    split_ifs with hlt
    · have hknows := knows_after timeoutMs (i := ⟨nodeId.toNat, hlt⟩) rfl hops hhorizon
      exact hknows.get_eq rfl
    · exact dif_pos (Nat.le_of_not_lt hlt)
  refine ⟨hget, fun nodeId => ?_, registry.onlineCount_eq,
    fun nodeId sequence nowMs hge => registry.observe_of_ge nodeId sequence nowMs hge⟩
  rw [hget]
  split_ifs with hlt
  · rw [Option.map_eq_none_iff, lastHeard_eq_none_iff, not_and]
    constructor
    · rintro hnever - ⟨sequence, t, hmem⟩
      exact hnever sequence t hmem
    · intro hnever sequence t hmem
      exact hnever hlt ⟨sequence, t, hmem⟩
  · exact iff_of_true rfl fun hand => hlt hand.1

/-- Node 3 is heard shortly before the clock wraps, and refreshed after it. -/
theorem registry_accuracy_example :
    (registryAfter 1000 [.observe 3 7 4294967290, .refresh 4294967300]).get 3 =
      some { nodeId := 3, lastSequence := 7, lastSeenMs := 4294967290, online := true } := by
  have hhorizon : HeardRecently [.observe 3 7 4294967290, .refresh 4294967300] := by
    intro before t rest hops nodeId last _ hlast
    have hmem : RegistryOp.refresh t ∈ [.observe 3 7 4294967290, .refresh 4294967300] := by
      rw [hops]
      exact List.mem_append_right before List.mem_cons_self
    have hobserved : RegistryOp.observe nodeId last.sequence last.time ∈
        [.observe 3 7 4294967290, .refresh 4294967300] := by
      rw [hops]
      exact List.mem_append_left _ (mem_of_lastHeard hlast)
    simp only [List.mem_cons, RegistryOp.refresh.injEq, RegistryOp.observe.injEq, reduceCtorEq,
      List.not_mem_nil, or_false, false_or] at hmem hobserved
    omega
  exact (registry_accuracy 1000 _ (by decide) hhorizon).1 3

end PicoMesh
