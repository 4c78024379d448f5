import PicoMesh.PendingTable

/-!
# The retry queue refines the table of pending transmissions

`Represents queue table` relates the slot array to a `PendingTable`: active
slots have pairwise distinct keys, and the table's bindings are what the active
slots hold.  Inactive slots may hold anything, which is why releasing a slot
and refilling any free one need no cleaning.  `Represents.step` is the simulation
step, with one lemma for each operation below it, and `reliableQueue_refines`
carries it over every run.
-/

namespace PicoMesh

variable {τ : Type} [Clock τ]

/-! ### What one slot holds -/

namespace Slot

/-- The table entry a slot stands for while it is active. -/
def entry (slot : Slot τ) : PendingEntry τ := ⟨slot.frame, slot.deadlineMs, slot.attempts⟩

/-- A slot after `nextDue` sends its frame. -/
def sent (slot : Slot τ) (nowMs : τ) (policy : RetryPolicy) : Slot τ :=
  { slot with attempts := slot.attempts + 1, deadlineMs := after nowMs policy.timeoutMs }

/-- The key and entry of an active slot. -/
def binding (slot : Slot τ) : Option (Key × PendingEntry τ) :=
  if slot.active then some (slot.frame.key, slot.entry) else none

theorem binding_eq_some {slot : Slot τ} {k : Key} {e : PendingEntry τ} :
    slot.binding = some (k, e) ↔ slot.active = true ∧ slot.frame.key = k ∧ slot.entry = e := by
  rw [binding]
  split_ifs with h <;> simp [h]

theorem binding_eq_none {slot : Slot τ} : slot.binding = none ↔ slot.active = false := by
  rw [binding]
  split_ifs with h <;> simp [h]

@[simp] theorem isSome_binding (slot : Slot τ) : slot.binding.isSome = slot.active := by
  rw [binding]
  split_ifs with h <;> simp [h]

theorem binding_of_active {slot : Slot τ} (h : slot.active = true) :
    slot.binding = some (slot.frame.key, slot.entry) := if_pos h

end Slot

namespace ReliableQueue

variable {policy : RetryPolicy} {queue : ReliableQueue τ} {table : PendingTable τ policy}

theorem holds_iff {nodeId sequence : UInt8} {slot : Slot τ} :
    holds nodeId sequence slot = true ↔
      slot.active = true ∧ slot.frame.key = (nodeId, sequence) := by
  simp [holds, Frame.key, and_assoc]

theorem due_iff {nowMs : τ} {slot : Slot τ} :
    due nowMs slot = true ↔ slot.active = true ∧ slot.entry.due nowMs = true := by
  simp [due, PendingEntry.due, Slot.entry]

/-! ### Representation -/

/-- The slot array stands for the table. -/
structure Represents (queue : ReliableQueue τ) (table : PendingTable τ policy) : Prop where
  policy_eq : queue.policy = policy
  distinct : SlotTable.Distinct Slot.binding queue.slots
  get_eq : table.get = SlotTable.lookup Slot.binding queue.slots

theorem Represents.get_iff (h : queue.Represents table) {k : Key} {e : PendingEntry τ} :
    table.get k = some e ↔ ∃ i : Fin kMaxPendingTransmissions,
      (queue.slots.get i).active = true ∧ (queue.slots.get i).frame.key = k ∧
        (queue.slots.get i).entry = e := by
  rw [h.get_eq, SlotTable.lookup_eq_some h.distinct]
  simp only [Slot.binding_eq_some]

theorem Represents.get_slot (h : queue.Represents table) {i : Fin kMaxPendingTransmissions}
    (hi : (queue.slots.get i).active = true) :
    table.get (queue.slots.get i).frame.key = some (queue.slots.get i).entry :=
  h.get_iff.mpr ⟨i, hi, rfl, rfl⟩

theorem Represents.get_none (h : queue.Represents table) {k : Key} :
    table.get k = none ↔ ∀ i : Fin kMaxPendingTransmissions,
      (queue.slots.get i).active = true → (queue.slots.get i).frame.key ≠ k := by
  rw [h.get_eq, SlotTable.lookup_eq_none]
  constructor
  · intro hnone i hi hk
    exact hnone i _ (Slot.binding_eq_some.mpr ⟨hi, hk, rfl⟩)
  · intro hnone i e he
    obtain ⟨hi, hk, -⟩ := Slot.binding_eq_some.mp he
    exact hnone i hi hk

/-- The number of active slots is the size of the table. -/
theorem Represents.size_eq (h : queue.Represents table) : table.size = queue.pendingCount := by
  have hsize := SlotTable.size_toMap h.distinct
  simp only [BoundedMap.size, SlotTable.toMap_get, Slot.isSome_binding] at hsize
  rw [BoundedMap.size, h.get_eq, hsize]
  rfl

/-- **Writing one slot updates the table at one key.**  The slot held that key
or nothing, holds that key or nothing afterwards, no other slot holds it, and
what is written respects the table's promises. -/
theorem Represents.set (h : queue.Represents table) (i : Fin kMaxPendingTransmissions)
    (slot : Slot τ) (k : Key)
    (hold : (queue.slots.get i).active = true → (queue.slots.get i).frame.key = k)
    (hnew : slot.active = true → slot.frame.key = k)
    (hother : ∀ j ≠ i, (queue.slots.get j).active = true → (queue.slots.get j).frame.key ≠ k)
    (hfits : slot.active = true → slot.frame.payloadLength.toNat ≤ kMaxPayloadSize)
    (hflag : slot.active = true →
      slot.frame.flags &&& kFlagAckRequired = kFlagAckRequired)
    (hbudget : slot.active = true → slot.attempts ≤ policy.maxAttempts) :
    ∃ table' : PendingTable τ policy,
      Represents { queue with slots := queue.slots.set i slot i.isLt } table' ∧
        table'.get = Function.update table.get k (slot.binding.map Prod.snd) := by
  have hold' : ∀ k' e, (queue.slots.get i).binding = some (k', e) → k' = k := by
    intro k' e he
    obtain ⟨ha, hk, -⟩ := Slot.binding_eq_some.mp he
    rw [← hk, hold ha]
  have hnew' : ∀ k' e, slot.binding = some (k', e) → k' = k := by
    intro k' e he
    obtain ⟨ha, hk, -⟩ := Slot.binding_eq_some.mp he
    rw [← hk, hnew ha]
  have hother' : ∀ j ≠ i, ∀ e, (queue.slots.get j).binding ≠ some (k, e) := by
    intro j hj e he
    obtain ⟨ha, hk, -⟩ := Slot.binding_eq_some.mp he
    exact hother j hj ha hk
  have hset := SlotTable.lookup_set h.distinct i slot k hold' hnew' hother'
  rw [← h.get_eq] at hset
  -- a binding of the new array is the written slot's or the old table's
  have hsource : ∀ k' e, SlotTable.lookup Slot.binding (queue.slots.set i slot i.isLt) k' = some e →
      (slot.active = true ∧ slot.frame.key = k' ∧ slot.entry = e) ∨ table.get k' = some e := by
    intro k' e he
    rw [hset] at he
    rcases eq_or_ne k' k with rfl | hk
    · rw [Function.update_self, Option.map_eq_some_iff] at he
      obtain ⟨⟨k'', e'⟩, hb, rfl⟩ := he
      obtain rfl := hnew' k'' e' hb
      exact Or.inl (Slot.binding_eq_some.mp hb)
    · rw [Function.update_of_ne hk] at he
      exact Or.inr he
  refine ⟨{ SlotTable.toMap Slot.binding (queue.slots.set i slot i.isLt) with
    keyed := ?_, fits := ?_, flagged := ?_, budget := ?_ }, ⟨h.policy_eq, ?_, rfl⟩, hset⟩
  · intro k' e he
    rcases hsource k' e he with ⟨-, hk, rfl⟩ | he
    · exact hk
    · exact table.keyed k' e he
  · intro k' e he
    rcases hsource k' e he with ⟨ha, -, rfl⟩ | he
    · exact hfits ha
    · exact table.fits k' e he
  · intro k' e he
    rcases hsource k' e he with ⟨ha, -, rfl⟩ | he
    · exact hflag ha
    · exact table.flagged k' e he
  · intro k' e he
    rcases hsource k' e he with ⟨ha, -, rfl⟩ | he
    · exact hbudget ha
    · exact table.budget k' e he
  · apply h.distinct.set i slot
    intro k' e he j hj e' he'
    rw [hnew' k' e he] at he'
    exact hother' j hj e' he'

/-- With distinct keys no other active slot has the key of slot `i`. -/
theorem Represents.other_key (h : queue.Represents table) {i j : Fin kMaxPendingTransmissions}
    (hi : (queue.slots.get i).active = true) (hji : j ≠ i)
    (hj : (queue.slots.get j).active = true) :
    (queue.slots.get j).frame.key ≠ (queue.slots.get i).frame.key := by
  intro hk
  apply hji
  apply h.distinct j i (queue.slots.get i).frame.key (queue.slots.get j).entry
    (queue.slots.get i).entry
  · rw [Slot.binding_of_active hj, hk]
  · rw [Slot.binding_of_active hi]

/-- **Releasing an active slot removes its key from the table.** -/
theorem Represents.release (h : queue.Represents table) {i : Fin kMaxPendingTransmissions}
    (hi : (queue.slots.get i).active = true) :
    ∃ table' : PendingTable τ policy, (queue.release i).Represents table' ∧
      table'.get = Function.update table.get (queue.slots.get i).frame.key none := by
  obtain ⟨table', hrep, hget⟩ := h.set i { queue.slots.get i with active := false }
    (queue.slots.get i).frame.key (fun _ => rfl) (by simp) (fun j hj ha => h.other_key hi hj ha)
    (by simp) (by simp) (by simp)
  refine ⟨table', hrep, ?_⟩
  rw [hget, Slot.binding_eq_none.mpr rfl]
  rfl

/-- A queue with no active slot stands for the empty table. -/
theorem represents_empty (hpolicy : queue.policy = policy)
    (hfree : ∀ i : Fin kMaxPendingTransmissions, (queue.slots.get i).active = false) :
    queue.Represents (PendingTable.empty : PendingTable τ policy) := by
  have hnone : ∀ i : Fin kMaxPendingTransmissions, (queue.slots.get i).binding = none :=
    fun i => Slot.binding_eq_none.mpr (hfree i)
  refine ⟨hpolicy, ?_, ?_⟩
  · intro i j k e e' hi
    rw [hnone i] at hi
    cases hi
  · funext k
    refine (SlotTable.lookup_eq_none.mpr fun i e hi => ?_).symm
    rw [hnone i] at hi
    cases hi

/-- The slots of a queue that was built or cleared. -/
theorem active_replicate (i : Fin kMaxPendingTransmissions) :
    ((Vector.replicate kMaxPendingTransmissions ({} : Slot τ)).get i).active = false := by
  rw [SlotTable.get_replicate]

theorem represents_new : (new policy : ReliableQueue τ).Represents
    (PendingTable.empty : PendingTable τ policy.normalise) :=
  represents_empty rfl active_replicate

/-! ### Scans -/

/-- The duplicate scan finds nothing exactly when the key is absent. -/
theorem Represents.first_holds_none (h : queue.Represents table) {nodeId sequence : UInt8} :
    SlotTable.first (holds nodeId sequence) queue.slots = none ↔
      table.get (nodeId, sequence) = none := by
  rw [SlotTable.first_eq_none, h.get_none]
  constructor
  · intro hscan i hi hk
    have hfree := hscan i
    rw [holds_iff.mpr ⟨hi, hk⟩] at hfree
    cases hfree
  · intro hnone i
    rw [← Bool.not_eq_true, holds_iff]
    rintro ⟨hi, hk⟩
    exact hnone i hi hk

/-- The slot the duplicate scan finds holds the key. -/
theorem first_holds_some {nodeId sequence : UInt8} {i : Fin kMaxPendingTransmissions}
    (hscan : SlotTable.first (holds nodeId sequence) queue.slots = some i) :
    (queue.slots.get i).active = true ∧ (queue.slots.get i).frame.key = (nodeId, sequence) :=
  holds_iff.mp (SlotTable.first_eq_some.mp hscan).1

/-- The scan for a free slot fails exactly when the table is full. -/
theorem Represents.first_free_none (h : queue.Represents table) :
    SlotTable.first (fun slot => !slot.active) queue.slots = none ↔
      table.size = kMaxPendingTransmissions := by
  rw [SlotTable.first_eq_none, h.size_eq, pendingCount, SlotTable.count_eq_capacity]
  simp only [Bool.not_eq_false']

/-! ### The operations -/

theorem Represents.enqueue (h : queue.Represents table) (frame : Frame) (nowMs : τ) :
    ∃ table' : PendingTable τ policy, (queue.enqueue frame nowMs).1.Represents table' ∧
      table.Step (.enqueue frame nowMs) (.enqueued (queue.enqueue frame nowMs).2) table' := by
  rcases lt_or_ge kMaxPayloadSize frame.payloadLength.toNat with hlen | hlen
  · rw [ReliableQueue.enqueue, if_pos hlen]
    refine ⟨table, h, ?_⟩
    rw [PendingTable.Step, if_pos (Or.inl hlen)]
    exact ⟨rfl, rfl⟩
  rw [ReliableQueue.enqueue, if_neg (Nat.not_lt.mpr hlen)]
  cases hscan : SlotTable.first (holds frame.nodeId frame.sequence) queue.slots with
  | some i =>
    obtain ⟨hi, hk⟩ := first_holds_some hscan
    have hget : table.get frame.key = some (queue.slots.get i).entry := by
      rw [← h.get_slot hi, hk]
      rfl
    refine ⟨table, h, ?_⟩
    rw [PendingTable.Step, if_pos (Or.inr (Option.isSome_of_eq_some hget))]
    exact ⟨rfl, rfl⟩
  | none =>
    have habsent : table.get frame.key = none := h.first_holds_none.mp hscan
    have hvalid : ¬(kMaxPayloadSize < frame.payloadLength.toNat ∨
        (table.get frame.key).isSome = true) := by
      rw [habsent]
      simpa using hlen
    cases hfree : SlotTable.first (fun slot : Slot τ => !slot.active) queue.slots with
    | none =>
      refine ⟨table, h, ?_⟩
      rw [PendingTable.Step, if_neg hvalid, if_pos (h.first_free_none.mp hfree)]
      exact ⟨rfl, rfl⟩
    | some i =>
      have hinactive : (queue.slots.get i).active = false := by
        simpa using (SlotTable.first_eq_some.mp hfree).1
      have hroom : table.size ≠ kMaxPendingTransmissions := by
        intro hfull
        rw [h.first_free_none.mpr hfull] at hfree
        cases hfree
      -- the free slot held nothing, and no active slot holds the new key
      obtain ⟨table', hrep, hget⟩ := h.set i
        { frame := frame.ackRequired, deadlineMs := nowMs, attempts := 0, active := true }
        frame.key (fun ha => by rw [hinactive] at ha; cases ha) (fun _ => rfl)
        (fun j _ hj => h.get_none.mp habsent j hj) (fun _ => hlen)
        (fun _ => frame.ackRequired_flags) (fun _ => UInt8.zero_le)
      refine ⟨table', hrep, ?_⟩
      rw [PendingTable.Step, if_neg hvalid, if_neg hroom]
      exact ⟨rfl, hget⟩

/-- No slot is due: no decision, and nothing changes. -/
theorem nextDue_none {nowMs : τ} (hscan : SlotTable.first (due nowMs) queue.slots = none) :
    queue.nextDue nowMs = (queue, {}) := by
  rw [ReliableQueue.nextDue, hscan]

/-- The first due slot has sends left: it is sent. -/
theorem nextDue_send {nowMs : τ} {i : Fin kMaxPendingTransmissions}
    (hscan : SlotTable.first (due nowMs) queue.slots = some i)
    (hleft : (queue.slots.get i).attempts < queue.policy.maxAttempts) :
    queue.nextDue nowMs =
      ({ queue with
          slots := queue.slots.set i ((queue.slots.get i).sent nowMs queue.policy) i.isLt },
        ⟨.send, (queue.slots.get i).frame, (queue.slots.get i).attempts + 1⟩) := by
  rw [ReliableQueue.nextDue, hscan]
  show (if _ then _ else _) = _
  rw [if_neg (UInt8.not_le.mpr hleft)]
  rfl

/-- The first due slot has no sends left: it is given up. -/
theorem nextDue_exhausted {nowMs : τ} {i : Fin kMaxPendingTransmissions}
    (hscan : SlotTable.first (due nowMs) queue.slots = some i)
    (hleft : ¬(queue.slots.get i).attempts < queue.policy.maxAttempts) :
    queue.nextDue nowMs =
      (queue.release i, ⟨.exhausted, (queue.slots.get i).frame, (queue.slots.get i).attempts⟩) := by
  rw [ReliableQueue.nextDue, hscan]
  show (if _ then _ else _) = _
  rw [if_pos (UInt8.not_lt.mp hleft)]

theorem Represents.nextDue (h : queue.Represents table) (nowMs : τ) :
    ∃ table' : PendingTable τ policy, (queue.nextDue nowMs).1.Represents table' ∧
      table.Step (.nextDue nowMs) (.decided (queue.nextDue nowMs).2) table' := by
  cases hscan : SlotTable.first (due nowMs) queue.slots with
  | none =>
    rw [nextDue_none hscan]
    refine ⟨table, h, Or.inl ⟨rfl, rfl, ?_⟩⟩
    intro k e he
    obtain ⟨i, hi, -, rfl⟩ := h.get_iff.mp he
    have hskip := SlotTable.first_eq_none.mp hscan i
    rw [← Bool.not_eq_true, due_iff] at hskip
    exact Bool.eq_false_iff.mpr fun hdue => hskip ⟨hi, hdue⟩
  | some i =>
    obtain ⟨hi, hdue⟩ := due_iff.mp (SlotTable.first_eq_some.mp hscan).1
    have hpolicy := h.policy_eq
    subst hpolicy
    rcases Decidable.em ((queue.slots.get i).attempts < queue.policy.maxAttempts) with hleft | hleft
    · rw [nextDue_send hscan hleft]
      -- the counter does not wrap: it was below the limit
      have hbudget : (queue.slots.get i).attempts + 1 ≤ queue.policy.maxAttempts := by grind
      obtain ⟨table', hrep, hget⟩ := h.set i ((queue.slots.get i).sent nowMs queue.policy)
        (queue.slots.get i).frame.key (fun _ => rfl) (fun _ => rfl)
        (fun j hj ha => h.other_key hi hj ha) (fun _ => table.fits _ _ (h.get_slot hi))
        (fun _ => table.flagged _ _ (h.get_slot hi)) (fun _ => hbudget)
      refine ⟨table', hrep, Or.inr ⟨_, _, h.get_slot hi, hdue, ?_⟩⟩
      rw [if_pos (show (queue.slots.get i).entry.attempts < queue.policy.maxAttempts from hleft)]
      rw [Slot.binding_of_active (show ((queue.slots.get i).sent nowMs queue.policy).active = true
        from hi)] at hget
      exact ⟨rfl, hget⟩
    · rw [nextDue_exhausted hscan hleft]
      obtain ⟨table', hrep, hget⟩ := h.release hi
      refine ⟨table', hrep, Or.inr ⟨_, _, h.get_slot hi, hdue, ?_⟩⟩
      rw [if_neg (show ¬(queue.slots.get i).entry.attempts < queue.policy.maxAttempts from hleft)]
      exact ⟨rfl, hget⟩

/-- The scan that `acknowledge` and `cancel` share: the key is absent, or the slot
that holds it is found and releasing it removes the key. -/
theorem Represents.first_holds_cases (h : queue.Represents table) (nodeId sequence : UInt8) :
    (SlotTable.first (holds nodeId sequence) queue.slots = none ∧
        table.get (nodeId, sequence) = none) ∨
      ∃ i, SlotTable.first (holds nodeId sequence) queue.slots = some i ∧
        (table.get (nodeId, sequence)).isSome ∧
        ∃ table' : PendingTable τ policy, (queue.release i).Represents table' ∧
          table'.get = Function.update table.get (nodeId, sequence) none := by
  cases hscan : SlotTable.first (holds nodeId sequence) queue.slots with
  | none =>
    left
    exact ⟨rfl, h.first_holds_none.mp hscan⟩
  | some i =>
    right
    obtain ⟨hi, hk⟩ := first_holds_some hscan
    have hget := h.get_slot hi
    obtain ⟨table', hrep, hget'⟩ := h.release hi
    rw [hk] at hget hget'
    exact ⟨i, rfl, Option.isSome_of_eq_some hget, table', hrep, hget'⟩

theorem Represents.acknowledge (h : queue.Represents table) (nodeId sequence : UInt8)
    (status : AckStatus) :
    ∃ table' : PendingTable τ policy,
      (queue.acknowledge nodeId sequence status).1.Represents table' ∧
        table.Step (.acknowledge nodeId sequence status)
          (.acknowledged (queue.acknowledge nodeId sequence status).2) table' := by
  unfold ReliableQueue.acknowledge
  rcases h.first_holds_cases nodeId sequence with
    ⟨hscan, habsent⟩ | ⟨i, hscan, hpresent, table', hrep, hget⟩
  · rw [hscan]
    refine ⟨table, h, ?_⟩
    rw [PendingTable.Step, habsent]
    exact ⟨rfl, rfl⟩
  · rw [hscan]
    refine ⟨table', hrep, ?_⟩
    rw [PendingTable.Step, if_pos hpresent]
    exact ⟨rfl, hget⟩

theorem Represents.cancel (h : queue.Represents table) (nodeId sequence : UInt8) :
    ∃ table' : PendingTable τ policy, (queue.cancel nodeId sequence).1.Represents table' ∧
      table.Step (.cancel nodeId sequence) (.cancelled (queue.cancel nodeId sequence).2)
        table' := by
  unfold ReliableQueue.cancel
  rcases h.first_holds_cases nodeId sequence with
    ⟨hscan, habsent⟩ | ⟨i, hscan, hpresent, table', hrep, hget⟩
  · rw [hscan]
    refine ⟨table, h, ?_⟩
    rw [PendingTable.Step, habsent]
    exact ⟨rfl, rfl⟩
  · rw [hscan]
    refine ⟨table', hrep, ?_⟩
    rw [PendingTable.Step, if_pos hpresent]
    exact ⟨rfl, hget⟩

theorem Represents.clear (h : queue.Represents table) :
    queue.clear.Represents (PendingTable.empty : PendingTable τ policy) :=
  represents_empty h.policy_eq active_replicate

/-- **One call refines one step of the table.** -/
theorem Represents.step (h : queue.Represents table) (op : QueueOp τ) :
    ∃ table' : PendingTable τ policy, (queue.step op).1.Represents table' ∧
      table.Step op (queue.step op).2 table' := by
  cases op with
  | enqueue frame nowMs => exact h.enqueue frame nowMs
  | nextDue nowMs => exact h.nextDue nowMs
  | acknowledge nodeId sequence status => exact h.acknowledge nodeId sequence status
  | cancel nodeId sequence => exact h.cancel nodeId sequence
  | pendingCount => exact ⟨table, h, by rw [h.size_eq]; rfl, rfl⟩
  | clear => exact ⟨.empty, h.clear, rfl, rfl⟩

/-- A slot array stands for at most one table. -/
theorem Represents.unique {table' : PendingTable τ policy} (h : queue.Represents table)
    (h' : queue.Represents table') : table = table' :=
  PendingTable.ext_get (h.get_eq.trans h'.get_eq.symm)

end ReliableQueue

/-- Every queue a run of calls leads to stands for a table. -/
theorem exists_represents (policy : RetryPolicy) (ops : List (QueueOp τ)) :
    ∃ table : PendingTable τ policy.normalise, (queueAfter policy ops).Represents table := by
  apply (reliableQueue policy).run_invariant
    (I := fun queue => ∃ table : PendingTable τ policy.normalise, queue.Represents table)
  · rintro queue op ⟨table, h⟩
    obtain ⟨table', h', -⟩ := h.step op
    exact ⟨table', h'⟩
  · exact ⟨.empty, ReliableQueue.represents_new⟩

/-- **The retry queue refines a bounded map.**  After every run of calls the slot
array stands for a table of pending transmissions, and the next call, whatever it
is, answers and changes the table as `PendingTable.Step` says. -/
theorem reliableQueue_refines (policy : RetryPolicy) (ops : List (QueueOp UInt32)) :
    ∃ table : PendingTable UInt32 policy.normalise, (queueAfter policy ops).Represents table ∧
      ∀ op, ∃ table' : PendingTable UInt32 policy.normalise,
        (queueAfter policy (ops ++ [op])).Represents table' ∧
        table.Step op ((queueAfter policy ops).step op).2 table' := by
  obtain ⟨table, h⟩ := exists_represents policy ops
  refine ⟨table, h, fun op => ?_⟩
  rw [queueAfter_concat]
  exact h.step op

end PicoMesh
