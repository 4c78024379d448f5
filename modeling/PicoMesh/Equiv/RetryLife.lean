import PicoMesh.Equiv.Reliability

/-!
# The life of one queued frame

`decisionsFor k replies` is the sub-sequence of decisions that concern the key
`k`.  `PendingTable.step_absent` and `PendingTable.step_pending` say what one
call can do to one key: nothing, one more send, or the end of the entry.
`attempt_budget` assembles them over a run: numbered sends of one and the same
frame, at most one exhausted decision, silence afterwards.
-/

namespace PicoMesh

/-! ### Decisions about one key -/

/-- The decision about the key `k` that a reply carries, if it does. -/
def decisionFor (k : Key) : QueueReply → Option TxDecision
  | .decided decision =>
    if decision.action ≠ .none ∧ decision.frame.key = k then some decision else none
  | _ => none

/-- The decisions about the key `k` in a sequence of replies. -/
def decisionsFor (k : Key) (replies : List QueueReply) : List TxDecision :=
  replies.filterMap (decisionFor k)

@[simp] theorem decisionsFor_nil (k : Key) : decisionsFor k [] = [] := rfl

theorem decisionsFor_cons_none {k : Key} {reply : QueueReply} (h : decisionFor k reply = none)
    (replies : List QueueReply) : decisionsFor k (reply :: replies) = decisionsFor k replies :=
  List.filterMap_cons_none h

theorem decisionsFor_cons_some {k : Key} {reply : QueueReply} {decision : TxDecision}
    (h : decisionFor k reply = some decision) (replies : List QueueReply) :
    decisionsFor k (reply :: replies) = decision :: decisionsFor k replies :=
  List.filterMap_cons_some h

/-- The sends numbered `done + 1, …, upto` of a frame. -/
def sends (frame : Frame) (done upto : ℕ) : List TxDecision :=
  (List.range' (done + 1) (upto - done)).map fun attempt =>
    ⟨.send, frame, UInt8.ofNat attempt⟩

/-- The call is an `enqueue` of a frame with the key `k`, and it is accepted. -/
def Requeues (k : Key) (queue : ReliableQueue UInt32) (op : QueueOp UInt32) : Prop :=
  ∃ frame nowMs, op = .enqueue frame nowMs ∧ frame.key = k ∧
    (queue.step op).2 = .enqueued .queued

/-- The call ends the life of the entry with the key `k`: it acknowledges or
cancels that key, clears the queue, or returns its exhausted decision. -/
def Resolves (k : Key) (queue : ReliableQueue UInt32) (op : QueueOp UInt32) : Prop :=
  (∃ status, op = .acknowledge k.1 k.2 status) ∨ op = .cancel k.1 k.2 ∨ op = .clear ∨
    ∃ frame attempts, (queue.step op).2 = .decided ⟨.exhausted, frame, attempts⟩ ∧ frame.key = k

@[simp] theorem sends_self (frame : Frame) (n : ℕ) : sends frame n n = [] := by
  simp [sends]

theorem sends_of_lt {frame : Frame} {done upto : ℕ} (h : done < upto) :
    sends frame done upto =
      ⟨.send, frame, UInt8.ofNat (done + 1)⟩ :: sends frame (done + 1) upto := by
  rw [sends, show upto - done = (upto - (done + 1)) + 1 by omega, List.range'_succ, List.map_cons]
  rfl

theorem mem_sends {frame : Frame} {done upto : ℕ} {d : TxDecision}
    (h : d ∈ sends frame done upto) : d.frame = frame := by
  obtain ⟨attempt, -, rfl⟩ := List.mem_map.mp h
  rfl

/-! ### One call, one key -/

namespace PendingTable

variable {τ : Type} [Clock τ] {policy : RetryPolicy} {t t' : PendingTable τ policy}
  {op : QueueOp τ} {reply : QueueReply} {k : Key}

/-- What a call can do to a pending entry. -/
inductive EntryStep (policy : RetryPolicy) (e : PendingEntry τ) :
    Option (PendingEntry τ) → Option TxDecision → Prop where
  | keep : EntryStep policy e (some e) none
  | send (nowMs : τ) (hdue : e.due nowMs = true) (hleft : e.attempts < policy.maxAttempts) :
      EntryStep policy e (some (e.sent nowMs policy)) (some ⟨.send, e.frame, e.attempts + 1⟩)
  | exhaust (nowMs : τ) (hdue : e.due nowMs = true) (hspent : e.attempts = policy.maxAttempts) :
      EntryStep policy e none (some ⟨.exhausted, e.frame, e.attempts⟩)
  | remove : EntryStep policy e none none

/-- A default decision is about no key. -/
theorem decisionFor_eq_none (hdecided : ∀ decision, reply = .decided decision → decision = {}) :
    decisionFor k reply = none := by
  cases reply with
  | decided decision =>
    rw [hdecided decision rfl]
    simp [decisionFor]
  | enqueued result => rfl
  | acknowledged resolution => rfl
  | cancelled found => rfl
  | counted pending => rfl
  | cleared => rfl

/-- A call that does not accept a frame with an absent key leaves it absent and
returns no decision about it. -/
theorem step_absent (h : t.Step op reply t') (hk : t.get k = none)
    (hno : ∀ frame nowMs, op = .enqueue frame nowMs → frame.key = k →
      reply ≠ .enqueued .queued) :
    t'.get k = none ∧ decisionFor k reply = none := by
  -- a decision is about an entry, so about another key
  have hother : ∀ {k' : Key} {e : PendingEntry τ}, t.get k' = some e →
      k ≠ k' ∧ e.frame.key ≠ k := by
    intro k' e hget
    have hne : k ≠ k' := by
      rintro rfl
      rw [hk] at hget
      cases hget
    exact ⟨hne, fun hkey => hne (hkey.symm.trans (t.keyed k' e hget))⟩
  cases h.change with
  | same hqueued hdecided => exact ⟨hk, decisionFor_eq_none hdecided⟩
  | @queue _ frame nowMs habsent hget =>
    have hne : k ≠ frame.key := fun hkey => hno frame nowMs rfl hkey.symm rfl
    rw [hget, Function.update_of_ne hne]
    exact ⟨hk, rfl⟩
  | send hget hdue hleft hget' =>
    obtain ⟨hne, hkey⟩ := hother hget
    rw [hget', Function.update_of_ne hne]
    exact ⟨hk, if_neg fun hd => hkey hd.2⟩
  | exhaust hget hdue hspent hget' =>
    obtain ⟨hne, hkey⟩ := hother hget
    rw [hget', Function.update_of_ne hne]
    exact ⟨hk, if_neg fun hd => hkey hd.2⟩
  | remove k' hqueued hdecided hget =>
    rw [hget, Function.update_apply, hk]
    exact ⟨ite_self none, decisionFor_eq_none fun d hd => absurd hd (hdecided d)⟩
  | clear => exact ⟨rfl, rfl⟩

/-- **What one call does to one pending entry.** -/
theorem step_pending {e : PendingEntry τ} (h : t.Step op reply t') (hk : t.get k = some e) :
    EntryStep policy e (t'.get k) (decisionFor k reply) := by
  cases h.change with
  | same hqueued hdecided =>
    rw [hk, decisionFor_eq_none hdecided]
    exact .keep
  | @queue _ frame nowMs habsent hget =>
    -- the key is taken, so the accepted frame has another one
    have hne : k ≠ frame.key := by
      rintro rfl
      rw [hk] at habsent
      cases habsent
    rw [hget, Function.update_of_ne hne, hk]
    exact .keep
  | @send _ k' e' nowMs hget hdue hleft hget' =>
    have hkeyed := t.keyed k' e' hget
    rcases eq_or_ne k k' with rfl | hne
    · obtain rfl : e = e' := Option.some.inj (hk.symm.trans hget)
      rw [hget', Function.update_self, decisionFor, if_pos ⟨by simp, hkeyed⟩]
      exact .send nowMs hdue hleft
    · have hkey : e'.frame.key ≠ k := fun hkey => hne (hkey.symm.trans hkeyed)
      rw [hget', Function.update_of_ne hne, hk, decisionFor, if_neg fun hd => hkey hd.2]
      exact .keep
  | @exhaust _ k' e' nowMs hget hdue hspent hget' =>
    have hkeyed := t.keyed k' e' hget
    rcases eq_or_ne k k' with rfl | hne
    · obtain rfl : e = e' := Option.some.inj (hk.symm.trans hget)
      rw [hget', Function.update_self, decisionFor, if_pos ⟨by simp, hkeyed⟩]
      exact .exhaust nowMs hdue hspent
    · have hkey : e'.frame.key ≠ k := fun hkey => hne (hkey.symm.trans hkeyed)
      rw [hget', Function.update_of_ne hne, hk, decisionFor, if_neg fun hd => hkey hd.2]
      exact .keep
  | remove k' hqueued hdecided hget =>
    rw [hget, Function.update_apply, hk,
      decisionFor_eq_none fun d hd => absurd hd (hdecided d)]
    split_ifs
    · exact .remove
    · exact .keep
  | clear => exact .remove

omit [Clock τ] in
/-- What an acknowledgement or a cancellation leaves at the key it names. -/
theorem get_removed {found missing : Prop}
    (h : if (t.get k).isSome then found ∧ t'.get = Function.update t.get k none
      else missing ∧ t' = t) : t'.get k = none := by
  split_ifs at h with hpresent
  · rw [h.2, Function.update_self]
  · rw [h.2]
    exact Option.not_isSome_iff_eq_none.mp hpresent

end PendingTable

/-! ### A whole run, one key -/

section Run

variable {policy : RetryPolicy} {initial : RetryPolicy} {queue : ReliableQueue UInt32}
  {table : PendingTable UInt32 policy} {k : Key}

/-- One call in the terms of `PendingTable.step_absent`. -/
theorem not_queued_of_not_requeues {op : QueueOp UInt32} (h : ¬Requeues k queue op) :
    ∀ frame nowMs, op = .enqueue frame nowMs → frame.key = k →
      (queue.step op).2 ≠ .enqueued .queued :=
  fun frame nowMs hop hkey hreply => h ⟨frame, nowMs, hop, hkey, hreply⟩

theorem outputs_cons (op : QueueOp UInt32) (ops : List (QueueOp UInt32)) :
    (reliableQueue initial).outputs queue (op :: ops) =
      (queue.step op).2 :: (reliableQueue initial).outputs (queue.step op).1 ops :=
  rfl

/-- No decision is returned about a key that is absent and stays so. -/
theorem decisionsFor_absent (h : queue.Represents table) (hk : table.get k = none)
    {ops : List (QueueOp UInt32)}
    (hno : (reliableQueue initial).Along (fun q op => ¬Requeues k q op) queue ops) :
    decisionsFor k ((reliableQueue initial).outputs queue ops) = [] := by
  induction ops generalizing queue table with
  | nil => rfl
  | cons op ops ih =>
    obtain ⟨table', h', hstep⟩ := h.step op
    obtain ⟨hk', hreply⟩ :=
      PendingTable.step_absent hstep hk (not_queued_of_not_requeues hno.1)
    rw [outputs_cons, decisionsFor_cons_none hreply]
    exact ih h' hk' hno.2

/-- **The decisions about a pending entry** continue its numbered sends and end
with at most one exhausted decision, once every send is made. -/
theorem decisionsFor_pending (h : queue.Represents table) {e : PendingEntry UInt32}
    (hk : table.get k = some e) {ops : List (QueueOp UInt32)}
    (hno : (reliableQueue initial).Along (fun q op => ¬Requeues k q op) queue ops) :
    ∃ n, e.attempts.toNat ≤ n ∧ n ≤ policy.maxAttempts.toNat ∧
      (decisionsFor k ((reliableQueue initial).outputs queue ops) =
          sends e.frame e.attempts.toNat n ∨
        n = policy.maxAttempts.toNat ∧
          decisionsFor k ((reliableQueue initial).outputs queue ops) =
            sends e.frame e.attempts.toNat n ++
              [⟨.exhausted, e.frame, policy.maxAttempts⟩]) := by
  have hbudget : e.attempts.toNat ≤ policy.maxAttempts.toNat :=
    UInt8.le_iff_toNat_le.mp (table.budget k e hk)
  -- induction on the calls; the entry's own counter says where the sends continue
  induction ops generalizing queue table e with
  | nil => exact ⟨_, le_refl _, hbudget, Or.inl (sends_self _ _).symm⟩
  | cons op ops ih =>
    obtain ⟨table', h', hstep⟩ := h.step op
    have hentry := PendingTable.step_pending hstep hk
    rw [outputs_cons]
    generalize hget : table'.get k = entry at hentry
    generalize hreply : decisionFor k (queue.step op).2 = decision at hentry
    cases hentry with
    | keep =>
      rw [decisionsFor_cons_none hreply]
      exact ih h' hget hno.2 hbudget
    | send nowMs hdue hleft =>
      rw [decisionsFor_cons_some hreply]
      have hlt : e.attempts.toNat < policy.maxAttempts.toNat := UInt8.lt_iff_toNat_lt.mp hleft
      have hmax := policy.maxAttempts.toNat_lt
      have hsucc : (e.attempts + 1).toNat = e.attempts.toNat + 1 := by
        rw [UInt8.toNat_add, UInt8.toNat_one]
        omega
      have hnumber : UInt8.ofNat (e.attempts.toNat + 1) = e.attempts + 1 := by
        rw [← hsucc, UInt8.ofNat_toNat]
      obtain ⟨n, hle, hn, hrest⟩ := ih h' hget hno.2
        (show (e.attempts + 1).toNat ≤ _ by omega)
      simp only [PendingEntry.sent, hsucc] at hle hrest
      refine ⟨n, by omega, hn, ?_⟩
      rw [sends_of_lt (show e.attempts.toNat < n by omega), hnumber, List.cons_append]
      exact hrest.imp (congrArg _) (And.imp_right (congrArg _))
    | exhaust nowMs hdue hspent =>
      rw [decisionsFor_cons_some hreply, decisionsFor_absent h' hget hno.2, hspent]
      refine ⟨_, le_refl _, le_refl _, Or.inr ⟨rfl, ?_⟩⟩
      rw [sends_self, List.nil_append]
    | remove =>
      rw [decisionsFor_cons_none hreply, decisionsFor_absent h' hget hno.2]
      exact ⟨_, le_refl _, hbudget, Or.inl (sends_self _ _).symm⟩

/-- A call that resolves a key leaves it absent. -/
theorem Resolves.absent {op : QueueOp UInt32} {table' : PendingTable UInt32 policy}
    (h : Resolves k queue op) (hstep : table.Step op (queue.step op).2 table') :
    table'.get k = none := by
  rcases h with ⟨status, rfl⟩ | rfl | rfl | ⟨frame, attempts, hdecided, hkey⟩
  · exact PendingTable.get_removed hstep
  · exact PendingTable.get_removed hstep
  · rw [hstep.2]
    rfl
  · -- the exhausted decision is about a pending entry, which it removes
    rw [hdecided] at hstep
    have hreply : decisionFor k (.decided ⟨.exhausted, frame, attempts⟩) =
        some ⟨.exhausted, frame, attempts⟩ := if_pos ⟨by simp, hkey⟩
    cases hk : table.get k with
    | none =>
      have hnone := PendingTable.step_absent hstep hk (by simp)
      rw [hreply] at hnone
      cases hnone.2
    | some e =>
      have hentry := PendingTable.step_pending hstep hk
      rw [hreply] at hentry
      generalize table'.get k = entry at hentry
      cases hentry
      rfl

end Run

/-- An accepted frame is pending, with no send made. -/
theorem PendingTable.get_of_queued {policy : RetryPolicy}
    {table table' : PendingTable UInt32 policy} {frame : Frame} {nowMs : UInt32}
    (hstep : table.Step (.enqueue frame nowMs) (.enqueued .queued) table') :
    table'.get frame.key = some ⟨frame.ackRequired, nowMs, 0⟩ := by
  rw [PendingTable.Step] at hstep
  split_ifs at hstep
  · cases hstep.1
  · cases hstep.1
  · rw [hstep.2, Function.update_self]

/-- **Attempt budget and life cycle.**  Take an accepted `enqueue` after any run,
and any further calls that do not accept its key again.  The decisions about the
frame are the sends numbered `1, …, n` for some `n` within the limit, which is at
least one, possibly followed by one exhausted decision, then with `n` the limit;
each carries the enqueued frame with the flag set, so encodes to the same bytes;
and after a call that ends the entry's life there are none. -/
theorem attempt_budget (policy : RetryPolicy) (before later : List (QueueOp UInt32))
    (frame : Frame) (nowMs : UInt32)
    (hqueued : ((queueAfter policy before).enqueue frame nowMs).2 = .queued)
    (hlater : (reliableQueue policy).Along (fun queue op => ¬Requeues frame.key queue op)
      (queueAfter policy (before ++ [.enqueue frame nowMs])) later) :
    (∃ n, n ≤ (max 1 policy.maxAttempts).toNat ∧
      (decisionsFor frame.key ((reliableQueue policy).outputs
          (queueAfter policy (before ++ [.enqueue frame nowMs])) later) =
        sends frame.ackRequired 0 n ∨
      n = (max 1 policy.maxAttempts).toNat ∧
        decisionsFor frame.key ((reliableQueue policy).outputs
          (queueAfter policy (before ++ [.enqueue frame nowMs])) later) =
        sends frame.ackRequired 0 n ++
          [⟨.exhausted, frame.ackRequired, max 1 policy.maxAttempts⟩])) ∧
    (∀ decision ∈ decisionsFor frame.key ((reliableQueue policy).outputs
        (queueAfter policy (before ++ [.enqueue frame nowMs])) later),
      decision.frame = frame.ackRequired ∧
        encodeFrame decision.frame = encodeFrame frame.ackRequired) ∧
    (∀ mid op rest, later = mid ++ op :: rest →
      Resolves frame.key (queueAfter policy (before ++ .enqueue frame nowMs :: mid)) op →
      decisionsFor frame.key ((reliableQueue policy).outputs
        (queueAfter policy (before ++ .enqueue frame nowMs :: mid ++ [op])) rest) = []) := by
  obtain ⟨table, h⟩ := exists_represents policy before
  obtain ⟨table', h', hstep⟩ := h.step (.enqueue frame nowMs)
  have hreply : ((queueAfter policy before).step (.enqueue frame nowMs)).2 = .enqueued .queued :=
    congrArg QueueReply.enqueued hqueued
  rw [hreply] at hstep
  have hget := PendingTable.get_of_queued hstep
  rw [← queueAfter_concat] at h'
  obtain ⟨n, -, hn, hdecisions⟩ := decisionsFor_pending h' hget hlater
  rw [RetryPolicy.normalise_maxAttempts] at hn hdecisions
  refine ⟨⟨n, hn, hdecisions⟩, ?_, ?_⟩
  · intro decision hmem
    have hframe : decision.frame = frame.ackRequired := by
      rcases hdecisions with hsends | ⟨-, hsends⟩
      · rw [hsends] at hmem
        exact mem_sends hmem
      · rw [hsends, List.mem_append, List.mem_singleton] at hmem
        rcases hmem with hmem | rfl
        · exact mem_sends hmem
        · rfl
    exact ⟨hframe, congrArg encodeFrame hframe⟩
  · rintro mid op rest rfl hresolves
    obtain ⟨tableMid, hmid⟩ := exists_represents policy (before ++ .enqueue frame nowMs :: mid)
    obtain ⟨tableEnd, hend, hstepEnd⟩ := hmid.step op
    rw [Mealy.along_append, ← queueAfter_append, List.append_assoc, List.singleton_append] at hlater
    rw [queueAfter_concat]
    exact decisionsFor_absent hend (hresolves.absent hstepEnd) hlater.2.2

/-- A frame queued shortly before the clock wraps is sent, retried and given up. -/
theorem attempt_budget_example :
    decisionsFor (3, 7) ((reliableQueue ⟨250, 2⟩).outputs
        (queueAfter ⟨250, 2⟩ ([] ++ [.enqueue { nodeId := 3, sequence := 7 } 4294967290]))
        [.nextDue 4294967290, .nextDue 243, .nextDue 244, .nextDue (500 : UInt32)]) =
      [⟨.send, { flags := 1, nodeId := 3, sequence := 7 }, 1⟩,
        ⟨.send, { flags := 1, nodeId := 3, sequence := 7 }, 2⟩,
        ⟨.exhausted, { flags := 1, nodeId := 3, sequence := 7 }, 2⟩] := by
  have hthree : (decisionsFor (3, 7) ((reliableQueue ⟨250, 2⟩).outputs
      (queueAfter ⟨250, 2⟩ ([] ++ [.enqueue { nodeId := 3, sequence := 7 } 4294967290]))
      [.nextDue 4294967290, .nextDue 243, .nextDue 244, .nextDue (500 : UInt32)])).length = 3 := by
    decide
  obtain ⟨n, hn, hsends | ⟨rfl, hsends⟩⟩ := (attempt_budget ⟨250, 2⟩ []
    [.nextDue 4294967290, .nextDue 243, .nextDue 244, .nextDue 500]
    { nodeId := 3, sequence := 7 } 4294967290 (by decide) (by
      refine ⟨?_, ?_, ?_, ?_, trivial⟩ <;>
      · rintro ⟨_, _, hop, -⟩
        cases hop)).1
  · -- two sends are not three decisions
    have hlength := congrArg List.length hsends
    rw [show (sends _ 0 n).length = n by simp [sends]] at hlength
    have htwo : n ≤ 2 := hn
    exact absurd (hthree.symm.trans hlength) (by omega)
  · exact hsends

end PicoMesh
