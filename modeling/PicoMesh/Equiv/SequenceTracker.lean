import PicoMesh.SequenceTracker
import PicoMesh.Library.SerialNumber
import PicoMesh.Library.SlotTable

/-!
# Sequence bytes as unbounded numbers

Number the frames of a node without bound and let the tracker see each number
modulo 256.  `Numbered tracker i last` says that the tracker remembers `last`,
the number it accepted last for node `i`; every observation keeps that relation
(`Numbered.observe`), and what it answers follows from how far the observed
number lies ahead of, or behind, the remembered one.
-/

namespace PicoMesh

open SerialNumber

namespace SequenceTracker

/-- The tracker remembers `last` for node `i`. -/
structure Numbered (tracker : SequenceTracker) (i : Fin kMaxNodes) (last : Option ℕ) : Prop where
  seen : tracker.seen.get i = last.isSome
  sequence : ∀ m, last = some m → tracker.lastSequence.get i = UInt8.ofNat m

theorem numbered_start (i : Fin kMaxNodes) : Numbered {} i none :=
  ⟨SlotTable.get_replicate false i, fun _ hm => nomatch hm⟩

variable {tracker : SequenceTracker} {i : Fin kMaxNodes} {nodeId : UInt8}

/-- The tracker after it remembers a sequence byte for node `i`. -/
def remember (tracker : SequenceTracker) (i : Fin kMaxNodes) (sequence : UInt8) :
    SequenceTracker where
  lastSequence := tracker.lastSequence.set i sequence i.isLt
  seen := tracker.seen.set i true i.isLt

/-- An observation of a valid node, at its index. -/
theorem observe_eq (hnode : nodeId.toNat = i.val) (sequence : UInt8) :
    tracker.observe nodeId sequence =
      if !tracker.seen.get i then (tracker.remember i sequence, .first)
      else if sequence - tracker.lastSequence.get i = 0 then (tracker, .duplicate)
      else if sequence - tracker.lastSequence.get i < 128 then
        ({ tracker with lastSequence := tracker.lastSequence.set i sequence i.isLt }, .newer)
      else (tracker, .stale) := by
  -- the index is the node ID itself
  obtain ⟨n, hn⟩ := i
  subst hnode
  unfold observe
  rw [dif_pos hn]
  rfl

theorem numbered_remember (u : ℕ) : (tracker.remember i (UInt8.ofNat u)).Numbered i (some u) := by
  constructor
  · show (tracker.seen.set i true i.isLt).get i = true
    rw [SlotTable.get_set, if_pos rfl]
  · intro m hm
    obtain rfl := Option.some.inj hm
    show (tracker.lastSequence.set i (UInt8.ofNat u) i.isLt).get i = UInt8.ofNat u
    rw [SlotTable.get_set, if_pos rfl]

/-- The first observation of a node. -/
theorem Numbered.observe_first (h : tracker.Numbered i none) (hnode : nodeId.toNat = i.val)
    (sequence : UInt8) :
    tracker.observe nodeId sequence = (tracker.remember i sequence, .first) := by
  rw [observe_eq hnode, h.seen]
  rfl

/-- What a later observation answers, by the forward distance from the remembered
number. -/
theorem Numbered.observe_some {m u : ℕ} (h : tracker.Numbered i (some m))
    (hnode : nodeId.toNat = i.val) :
    tracker.observe nodeId (UInt8.ofNat u) =
      if forwardDistance (2 ^ 8) u m = 0 then (tracker, .duplicate)
      else if forwardDistance (2 ^ 8) u m < 128 then
        (tracker.remember i (UInt8.ofNat u), .newer)
      else (tracker, .stale) := by
  have hzero : UInt8.ofNat u - UInt8.ofNat m = 0 ↔ forwardDistance (2 ^ 8) u m = 0 := by
    rw [← toNat_uint8_sub, ← UInt8.toNat_inj]
    rfl
  have hlt : UInt8.ofNat u - UInt8.ofNat m < 128 ↔ forwardDistance (2 ^ 8) u m < 128 := by
    rw [← toNat_uint8_sub, UInt8.lt_iff_toNat_lt]
    rfl
  -- the node has been seen, so writing the flag again changes nothing
  have hremember :
      { tracker with lastSequence := tracker.lastSequence.set i (UInt8.ofNat u) i.isLt } =
        tracker.remember i (UInt8.ofNat u) := by
    have hseen : tracker.seen.get i = true := h.seen
    unfold remember
    rw [← hseen]
    exact congrArg (SequenceTracker.mk _) (Vector.set_getElem_self i.isLt).symm
  rw [observe_eq hnode, h.seen, h.sequence m rfl, hremember]
  simp only [hzero, hlt]
  rfl

variable {m u : ℕ}

/-- At most 127 ahead: newer, and remembered. -/
theorem Numbered.observe_newer (h : tracker.Numbered i (some m)) (hnode : nodeId.toNat = i.val)
    (hahead : m < u) (hnear : u ≤ m + 127) :
    tracker.observe nodeId (UInt8.ofNat u) = (tracker.remember i (UInt8.ofNat u), .newer) := by
  have hdist := forwardDistance_of_le (m := 2 ^ 8) (show m ≤ u by omega) (by omega)
  rw [h.observe_some hnode, hdist, if_neg (by omega), if_pos (by omega)]

/-- The remembered number itself: a duplicate. -/
theorem Numbered.observe_duplicate (h : tracker.Numbered i (some u))
    (hnode : nodeId.toNat = i.val) :
    tracker.observe nodeId (UInt8.ofNat u) = (tracker, .duplicate) := by
  have hdist := forwardDistance_of_le (m := 2 ^ 8) (le_refl u) (by omega)
  rw [h.observe_some hnode, hdist, if_pos (by omega)]

/-- Behind by at most 128: stale. -/
theorem Numbered.observe_stale (h : tracker.Numbered i (some m)) (hnode : nodeId.toNat = i.val)
    (hbehind : u < m) (hnear : m ≤ u + 128) :
    tracker.observe nodeId (UInt8.ofNat u) = (tracker, .stale) := by
  have hdist := forwardDistance_of_lt (m := 2 ^ 8) hbehind (by omega)
  rw [h.observe_some hnode, hdist, if_neg (by omega), if_neg (by omega)]

/-- **Every observation keeps the numbering**: what is accepted is remembered. -/
theorem Numbered.observe {last : Option ℕ} (h : tracker.Numbered i last)
    (hnode : nodeId.toNat = i.val) (u : ℕ) :
    (tracker.observe nodeId (UInt8.ofNat u)).1.Numbered i
      (if (tracker.observe nodeId (UInt8.ofNat u)).2.accepts then some u else last) := by
  cases last with
  | none =>
    rw [h.observe_first hnode]
    exact numbered_remember u
  | some m =>
    rw [h.observe_some hnode]
    rcases Decidable.em (forwardDistance (2 ^ 8) u m = 0) with hzero | hzero
    · rw [if_pos hzero]
      exact h
    rcases Decidable.em (forwardDistance (2 ^ 8) u m < 128) with hlt | hlt
    · rw [if_neg hzero, if_pos hlt]
      exact numbered_remember u
    · rw [if_neg hzero, if_neg hlt]
      exact h

end SequenceTracker

end PicoMesh
