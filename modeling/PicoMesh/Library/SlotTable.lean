import Mathlib.Algebra.BigOperators.Group.Finset.Basic
import Mathlib.Data.List.FinRange
import Mathlib.Data.Set.Card

/-!
# Fixed-size slot arrays as bounded maps

Embedded code keeps small tables in an array of slots, each free or holding a
key and a value, and works on them with loops that stop at the first slot that
meets a condition.  `SlotTable.first` is that loop.  `lookup` reads such an
array as a partial map; where the keys held are pairwise distinct (`Distinct`),
filling a free slot, emptying a slot and rewriting a slot's value are insertion,
removal and update of that map at one key, and the number of slots in use is
its size.  `BoundedMap` is the abstract value: a finite map that carries the
bound on its size.
-/

/-- A partial map with at most `capacity` bindings. -/
structure BoundedMap (κ ε : Type*) (capacity : ℕ) where
  /-- The value bound to a key. -/
  get : κ → Option ε
  finite : {k | (get k).isSome}.Finite
  bounded : {k | (get k).isSome}.ncard ≤ capacity

/-- The number of bindings. -/
noncomputable def BoundedMap.size {κ ε : Type*} {capacity : ℕ} (m : BoundedMap κ ε capacity) : ℕ :=
  {k | (m.get k).isSome}.ncard

namespace SlotTable

variable {α κ ε : Type*} {n : ℕ}

/-! ### Reading slots -/

theorem get_replicate (s : α) (i : Fin n) : (Vector.replicate n s).get i = s :=
  Vector.getElem_replicate i.isLt

theorem get_set (slots : Vector α n) (i : Fin n) (s : α) (j : Fin n) :
    (slots.set i s i.isLt).get j = if i = j then s else slots.get j := by
  show (slots.set i s i.isLt)[j.val] = if i = j then s else slots[j.val]
  rw [Vector.getElem_set]
  simp only [Fin.ext_iff]

/-! ### The first slot that meets a condition -/

/-- The index of the first slot that meets `p`, scanning in index order. -/
def first (p : α → Bool) (slots : Vector α n) : Option (Fin n) :=
  (List.finRange n).find? fun i => p (slots.get i)

/-- The number of slots that meet `p`. -/
def count (p : α → Bool) (slots : Vector α n) : ℕ :=
  (List.finRange n).countP fun i => p (slots.get i)

theorem first_eq_none {p : α → Bool} {slots : Vector α n} :
    first p slots = none ↔ ∀ i : Fin n, p (slots.get i) = false := by
  simp [first]

theorem first_eq_some {p : α → Bool} {slots : Vector α n} {i : Fin n} :
    first p slots = some i ↔ p (slots.get i) = true ∧ ∀ j < i, p (slots.get j) = false := by
  rw [first, List.find?_eq_some_iff_getElem]
  constructor
  · -- an index is its own position in the scan
    rintro ⟨hp, k, hk, rfl, hbefore⟩
    refine ⟨hp, fun j hj => ?_⟩
    have hjk : j.val < k := by simpa [Fin.lt_def] using hj
    simpa using hbefore j hjk
  · rintro ⟨hp, hbefore⟩
    refine ⟨hp, i, by simp, by simp, fun j hj => ?_⟩
    have hj' := hbefore ⟨j, by omega⟩ hj
    simpa using hj'

/-- Two arrays whose slots agree on the condition have the same first slot. -/
theorem first_congr {β : Type*} {p : α → Bool} {q : β → Bool} {slots : Vector α n}
    {slots' : Vector β n} (h : ∀ i : Fin n, p (slots.get i) = q (slots'.get i)) :
    first p slots = first q slots' := by
  simp only [first, h]

theorem count_congr {β : Type*} {p : α → Bool} {q : β → Bool} {slots : Vector α n}
    {slots' : Vector β n} (h : ∀ i : Fin n, p (slots.get i) = q (slots'.get i)) :
    count p slots = count q slots' := by
  simp only [count, h]

theorem count_eq_card (p : α → Bool) (slots : Vector α n) :
    count p slots = (Finset.univ.filter fun i : Fin n => p (slots.get i) = true).card := by
  rw [count, List.countP_eq_length_filter]
  simp only [Finset.card, Finset.filter, Finset.univ, Fintype.elems, Multiset.filter_coe,
    Multiset.coe_card, Bool.decide_eq_true]

/-- No slot is counted exactly when there is no first one. -/
theorem count_eq_zero {p : α → Bool} {slots : Vector α n} :
    count p slots = 0 ↔ ∀ i : Fin n, p (slots.get i) = false := by
  simp [count, List.countP_eq_zero]

/-- Every slot is counted exactly when the count is the capacity. -/
theorem count_eq_capacity {p : α → Bool} {slots : Vector α n} :
    count p slots = n ↔ ∀ i : Fin n, p (slots.get i) = true := by
  have h := List.countP_eq_length (p := fun i => p (slots.get i)) (l := List.finRange n)
  rw [List.length_finRange] at h
  rw [count, h]
  simp

/-! ### All slots that meet a condition -/

/-- The indices of the slots that meet `p`, in index order. -/
def positions (p : α → Bool) (slots : Vector α n) : List (Fin n) :=
  (List.finRange n).filter fun i => p (slots.get i)

theorem nodup_positions (p : α → Bool) (slots : Vector α n) : (positions p slots).Nodup :=
  (List.nodup_finRange n).filter _

theorem length_positions_le (p : α → Bool) (slots : Vector α n) :
    (positions p slots).length ≤ n := by
  have hle := List.length_filter_le (fun i => p (slots.get i)) (List.finRange n)
  rwa [List.length_finRange] at hle

/-- The first slot heads them. -/
theorem first_eq_head (p : α → Bool) (slots : Vector α n) :
    first p slots = (positions p slots).head? :=
  List.head?_filter.symm

/-- Writing the first slot so that it no longer meets the condition leaves the
others. -/
theorem positions_set {p : α → Bool} {slots : Vector α n} {i : Fin n} {rest : List (Fin n)} {s : α}
    (h : positions p slots = i :: rest) (hs : p s = false) :
    positions p (slots.set i s i.isLt) = rest := by
  have hnodup := nodup_positions p slots
  rw [h, List.nodup_cons] at hnodup
  have hothers : positions p (slots.set i s i.isLt) =
      (positions p slots).filter fun j => j ≠ i := by
    rw [positions, positions, List.filter_filter]
    apply List.filter_congr
    intro j _
    rw [get_set]
    split_ifs with hij
    · rw [hs, ← hij]
      simp
    · simp [Ne.symm hij]
  rw [hothers, h, List.filter_cons_of_neg (by simp), List.filter_eq_self]
  intro j hj
  have hne : j ≠ i := by
    rintro rfl
    exact hnodup.1 hj
  exact decide_eq_true hne

/-! ### Sums over the slots -/

/-- The sum of a weight over all slots. -/
def total (w : α → ℕ) (slots : Vector α n) : ℕ := ∑ i, w (slots.get i)

/-- Writing a slot exchanges its weight. -/
theorem total_set (w : α → ℕ) (slots : Vector α n) (i : Fin n) (s : α) :
    total w (slots.set i s i.isLt) + w (slots.get i) = total w slots + w s := by
  have hrest : ∑ j ∈ Finset.univ.erase i, w ((slots.set i s i.isLt).get j) =
      ∑ j ∈ Finset.univ.erase i, w (slots.get j) := by
    apply Finset.sum_congr rfl
    intro j hj
    rw [get_set, if_neg (Finset.ne_of_mem_erase hj).symm]
  rw [total, total, ← Finset.add_sum_erase _ _ (Finset.mem_univ i),
    ← Finset.add_sum_erase _ (fun j => w (slots.get j)) (Finset.mem_univ i), hrest, get_set,
    if_pos rfl]
  omega

theorem total_replicate {w : α → ℕ} {s : α} (hs : w s = 0) :
    total w (Vector.replicate n s) = 0 := by
  apply Finset.sum_eq_zero
  intro i _
  rw [get_replicate, hs]

/-! ### The map a slot array represents -/

section Map

-- `binding s` is the key and value that slot `s` holds, if it is in use.
variable (binding : α → Option (κ × ε))

/-- No two slots hold the same key. -/
def Distinct (slots : Vector α n) : Prop :=
  ∀ (i j : Fin n) (k : κ) (e e' : ε),
    binding (slots.get i) = some (k, e) → binding (slots.get j) = some (k, e') → i = j

variable [DecidableEq κ]

/-- The value held under a key, at the first slot that holds it. -/
def lookup (slots : Vector α n) (k : κ) : Option ε :=
  (List.finRange n).findSome? fun i =>
    (binding (slots.get i)).bind fun b => if b.1 = k then some b.2 else none

variable {binding}

theorem exists_of_lookup {slots : Vector α n} {k : κ} {e : ε}
    (h : lookup binding slots k = some e) : ∃ i : Fin n, binding (slots.get i) = some (k, e) := by
  obtain ⟨i, -, hi⟩ := List.exists_of_findSome?_eq_some h
  rw [Option.bind_eq_some_iff] at hi
  obtain ⟨⟨k', e'⟩, hb, hk⟩ := hi
  split_ifs at hk with hkk
  refine ⟨i, ?_⟩
  obtain rfl : e' = e := Option.some.inj hk
  rw [hb, ← hkk]

theorem lookup_eq_none {slots : Vector α n} {k : κ} :
    lookup binding slots k = none ↔ ∀ (i : Fin n) (e : ε), binding (slots.get i) ≠ some (k, e) := by
  constructor
  · intro h i e hi
    have hnone := List.findSome?_eq_none_iff.mp h i (by simp)
    rw [hi] at hnone
    simp at hnone
  · intro h
    by_contra hne
    obtain ⟨e, he⟩ := Option.ne_none_iff_exists'.mp hne
    obtain ⟨i, hi⟩ := exists_of_lookup he
    exact h i e hi

/-- With distinct keys, what any slot holds is what the map gives. -/
theorem lookup_eq_some {slots : Vector α n} (hd : Distinct binding slots) {k : κ} {e : ε} :
    lookup binding slots k = some e ↔ ∃ i : Fin n, binding (slots.get i) = some (k, e) := by
  refine ⟨exists_of_lookup, ?_⟩
  rintro ⟨i, hi⟩
  cases hl : lookup binding slots k with
  | none => exact absurd hi (lookup_eq_none.mp hl i e)
  | some e' =>
    obtain ⟨j, hj⟩ := exists_of_lookup hl
    obtain rfl := hd i j k e e' hi hj
    rw [hi] at hj
    exact congrArg _ (Prod.ext_iff.mp (Option.some.inj hj)).2.symm

variable (binding) in
/-- Every bound key has a slot of its own. -/
theorem exists_injOn_slot (slots : Vector α n) :
    ∃ f : κ → Option (Fin n), (∀ k, (lookup binding slots k).isSome → (f k).isSome) ∧
      Set.InjOn f {k | (lookup binding slots k).isSome} := by
  classical
  -- any slot that holds the key will do: a slot holds one key only
  refine ⟨fun k => if h : ∃ (i : Fin n) (e : ε), binding (slots.get i) = some (k, e) then
    some h.choose else none, fun k hk => ?_, fun k hk k' hk' heq => ?_⟩
  · obtain ⟨e, he⟩ := Option.isSome_iff_exists.mp hk
    obtain ⟨i, hi⟩ := exists_of_lookup he
    have hex : ∃ (i : Fin n) (e : ε), binding (slots.get i) = some (k, e) := ⟨i, e, hi⟩
    simp only [dif_pos hex, Option.isSome_some]
  · obtain ⟨e, he⟩ := Option.isSome_iff_exists.mp hk
    obtain ⟨e', he'⟩ := Option.isSome_iff_exists.mp hk'
    obtain ⟨i, hi⟩ := exists_of_lookup he
    obtain ⟨i', hi'⟩ := exists_of_lookup he'
    have hex : ∃ (i : Fin n) (e : ε), binding (slots.get i) = some (k, e) := ⟨i, e, hi⟩
    have hex' : ∃ (i : Fin n) (e : ε), binding (slots.get i) = some (k', e) := ⟨i', e', hi'⟩
    simp only [dif_pos hex, dif_pos hex', Option.some.injEq] at heq
    obtain ⟨a, ha⟩ := hex.choose_spec
    obtain ⟨b, hb⟩ := hex'.choose_spec
    rw [heq, hb] at ha
    exact (Prod.ext_iff.mp (Option.some.inj ha)).1.symm

theorem finite_lookup (slots : Vector α n) : {k | (lookup binding slots k).isSome}.Finite := by
  obtain ⟨f, -, hinj⟩ := exists_injOn_slot binding slots
  exact Set.Finite.of_finite_image (Set.toFinite _) hinj

theorem ncard_lookup_le (slots : Vector α n) :
    {k | (lookup binding slots k).isSome}.ncard ≤ n := by
  obtain ⟨f, hsome, hinj⟩ := exists_injOn_slot binding slots
  rw [← hinj.ncard_image]
  have hsub : f '' {k | (lookup binding slots k).isSome} ⊆ some '' (Set.univ : Set (Fin n)) := by
    rintro _ ⟨k, hk, rfl⟩
    obtain ⟨i, hi⟩ := Option.isSome_iff_exists.mp (hsome k hk)
    exact ⟨i, trivial, hi.symm⟩
  refine (Set.ncard_le_ncard hsub (Set.toFinite _)).trans ?_
  rw [Set.ncard_image_of_injective _ (Option.some_injective _), Set.ncard_univ,
    Nat.card_eq_fintype_card, Fintype.card_fin]

variable (binding) in
/-- The bounded map a slot array represents. -/
def toMap (slots : Vector α n) : BoundedMap κ ε n where
  get := lookup binding slots
  finite := finite_lookup slots
  bounded := ncard_lookup_le slots

@[simp] theorem toMap_get (slots : Vector α n) : (toMap binding slots).get = lookup binding slots :=
  rfl

/-- **With distinct keys the size of the map is the number of slots in use.** -/
theorem size_toMap {slots : Vector α n} (hd : Distinct binding slots) :
    (toMap binding slots).size = count (fun s => (binding s).isSome) slots := by
  classical
  rw [BoundedMap.size, count_eq_card, ← Set.ncard_coe_finset]
  -- a slot in use goes to its key; distinct keys make that a bijection onto the bound ones
  have hkey : ∀ i : Fin n, (binding (slots.get i)).isSome →
      ∃ k, ∃ e, binding (slots.get i) = some (k, e) := by
    intro i hi
    obtain ⟨⟨k, e⟩, h⟩ := Option.isSome_iff_exists.mp hi
    exact ⟨k, e, h⟩
  refine (Set.ncard_congr (fun i hi => (hkey i (by simpa using hi)).choose) ?_ ?_ ?_).symm
  · intro i hi
    obtain ⟨e, he⟩ := (hkey i (by simpa using hi)).choose_spec
    exact Option.isSome_iff_exists.mpr ⟨e, (lookup_eq_some hd).mpr ⟨i, he⟩⟩
  · intro i j hi hj heq
    obtain ⟨e, he⟩ := (hkey i (by simpa using hi)).choose_spec
    obtain ⟨e', he'⟩ := (hkey j (by simpa using hj)).choose_spec
    rw [← heq] at he'
    exact hd i j _ e e' he he'
  · intro k hk
    obtain ⟨e, he⟩ := Option.isSome_iff_exists.mp hk
    obtain ⟨i, hi⟩ := exists_of_lookup he
    have hmem : (binding (slots.get i)).isSome := by rw [hi]; rfl
    refine ⟨i, by simpa using hmem, ?_⟩
    obtain ⟨e', he'⟩ := (hkey i hmem).choose_spec
    have heq := Option.some.inj (hi.symm.trans he')
    exact (Prod.ext_iff.mp heq).1.symm

/-! ### Writing slots -/

omit [DecidableEq κ] in
/-- Writing a slot keeps the keys distinct when no other slot holds the new
slot's key. -/
theorem Distinct.set {slots : Vector α n} (hd : Distinct binding slots) (i : Fin n) (s : α)
    (h : ∀ k e, binding s = some (k, e) → ∀ j ≠ i, ∀ e', binding (slots.get j) ≠ some (k, e')) :
    Distinct binding (slots.set i s i.isLt) := by
  intro a b k e e' ha hb
  rw [get_set] at ha hb
  split_ifs at ha hb with hia hib hib
  · rw [← hia, ← hib]
  · exact absurd hb (h k e ha b (Ne.symm hib) e')
  · exact absurd ha (h k e' hb a (Ne.symm hia) e)
  · exact hd a b k e e' ha hb

/-- **Writing a slot is an update of the map at one key**, when the slot held
that key or nothing, holds that key or nothing afterwards, and no other slot
holds it. -/
theorem lookup_set {slots : Vector α n} (hd : Distinct binding slots) (i : Fin n) (s : α) (k : κ)
    (hold : ∀ k' e, binding (slots.get i) = some (k', e) → k' = k)
    (hnew : ∀ k' e, binding s = some (k', e) → k' = k)
    (hother : ∀ j ≠ i, ∀ e, binding (slots.get j) ≠ some (k, e)) :
    lookup binding (slots.set i s i.isLt) =
      Function.update (lookup binding slots) k ((binding s).map Prod.snd) := by
  have hd' : Distinct binding (slots.set i s i.isLt) := hd.set i s fun k' e h j hj e' => by
    rw [hnew k' e h]; exact hother j hj e'
  funext x
  refine Option.ext fun e => ?_
  rw [lookup_eq_some hd']
  by_cases hx : x = k
  · -- only the written slot can hold the key now
    subst hx
    rw [Function.update_self, Option.map_eq_some_iff]
    constructor
    · rintro ⟨j, hj⟩
      rw [get_set] at hj
      split_ifs at hj with hij
      · exact ⟨(x, e), hj, rfl⟩
      · exact absurd hj (hother j (Ne.symm hij) e)
    · rintro ⟨⟨k', e'⟩, hs, rfl⟩
      refine ⟨i, ?_⟩
      rw [get_set, if_pos rfl, hs, hnew k' e' hs]
  · -- a slot that holds another key is not the written one, before or after
    rw [Function.update_of_ne hx, lookup_eq_some hd]
    constructor
    · rintro ⟨j, hj⟩
      rw [get_set] at hj
      split_ifs at hj with hij
      · exact absurd (hnew x e hj) hx
      · exact ⟨j, hj⟩
    · rintro ⟨j, hj⟩
      refine ⟨j, ?_⟩
      rw [get_set, if_neg, hj]
      rintro rfl
      exact hx (hold x e hj)

end Map

end SlotTable
