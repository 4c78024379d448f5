import Mathlib.Algebra.BigOperators.Group.Finset.Basic
import Mathlib.Data.Finmap
import Mathlib.Data.List.Induction

/-!
# Dictionaries that are filled item by item

A `Dictionary` is a finite map.  Scripting languages fill one by looking up the
value under an item's key, a missing one counting as a default, and storing what
becomes of it: counters, lists by key and records by key are all filled so.
`tally` is such a loop over a list of items.  Under any key it leaves what the
items with that key make of the default (`lookup_tally`), and a weight that every
item raises by one adds up to the number of items (`total_tally`).
-/

/-- A finite map from keys to values. -/
abbrev Dictionary (κ α : Type*) := Finmap fun _ : κ => α

namespace Dictionary

variable {κ α ι : Type*} [DecidableEq κ]

/-- The value under a key, or the default. -/
def getD (d : Dictionary κ α) (k : κ) (default : α) : α := (d.lookup k).getD default

/-- Apply `act` to the value under a key, a missing one counting as `default`. -/
def modify (d : Dictionary κ α) (k : κ) (default : α) (act : α → α) : Dictionary κ α :=
  d.insert k (act (d.getD k default))

theorem getD_modify (d : Dictionary κ α) (k j : κ) (default : α) (act : α → α) :
    (d.modify k default act).getD j default =
      if j = k then act (d.getD k default) else d.getD j default := by
  unfold modify getD
  split_ifs with hjk
  · rw [hjk, Finmap.lookup_insert, Option.getD_some]
  · rw [Finmap.lookup_insert_of_ne d hjk]

theorem keys_modify (d : Dictionary κ α) (k : κ) (default : α) (act : α → α) :
    (d.modify k default act).keys = insert k d.keys := by
  ext j
  rw [modify, Finmap.mem_keys, Finmap.mem_insert, Finset.mem_insert, Finmap.mem_keys]

/-! ### Totals -/

/-- The sum of a weight over all values. -/
def total (w : α → ℕ) (default : α) (d : Dictionary κ α) : ℕ :=
  ∑ k ∈ d.keys, w (d.getD k default)

/-- A default that weighs nothing need not be left out. -/
theorem total_eq_sum_insert {w : α → ℕ} {default : α} (hzero : w default = 0)
    (d : Dictionary κ α) (k : κ) :
    d.total w default = ∑ j ∈ insert k d.keys, w (d.getD j default) := by
  by_cases hk : k ∈ d.keys
  · rw [Finset.insert_eq_of_mem hk, total]
  · have hmissing : d.getD k default = default := by
      rw [Finmap.mem_keys, ← Finmap.lookup_eq_none] at hk
      rw [getD, hk, Option.getD_none]
    rw [Finset.sum_insert hk, hmissing, hzero, Nat.zero_add, total]

/-- **Modifying one value exchanges its weight.** -/
theorem total_modify {w : α → ℕ} {default : α} (hzero : w default = 0) (d : Dictionary κ α)
    (k : κ) (act : α → α) :
    (d.modify k default act).total w default + w (d.getD k default) =
      d.total w default + w (act (d.getD k default)) := by
  have hk : k ∈ insert k d.keys := Finset.mem_insert_self _ _
  have hrest : ∑ j ∈ (insert k d.keys).erase k, w ((d.modify k default act).getD j default) =
      ∑ j ∈ (insert k d.keys).erase k, w (d.getD j default) := by
    apply Finset.sum_congr rfl
    intro j hj
    rw [getD_modify, if_neg (Finset.ne_of_mem_erase hj)]
  rw [total_eq_sum_insert hzero d k, total, keys_modify, ← Finset.add_sum_erase _ _ hk,
    ← Finset.add_sum_erase _ (fun j => w (d.getD j default)) hk, hrest, getD_modify, if_pos rfl]
  omega

/-! ### Tallies -/

/-- Fill a dictionary item by item. -/
def tally (key : ι → κ) (default : α) (act : α → ι → α) (items : List ι) : Dictionary κ α :=
  items.foldl (fun d item => d.modify (key item) default fun value => act value item) ∅

variable {key : ι → κ} {default : α} {act : α → ι → α}

theorem tally_concat (items : List ι) (item : ι) :
    tally key default act (items ++ [item]) =
      (tally key default act items).modify (key item) default fun value => act value item :=
  List.foldl_concat _ _ _ _

/-- **Under a key is what the items with that key make of the default.** -/
theorem getD_tally (items : List ι) (k : κ) :
    (tally key default act items).getD k default =
      (items.filter fun item => key item = k).foldl act default := by
  induction items using List.reverseRecOn with
  | nil =>
    rw [tally, List.foldl_nil, getD, Finmap.lookup_empty]
    rfl
  | append_singleton items item ih =>
    rw [tally_concat, getD_modify, List.filter_append]
    split_ifs with hk
    · rw [List.filter_cons_of_pos (by simp [hk]), List.filter_nil, List.foldl_concat, ← hk, ih]
    · rw [List.filter_cons_of_neg (by simpa using fun h => hk h.symm), List.filter_nil,
        List.append_nil, ih]

/-- **The total of a weight that every item raises by one** is the number of items. -/
theorem total_tally {w : α → ℕ} (hzero : w default = 0)
    (hone : ∀ value item, w (act value item) = w value + 1) (items : List ι) :
    (tally key default act items).total w default = items.length := by
  induction items using List.reverseRecOn with
  | nil =>
    rw [tally, List.foldl_nil, total, Finmap.keys_empty]
    rfl
  | append_singleton items item ih =>
    have htotal := total_modify hzero (tally key default act items) (key item)
      fun value => act value item
    rw [hone, ih] at htotal
    rw [tally_concat, List.length_append, List.length_singleton]
    omega

end Dictionary
