import Mathlib.Data.Int.ModEq
import Mathlib.Tactic.Common

/-!
# Serial numbers: counters that are only known modulo `m`

A sequence byte or a 32-bit tick is an unbounded number seen modulo `m`, and
comparisons are made on the forward distance from one value to the other.
`forwardDistance m u v` is that distance for the numbers `u` and `v`
themselves; the lemmas below say what it is when the numbers are at most a
window apart, and `forwardDistance_lt_iff` that the usual half-range test then
orders them as they really are.  The last section reads subtraction of
fixed-width words as a forward distance.
-/

namespace SerialNumber

/-- The forward distance from `v` to `u` on a dial of `m` values. -/
def forwardDistance (m u v : ℕ) : ℕ := (((u : ℤ) - v) % m).toNat

variable {m u v h : ℕ}

/-! ### Distances inside a window -/

/-- Ahead by less than a turn: the distance is the difference. -/
theorem forwardDistance_of_le (hle : v ≤ u) (hlt : u < v + m) : forwardDistance m u v = u - v := by
  rw [forwardDistance, Int.emod_eq_of_lt (by omega) (by omega)]
  omega

/-- Behind by at most a turn: the distance is the rest of the turn. -/
theorem forwardDistance_of_lt (hlt : u < v) (hle : v ≤ u + m) :
    forwardDistance m u v = m - (v - u) := by
  rw [forwardDistance, ← Int.add_emod_right, Int.emod_eq_of_lt (by omega) (by omega)]
  omega

/-- **The window comparison.**  A distance below `h` means "at or after", for
numbers less than `h` ahead and at most `m - h` behind. -/
theorem forwardDistance_lt_iff (hm : h ≤ m) (hahead : u < v + h) (hbehind : v ≤ u + (m - h)) :
    forwardDistance m u v < h ↔ v ≤ u := by
  rcases le_or_gt v u with hle | hlt
  · rw [forwardDistance_of_le hle (by omega)]
    omega
  · rw [forwardDistance_of_lt hlt (by omega)]
    omega

/-- At most `m - h` behind, a distance below `h` cannot come from behind. -/
theorem le_of_forwardDistance_lt (hm : h ≤ m) (hbehind : v ≤ u + (m - h))
    (hd : forwardDistance m u v < h) : v ≤ u := by
  by_contra hlt
  rw [forwardDistance_of_lt (by omega) (by omega)] at hd
  omega

/-- The distance is at most `d` exactly within `d` after a whole number of turns. -/
theorem forwardDistance_le_iff (hle : v ≤ u) {d : ℕ} :
    forwardDistance m u v ≤ d ↔ ∃ turns, v + turns * m ≤ u ∧ u ≤ v + turns * m + d := by
  have hdist : forwardDistance m u v = (u - v) % m := by
    rw [forwardDistance, ← Nat.cast_sub hle, ← Int.natCast_emod, Int.toNat_natCast]
  rw [hdist]
  constructor
  · intro hd
    -- the turns are the whole ones in the difference
    have hdiv := Nat.div_add_mod' (u - v) m
    exact ⟨(u - v) / m, by omega, by omega⟩
  · rintro ⟨turns, hlo, hhi⟩
    -- whole turns do not change the distance
    have hsplit : u - v = (u - v - turns * m) + turns * m := by omega
    rw [hsplit, Nat.add_mul_mod_self_right]
    exact (Nat.mod_le _ _).trans (by omega)

/-! ### Words -/

theorem toNat_uint8_sub (u v : ℕ) :
    (UInt8.ofNat u - UInt8.ofNat v).toNat = forwardDistance (2 ^ 8) u v := by
  rw [UInt8.toNat_sub, UInt8.toNat_ofNat', UInt8.toNat_ofNat', forwardDistance]
  omega

theorem toNat_uint32_sub (u v : ℕ) :
    (UInt32.ofNat u - UInt32.ofNat v).toNat = forwardDistance (2 ^ 32) u v := by
  rw [UInt32.toNat_sub, UInt32.toNat_ofNat', UInt32.toNat_ofNat', forwardDistance]
  omega

/-- **A timer never fires early**: a 32-bit difference that reaches an interval is of times at
least that far apart. -/
theorem add_le_of_le_uint32_sub {u v : ℕ} (hle : v ≤ u) {interval : UInt32}
    (h : interval ≤ UInt32.ofNat u - UInt32.ofNat v) : v + interval.toNat ≤ u := by
  rw [UInt32.le_iff_toNat_le, toNat_uint32_sub] at h
  have hdist : forwardDistance (2 ^ 32) u v ≤ u - v :=
    (forwardDistance_le_iff hle).mpr ⟨0, by omega, by omega⟩
  omega

/-- **Nor does it fire late**, for times less than a turn apart. -/
theorem le_uint32_sub_iff {u v : ℕ} (hle : v ≤ u) (hlt : u < v + 2 ^ 32) {interval : UInt32} :
    interval ≤ UInt32.ofNat u - UInt32.ofNat v ↔ v + interval.toNat ≤ u := by
  rw [UInt32.le_iff_toNat_le, toNat_uint32_sub, forwardDistance_of_le hle hlt]
  omega

/-- The sign test on a 32-bit word is the half-range test. -/
theorem toInt32_nonneg_iff (x : UInt32) : 0 ≤ x.toInt32 ↔ x.toNat < 2 ^ 31 := by
  rw [Int32.le_iff_toInt_le]
  show 0 ≤ x.toBitVec.toInt ↔ x.toBitVec.toNat < 2 ^ 31
  rw [BitVec.toInt_eq_toNat_cond]
  have hlt := x.toBitVec.isLt
  split_ifs <;> omega

end SerialNumber
