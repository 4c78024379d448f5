import Mathlib.Data.List.GetD
import Mathlib.Data.Nat.ModEq
import Mathlib.Tactic.Common

/-!
# Burst errors and additive checksums

A string of `n`-bit words is sent bit by bit, with the bits of each word in one of
two orders (`BitOrder`).  A `Burst` changes it inside a window of `n` consecutive
bits only.  Such a window meets at most two words, and of these the first keeps
its bits on one side of a boundary and the second its bits on the other side; so
the two differences cannot cancel modulo `2 ^ n`, and the sum of the words
detects every burst (`Burst.eq_of_sum_modEq`).
-/

namespace BurstError

/-! ### Numbers by their bits -/

section Bits

variable {n k x y : ℕ}

theorem eq_of_testBit (hx : x < 2 ^ n) (hy : y < 2 ^ n)
    (h : ∀ j < n, x.testBit j = y.testBit j) : x = y := by
  apply Nat.eq_of_testBit_eq
  intro j
  rcases lt_or_ge j n with hj | hj
  · exact h j hj
  · have hpow := Nat.pow_le_pow_right Nat.two_pos hj
    rw [Nat.testBit_lt_two_pow (hx.trans_le hpow), Nat.testBit_lt_two_pow (hy.trans_le hpow)]

/-- Numbers that agree from bit `k` on have the same quotient by `2 ^ k`. -/
theorem div_eq_of_testBit (hx : x < 2 ^ n) (hy : y < 2 ^ n)
    (h : ∀ j < n, k ≤ j → x.testBit j = y.testBit j) : x / 2 ^ k = y / 2 ^ k := by
  apply eq_of_testBit ((Nat.div_le_self _ _).trans_lt hx) ((Nat.div_le_self _ _).trans_lt hy)
  intro j _
  rw [Nat.testBit_div_two_pow, Nat.testBit_div_two_pow]
  rcases lt_or_ge (j + k) n with hj | hj
  · exact h _ hj (Nat.le_add_left _ _)
  · have hpow := Nat.pow_le_pow_right Nat.two_pos hj
    rw [Nat.testBit_lt_two_pow (hx.trans_le hpow), Nat.testBit_lt_two_pow (hy.trans_le hpow)]

/-- Numbers that agree below bit `k` have the same remainder by `2 ^ k`. -/
theorem mod_eq_of_testBit (h : ∀ j < k, x.testBit j = y.testBit j) :
    x % 2 ^ k = y % 2 ^ k := by
  apply Nat.eq_of_testBit_eq
  intro j
  rw [Nat.testBit_mod_two_pow, Nat.testBit_mod_two_pow]
  by_cases hj : j < k
  · rw [h j hj]
  · rw [decide_eq_false hj, Bool.false_and, Bool.false_and]

end Bits

/-- Changes on the two sides of a boundary cannot cancel: below it in the first
number, above it in the second. -/
theorem eq_of_sum_mod {m M x y x' y' : ℕ} (hm : m ∣ M) (hx : x' / m = x / m)
    (hy : y' % m = y % m) (hlt : y < M) (hlt' : y' < M)
    (hsum : x' + y' ≡ x + y [MOD M]) : x' = x ∧ y' = y := by
  have hxm : x' ≡ x [MOD m] := Nat.ModEq.add_right_cancel hy (hsum.of_dvd hm)
  have heq : x' = x := by
    rw [← Nat.div_add_mod x' m, ← Nat.div_add_mod x m, hx, hxm]
  refine ⟨heq, ?_⟩
  rw [heq] at hsum
  exact (Nat.ModEq.add_left_cancel' x hsum).eq_of_lt_of_lt hlt' hlt

/-! ### Words as bit strings -/

/-- The order in which the bits of a word are sent. -/
inductive BitOrder where
  | msbFirst
  | lsbFirst
  deriving DecidableEq, Repr

/-- Which bit of an `n`-bit word is sent at its `k`-th place. -/
def BitOrder.index (n : ℕ) : BitOrder → ℕ → ℕ
  | .msbFirst, k => n - 1 - k
  | .lsbFirst, k => k

/-- The bit at place `p` of a string of `n`-bit words. -/
def bitAt (n : ℕ) (order : BitOrder) (words : List ℕ) (p : ℕ) : Bool :=
  (words.getD (p / n) 0).testBit (order.index n (p % n))

variable {n : ℕ} {order : BitOrder} {words words' : List ℕ} {w k j : ℕ}

theorem BitOrder.index_lt (hj : j < n) : order.index n j < n := by
  cases order with
  | msbFirst => exact (Nat.sub_le _ _).trans_lt (Nat.sub_lt (by omega) Nat.one_pos)
  | lsbFirst => exact hj

theorem BitOrder.index_index (hj : j < n) : order.index n (order.index n j) = j := by
  cases order with
  | msbFirst =>
    show n - 1 - (n - 1 - j) = j
    omega
  | lsbFirst => rfl

/-- The place of bit `j` of word `k`. -/
theorem bitAt_index (hj : j < n) :
    bitAt n order words (n * k + order.index n j) = (words.getD k 0).testBit j := by
  have hindex : order.index n j < n := BitOrder.index_lt hj
  rw [bitAt, Nat.mul_add_div (by omega), Nat.div_eq_of_lt hindex, Nat.add_zero, Nat.mul_add_mod,
    Nat.mod_eq_of_lt hindex, BitOrder.index_index hj]

theorem getD_lt (h : ∀ x ∈ words, x < 2 ^ n) (k : ℕ) : words.getD k 0 < 2 ^ n := by
  rcases lt_or_ge k words.length with hk | hk
  · rw [List.getD_eq_getElem _ _ hk]
    exact h _ (List.getElem_mem hk)
  · rw [List.getD_eq_default _ _ hk]
    exact Nat.two_pow_pos n

/-- A sum with two neighbouring terms taken out. -/
theorem sum_eq_pair (words : List ℕ) (i : ℕ) :
    words.sum = (words.take i).sum + (words.getD i 0 + words.getD (i + 1) 0) +
      (words.drop (i + 2)).sum := by
  induction words generalizing i with
  | nil => simp
  | cons x words ih =>
    cases i with
    | zero =>
      cases words with
      | nil => simp
      | cons y words => simp [Nat.add_assoc]
    | succ i =>
      have hrest := ih i
      simp only [List.sum_cons, List.take_succ_cons, List.getD_cons_succ, List.drop_succ_cons]
      omega

/-! ### Bursts -/

/-- `words'` differs from `words` at most in the `n` consecutive bits from place `w`
on. -/
structure Burst (n : ℕ) (order : BitOrder) (w : ℕ) (words words' : List ℕ) : Prop where
  length : words'.length = words.length
  outside : ∀ p, p < w ∨ w + n ≤ p → bitAt n order words' p = bitAt n order words p

namespace Burst

/-- A bit outside the window. -/
theorem testBit_eq (h : Burst n order w words words') (hj : j < n)
    (hp : n * k + order.index n j < w ∨ w + n ≤ n * k + order.index n j) :
    (words'.getD k 0).testBit j = (words.getD k 0).testBit j := by
  rw [← bitAt_index hj, ← bitAt_index hj]
  exact h.outside _ hp

variable (h : Burst n order w words words') (hwords : ∀ x ∈ words, x < 2 ^ n)
  (hwords' : ∀ x ∈ words', x < 2 ^ n)

include h hwords hwords'

/-- A word that the window does not meet. -/
theorem getD_eq (hn : 0 < n) (hk : k < w / n ∨ w / n + 2 ≤ k) :
    words'.getD k 0 = words.getD k 0 := by
  apply eq_of_testBit (getD_lt hwords' k) (getD_lt hwords k)
  intro j hj
  have hindex : order.index n j < n := BitOrder.index_lt hj
  have hw := Nat.div_add_mod w n
  have hr := Nat.mod_lt w hn
  apply h.testBit_eq hj
  rcases hk with hk | hk
  · have hle := Nat.mul_le_mul_left n (Nat.succ_le_of_lt hk)
    rw [Nat.mul_succ] at hle
    omega
  · have hle := Nat.mul_le_mul_left n hk
    rw [Nat.mul_add] at hle
    omega

/-- The two words that the window may meet: they agree on different sides of a
boundary. -/
theorem exists_boundary (hn : 0 < n) :
    ∃ s ≤ n, (words'.getD (w / n) 0 / 2 ^ s = words.getD (w / n) 0 / 2 ^ s ∧
        words'.getD (w / n + 1) 0 % 2 ^ s = words.getD (w / n + 1) 0 % 2 ^ s) ∨
      (words'.getD (w / n) 0 % 2 ^ s = words.getD (w / n) 0 % 2 ^ s ∧
        words'.getD (w / n + 1) 0 / 2 ^ s = words.getD (w / n + 1) 0 / 2 ^ s) := by
  have hw := Nat.div_add_mod w n
  have hr := Nat.mod_lt w hn
  have hnext : n * (w / n + 1) = n * (w / n) + n := Nat.mul_succ n (w / n)
  cases order with
  | msbFirst =>
    -- the window starts inside the first word and leaves its high bits
    refine ⟨n - w % n, Nat.sub_le _ _, Or.inl ⟨?_, ?_⟩⟩
    · refine div_eq_of_testBit (getD_lt hwords' _) (getD_lt hwords _) fun j hj hle => ?_
      refine h.testBit_eq hj (Or.inl ?_)
      show n * (w / n) + (n - 1 - j) < w
      omega
    · refine mod_eq_of_testBit fun j hj => ?_
      refine h.testBit_eq (by omega) (Or.inr ?_)
      show w + n ≤ n * (w / n + 1) + (n - 1 - j)
      omega
  | lsbFirst =>
    refine ⟨w % n, hr.le, Or.inr ⟨?_, ?_⟩⟩
    · refine mod_eq_of_testBit fun j hj => ?_
      refine h.testBit_eq (by omega) (Or.inl ?_)
      show n * (w / n) + j < w
      omega
    · refine div_eq_of_testBit (getD_lt hwords' _) (getD_lt hwords _) fun j hj hle => ?_
      refine h.testBit_eq hj (Or.inr ?_)
      show w + n ≤ n * (w / n + 1) + j
      omega

omit hwords hwords' in
/-- Equal words at the same places. -/
theorem eq_of_getD (hall : ∀ k, words'.getD k 0 = words.getD k 0) : words' = words := by
  refine List.ext_getElem h.length fun k hk' hk => ?_
  rw [← List.getD_eq_getElem _ 0 hk', ← List.getD_eq_getElem _ 0 hk, hall k]

/-- The words before and behind the two that the window may meet. -/
theorem take_eq_and_drop_eq (hn : 0 < n) :
    words'.take (w / n) = words.take (w / n) ∧
      words'.drop (w / n + 2) = words.drop (w / n + 2) := by
  constructor
  · refine List.ext_getElem (by rw [List.length_take, List.length_take, h.length])
      fun k hk' hk => ?_
    rw [List.length_take] at hk hk'
    rw [List.getElem_take, List.getElem_take, ← List.getD_eq_getElem _ 0 (by omega),
      ← List.getD_eq_getElem _ 0 (by omega), h.getD_eq hwords hwords' hn (Or.inl (by omega))]
  · refine List.ext_getElem (by rw [List.length_drop, List.length_drop, h.length])
      fun k hk' hk => ?_
    rw [List.length_drop] at hk hk'
    rw [List.getElem_drop, List.getElem_drop, ← List.getD_eq_getElem _ 0 (by omega),
      ← List.getD_eq_getElem _ 0 (by omega), h.getD_eq hwords hwords' hn (Or.inr (by omega))]

/-- **The sum modulo `2 ^ n` detects every burst of up to `n` bits.** -/
theorem eq_of_sum_modEq (hn : 0 < n) (hsum : words'.sum ≡ words.sum [MOD 2 ^ n]) :
    words' = words := by
  obtain ⟨htake, hdrop⟩ := h.take_eq_and_drop_eq hwords hwords' hn
  have hfirst := getD_lt hwords (w / n)
  have hfirst' := getD_lt hwords' (w / n)
  have hsecond := getD_lt hwords (w / n + 1)
  have hsecond' := getD_lt hwords' (w / n + 1)
  rw [sum_eq_pair words' (w / n), sum_eq_pair words (w / n), htake, hdrop] at hsum
  have hpair := Nat.ModEq.add_left_cancel' _ (Nat.ModEq.add_right_cancel' _ hsum)
  have hboth : words'.getD (w / n) 0 = words.getD (w / n) 0 ∧
      words'.getD (w / n + 1) 0 = words.getD (w / n + 1) 0 := by
    obtain ⟨s, hs, ⟨hdiv, hmod⟩ | ⟨hmod, hdiv⟩⟩ := h.exists_boundary hwords hwords' hn
    · exact eq_of_sum_mod (pow_dvd_pow 2 hs) hdiv hmod hsecond hsecond' hpair
    · rw [Nat.add_comm, Nat.add_comm (words.getD (w / n) 0)] at hpair
      exact (eq_of_sum_mod (pow_dvd_pow 2 hs) hdiv hmod hfirst hfirst' hpair).symm
  apply h.eq_of_getD
  intro k
  rcases lt_trichotomy k (w / n) with hk | rfl | hk
  · exact h.getD_eq hwords hwords' hn (Or.inl hk)
  · exact hboth.1
  · rcases (Nat.succ_le_of_lt hk).eq_or_lt with rfl | hk'
    · exact hboth.2
    · exact h.getD_eq hwords hwords' hn (Or.inr hk')

end Burst

end BurstError
