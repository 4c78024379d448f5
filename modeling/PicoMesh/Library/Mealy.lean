import Mathlib.Algebra.BigOperators.Group.List.Basic
import Mathlib.Data.List.Basic
import Mathlib.Tactic.Common

/-!
# Mealy machines over an arbitrary state, input and output type

A program component that keeps state and answers every call with a value is a
transition function `σ → ι → σ × ο`.  This file packages such a function with
its start state and develops what every verification of such a component
needs once: the state and the answers after a finite run (`run`, `outputs`),
how both split over an appended input (`run_append`, `outputs_append`),
reachability and the invariant rule (`Reachable.invariant`), side conditions
on the steps of a run (`Along`), the simulation rule for two machines
(`Simulation`) and the rule for a part of a machine (`Projection`).

Nothing here mentions what the inputs and answers are.
-/

/-- A **Mealy machine**: a start state and a transition function that answers
every input. -/
structure Mealy (σ ι ο : Type*) where
  /-- The state before any input. -/
  start : σ
  /-- One transition: the next state and the answer. -/
  step : σ → ι → σ × ο

namespace Mealy

variable {σ σ₁ σ₂ ι ο : Type*} (M : Mealy σ ι ο)

/-! ### Runs -/

/-- The state after feeding `is` from `s`. -/
def run (s : σ) : List ι → σ
  | [] => s
  | i :: is => run (M.step s i).1 is

/-- The answers while feeding `is` from `s`, one for each input. -/
def outputs (s : σ) : List ι → List ο
  | [] => []
  | i :: is => (M.step s i).2 :: outputs (M.step s i).1 is

@[simp] theorem run_nil (s : σ) : M.run s [] = s := rfl

@[simp] theorem run_cons (s : σ) (i : ι) (is : List ι) :
    M.run s (i :: is) = M.run (M.step s i).1 is := rfl

@[simp] theorem outputs_nil (s : σ) : M.outputs s [] = [] := rfl

@[simp] theorem outputs_cons (s : σ) (i : ι) (is : List ι) :
    M.outputs s (i :: is) = (M.step s i).2 :: M.outputs (M.step s i).1 is := rfl

theorem run_append (s : σ) (is js : List ι) :
    M.run s (is ++ js) = M.run (M.run s is) js := by
  induction is generalizing s with
  | nil => rfl
  | cons i is ih => exact ih _

theorem outputs_append (s : σ) (is js : List ι) :
    M.outputs s (is ++ js) = M.outputs s is ++ M.outputs (M.run s is) js := by
  induction is generalizing s with
  | nil => rfl
  | cons i is ih => rw [List.cons_append, outputs_cons, ih]; rfl

/-- The last transition of a run. -/
theorem run_concat (s : σ) (is : List ι) (i : ι) :
    M.run s (is ++ [i]) = (M.step (M.run s is) i).1 :=
  M.run_append s is [i]

theorem outputs_concat (s : σ) (is : List ι) (i : ι) :
    M.outputs s (is ++ [i]) = M.outputs s is ++ [(M.step (M.run s is) i).2] :=
  M.outputs_append s is [i]

@[simp] theorem length_outputs (s : σ) (is : List ι) :
    (M.outputs s is).length = is.length := by
  induction is generalizing s with
  | nil => rfl
  | cons i is ih => rw [outputs_cons, List.length_cons, ih, List.length_cons]

/-- The `k`-th answer is the answer to the `k`-th input in the state the first
`k` inputs lead to. -/
theorem getElem_outputs (s : σ) (is : List ι) (k : ℕ) (hk : k < is.length)
    (hk' : k < (M.outputs s is).length) :
    (M.outputs s is)[k] = (M.step (M.run s (is.take k)) is[k]).2 := by
  induction is generalizing s k with
  | nil => exact absurd hk (Nat.not_lt_zero k)
  | cons i is ih =>
    cases k with
    | zero => rfl
    | succ k => exact ih _ k (Nat.lt_of_succ_lt_succ hk) _

/-! ### Reading answers another way -/

/-- The machine with its answers translated. -/
def mapOutput {ο' : Type*} (g : ο → ο') : Mealy σ ι ο' where
  start := M.start
  step s i := ((M.step s i).1, g (M.step s i).2)

theorem run_mapOutput {ο' : Type*} (g : ο → ο') (s : σ) (is : List ι) :
    (M.mapOutput g).run s is = M.run s is := by
  induction is generalizing s with
  | nil => rfl
  | cons i is ih => exact ih (M.step s i).1

theorem outputs_mapOutput {ο' : Type*} (g : ο → ο') (s : σ) (is : List ι) :
    (M.mapOutput g).outputs s is = (M.outputs s is).map g := by
  induction is generalizing s with
  | nil => rfl
  | cons i is ih => exact congrArg (g (M.step s i).2 :: ·) (ih (M.step s i).1)

/-! ### Invariants -/

/-- `s` is the state after some finite run from the start. -/
def Reachable (s : σ) : Prop := ∃ is, s = M.run M.start is

theorem Reachable.start : M.Reachable M.start := ⟨[], rfl⟩

variable {M} in
theorem Reachable.step {s : σ} (h : M.Reachable s) (i : ι) : M.Reachable (M.step s i).1 := by
  obtain ⟨is, rfl⟩ := h
  exact ⟨is ++ [i], (M.run_concat _ _ _).symm⟩

/-- **The invariant rule, from any state.** What every transition preserves
holds after every run. -/
theorem run_invariant {I : σ → Prop} (hstep : ∀ s i, I s → I (M.step s i).1)
    {s : σ} (hs : I s) (is : List ι) : I (M.run s is) := by
  induction is generalizing s with
  | nil => exact hs
  | cons i is ih => exact ih (hstep s i hs)

variable {M} in
/-- **The invariant rule.** What holds at the start and is preserved by every
transition holds of every reachable state. -/
theorem Reachable.invariant {I : σ → Prop} (hstart : I M.start)
    (hstep : ∀ s i, I s → I (M.step s i).1) {s : σ} (h : M.Reachable s) : I s := by
  obtain ⟨is, rfl⟩ := h
  exact M.run_invariant hstep hstart is

/-! ### Conditions on the steps of a run -/

/-- `M.Along C s is`: every step of the run over `is` from `s` meets the
condition `C`, read in the state before the step. -/
def Along (C : σ → ι → Prop) (s : σ) : List ι → Prop
  | [] => True
  | i :: is => C s i ∧ Along C (M.step s i).1 is

instance decidableAlong (C : σ → ι → Prop) [∀ s i, Decidable (C s i)] :
    ∀ (s : σ) (is : List ι), Decidable (M.Along C s is)
  | _, [] => .isTrue trivial
  | s, i :: is =>
    haveI := decidableAlong C (M.step s i).1 is
    inferInstanceAs (Decidable (C s i ∧ M.Along C (M.step s i).1 is))

@[simp] theorem along_nil (C : σ → ι → Prop) (s : σ) : M.Along C s [] := trivial

@[simp] theorem along_cons (C : σ → ι → Prop) (s : σ) (i : ι) (is : List ι) :
    M.Along C s (i :: is) ↔ C s i ∧ M.Along C (M.step s i).1 is := Iff.rfl

theorem along_append (C : σ → ι → Prop) (s : σ) (is js : List ι) :
    M.Along C s (is ++ js) ↔ M.Along C s is ∧ M.Along C (M.run s is) js := by
  induction is generalizing s with
  | nil => simp
  | cons i is ih => rw [List.cons_append, along_cons, ih, along_cons, run_cons, and_assoc]

/-- A condition holds along a run exactly when every step meets it in the state
that the inputs before it lead to. -/
theorem along_iff (C : σ → ι → Prop) (s : σ) (is : List ι) :
    M.Along C s is ↔ ∀ before i rest, is = before ++ i :: rest → C (M.run s before) i := by
  constructor
  · rintro h before i rest rfl
    rw [along_append] at h
    exact h.2.1
  · intro h
    induction is generalizing s with
    | nil => trivial
    | cons i is ih =>
      constructor
      · exact h [] i is rfl
      · apply ih
        intro before j rest hrest
        exact h (i :: before) j rest (by rw [hrest, List.cons_append])

/-- A condition that always holds holds along every run. -/
theorem along_of_forall {C : σ → ι → Prop} (h : ∀ s i, C s i) {s : σ} {is : List ι} :
    M.Along C s is := by
  induction is generalizing s with
  | nil => trivial
  | cons i is ih => exact ⟨h s i, ih⟩

/-- **The invariant rule under a side condition.** An invariant that every step
meeting `C` preserves holds after every run that meets `C` throughout. -/
theorem along_invariant {C : σ → ι → Prop} {I : σ → Prop}
    (hstep : ∀ s i, I s → C s i → I (M.step s i).1) {s : σ} {is : List ι} (hs : I s)
    (hC : M.Along C s is) : I (M.run s is) := by
  induction is generalizing s with
  | nil => exact hs
  | cons i is ih => exact ih (hstep s i hs hC.1) hC.2

/-- Two conditions that agree wherever an invariant of the runs that meet the
second one holds are met by the same runs. -/
theorem along_congr {C D : σ → ι → Prop} {I : σ → Prop} (hiff : ∀ s i, I s → (C s i ↔ D s i))
    (hstep : ∀ s i, I s → D s i → I (M.step s i).1) {s : σ} (hs : I s) (is : List ι) :
    M.Along C s is ↔ M.Along D s is := by
  induction is generalizing s with
  | nil => rfl
  | cons i is ih =>
    rw [along_cons, along_cons, hiff s i hs]
    apply and_congr_right
    intro hD
    exact ih (hstep s i hs hD)

/-- **The answers of a run under a side condition.**  What every step from a state with an
invariant answers, all answers of a run are. -/
theorem along_outputs {C : σ → ι → Prop} {I : σ → Prop} {P : ο → Prop}
    (hstep : ∀ s i, I s → C s i → I (M.step s i).1)
    (hanswer : ∀ s i, I s → C s i → P (M.step s i).2) {s : σ} {is : List ι} (hs : I s)
    (hC : M.Along C s is) : ∀ o ∈ M.outputs s is, P o := by
  induction is generalizing s with
  | nil => exact fun _ ho => nomatch ho
  | cons i is ih =>
    rw [outputs_cons, List.forall_mem_cons]
    exact ⟨hanswer s i hs hC.1, ih (hstep s i hs hC.1) hC.2⟩

/-- **A quantity that the answers account for.**  If every step raises `f` by what its answer
counts, a run raises it by what all its answers count. -/
theorem along_sum {A : Type*} [AddMonoid A] {C : σ → ι → Prop} {I : σ → Prop} {f : σ → A}
    {g : ο → A}
    (hstep : ∀ s i, I s → C s i → I (M.step s i).1)
    (hanswer : ∀ s i, I s → C s i → f (M.step s i).1 = f s + g (M.step s i).2) {s : σ}
    {is : List ι} (hs : I s) (hC : M.Along C s is) :
    f (M.run s is) = f s + ((M.outputs s is).map g).sum := by
  induction is generalizing s with
  | nil => exact (add_zero (f s)).symm
  | cons i is ih =>
    rw [run_cons, outputs_cons, List.map_cons, List.sum_cons, ih (hstep s i hs hC.1) hC.2,
      hanswer s i hs hC.1, add_assoc]

/-! ### Timed inputs -/

/-- The inputs that carry a time carry non-decreasing ones. -/
def NonDecreasing (time : ι → Option ℕ) (is : List ι) : Prop :=
  (is.filterMap time).Pairwise (· ≤ ·)

instance (time : ι → Option ℕ) (is : List ι) : Decidable (NonDecreasing time is) :=
  inferInstanceAs (Decidable ((is.filterMap time).Pairwise (· ≤ ·)))

variable {M} in
/-- In a machine that remembers the time of the last input, inputs at
non-decreasing times are never before it. -/
theorem along_of_nonDecreasing {time : ι → Option ℕ} {now : σ → ℕ}
    (hnow : ∀ s i, now (M.step s i).1 = (time i).getD (now s)) {s : σ} {is : List ι}
    (his : NonDecreasing time is) (hs : ∀ t ∈ is.filterMap time, now s ≤ t) :
    M.Along (fun s i => ∀ t, time i = some t → now s ≤ t) s is := by
  induction is generalizing s with
  | nil => trivial
  | cons i is ih =>
    unfold NonDecreasing at his
    cases hi : time i with
    | none =>
      -- an input without a time leaves the remembered one
      rw [List.filterMap_cons_none hi] at his hs
      refine ⟨fun t ht => ?_, ih his fun t ht => ?_⟩
      · rw [hi] at ht
        cases ht
      · rw [hnow, hi]
        exact hs t ht
    | some now' =>
      -- its time is remembered, and bounds every later one
      rw [List.filterMap_cons_some hi, List.pairwise_cons] at his
      rw [List.filterMap_cons_some hi] at hs
      refine ⟨fun t ht => ?_, ih his.2 fun t ht => ?_⟩
      · rw [hi] at ht
        obtain rfl := Option.some.inj ht
        exact hs now' List.mem_cons_self
      · rw [hnow, hi]
        exact his.1 t ht

/-- Non-decreasing inputs up to a point. -/
theorem NonDecreasing.of_append {time : ι → Option ℕ} {is js : List ι}
    (h : NonDecreasing time (is ++ js)) : NonDecreasing time is := by
  unfold NonDecreasing at h ⊢
  rw [List.filterMap_append, List.pairwise_append] at h
  exact h.1

/-! ### Simulation -/

/-- A **simulation** of `M₂` by `M₁` over a translation `f` of inputs, for runs
of `M₁` whose steps meet `C`: related states answer alike and stay related. -/
structure Simulation {ι₂ : Type*} (M₁ : Mealy σ₁ ι ο) (M₂ : Mealy σ₂ ι₂ ο) (f : ι → ι₂)
    (C : σ₁ → ι → Prop) (R : σ₁ → σ₂ → Prop) : Prop where
  /-- Related states give the same answer to corresponding inputs. -/
  answer : ∀ s₁ s₂ i, R s₁ s₂ → C s₁ i → (M₂.step s₂ (f i)).2 = (M₁.step s₁ i).2
  /-- Corresponding inputs lead to related states. -/
  next : ∀ s₁ s₂ i, R s₁ s₂ → C s₁ i → R (M₁.step s₁ i).1 (M₂.step s₂ (f i)).1

namespace Simulation

variable {ι₂ : Type*} {M₁ : Mealy σ₁ ι ο} {M₂ : Mealy σ₂ ι₂ ο} {f : ι → ι₂}
  {C : σ₁ → ι → Prop} {R : σ₁ → σ₂ → Prop}

/-- Related states stay related along a run. -/
theorem run (h : Simulation M₁ M₂ f C R) {s₁ : σ₁} {s₂ : σ₂} (hR : R s₁ s₂) {is : List ι}
    (hC : M₁.Along C s₁ is) : R (M₁.run s₁ is) (M₂.run s₂ (is.map f)) := by
  induction is generalizing s₁ s₂ with
  | nil => exact hR
  | cons i is ih => exact ih (h.next _ _ _ hR hC.1) hC.2

/-- **The simulation rule**: related machines answer a whole run alike. -/
theorem outputs (h : Simulation M₁ M₂ f C R) {s₁ : σ₁} {s₂ : σ₂} (hR : R s₁ s₂)
    {is : List ι} (hC : M₁.Along C s₁ is) :
    M₂.outputs s₂ (is.map f) = M₁.outputs s₁ is := by
  induction is generalizing s₁ s₂ with
  | nil => rfl
  | cons i is ih =>
    rw [List.map_cons, outputs_cons, outputs_cons, h.answer _ _ _ hR hC.1,
      ih (h.next _ _ _ hR hC.1) hC.2]

end Simulation

/-! ### Projection -/

/-- A part of a machine, in the state `s'`, **follows** a step of the machine: what `view` reads of
the answer is an input of the part and the part's answer to it, and a step of which it reads nothing
leaves the part alone. -/
def Follows {σ' ι' ο' : Type*} (M' : Mealy σ' ι' ο') (view : ο → Option (ι' × ο'))
    (R : σ → σ' → Prop) (s' : σ') (result : σ × ο) : Prop :=
  match view result.2 with
  | none => R result.1 s'
  | some read => (M'.step s' read.1).2 = read.2 ∧ R result.1 (M'.step s' read.1).1

/-- A **projection** of a machine `M` onto a part `M'` of it, which follows the steps of `M` that
meet `C`. -/
structure Projection {σ' ι' ο' : Type*} (M : Mealy σ ι ο) (M' : Mealy σ' ι' ο')
    (view : ο → Option (ι' × ο')) (C : σ → ι → Prop) (R : σ → σ' → Prop) : Prop where
  follows : ∀ s s' i, R s s' → C s i → M'.Follows view R s' (M.step s i)

/-- What a view reads of the answers of a run. -/
def log {ι' ο' : Type*} (view : ο → Option (ι' × ο')) (s : σ) (is : List ι) : List (ι' × ο') :=
  (M.outputs s is).filterMap view

namespace Projection

variable {σ' ι' ο' : Type*} {M : Mealy σ ι ο} {M' : Mealy σ' ι' ο'}
  {view : ο → Option (ι' × ο')} {C : σ → ι → Prop} {R : σ → σ' → Prop}

/-- **The projection rule**: the log of a run of the machine is one of a run of the part. -/
theorem outputs (h : Projection M M' view C R) {s : σ} {s' : σ'} (hR : R s s') {is : List ι}
    (hC : M.Along C s is) :
    M'.outputs s' ((M.log view s is).map Prod.fst) = (M.log view s is).map Prod.snd := by
  induction is generalizing s s' with
  | nil => rfl
  | cons i is ih =>
    have hstep := h.follows s s' i hR hC.1
    unfold Follows at hstep
    unfold log at ih ⊢
    rw [outputs_cons, List.filterMap_cons]
    cases hview : view (M.step s i).2 with
    | none =>
      rw [hview] at hstep
      exact ih hstep hC.2
    | some read =>
      rw [hview] at hstep
      simp only [List.map_cons, outputs_cons, hstep.1, ih hstep.2 hC.2]

/-- The part is where the log leads. -/
theorem run (h : Projection M M' view C R) {s : σ} {s' : σ'} (hR : R s s') {is : List ι}
    (hC : M.Along C s is) : R (M.run s is) (M'.run s' ((M.log view s is).map Prod.fst)) := by
  induction is generalizing s s' with
  | nil => exact hR
  | cons i is ih =>
    have hstep := h.follows s s' i hR hC.1
    unfold Follows at hstep
    unfold log at ih ⊢
    rw [outputs_cons, run_cons, List.filterMap_cons]
    cases hview : view (M.step s i).2 with
    | none =>
      rw [hview] at hstep
      exact ih hstep hC.2
    | some read =>
      rw [hview] at hstep
      exact ih hstep.2 hC.2

end Projection

end Mealy
