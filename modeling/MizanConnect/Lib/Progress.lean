import MizanConnect.Lib.Run
import Mathlib.Algebra.Order.Ring.Nat

/-!
# `MizanConnect.Lib.Progress`: runs that come to rest

A transition function may have steps that finish work and steps that bring
work in. `Drains` says that the steps of one kind finish it: each of them
lowers a measure, and one of them is enabled in every state that is not at
rest. Then a run of such steps is no longer than the measure of its first state
(`Drains.length_le`), a run that cannot go on is at rest (`Drains.rest`), and
there is a run to rest (`Drains.run_to_rest`).

`countP_add_measure_le` counts the steps of one kind in a run of all kinds.
-/

set_option autoImplicit false

namespace Transition

variable {σ α : Type} {next : σ → α → Option σ}

/-- The steps of the kind `A` bring the system to rest. -/
structure Drains (next : σ → α → Option σ) (A : α → Prop) (Rest : σ → Prop)
    (measure : σ → Nat) : Prop where
  lowers : ∀ s a s', A a → next s a = some s' → measure s' < measure s
  enabled : ∀ s, ¬ Rest s → ∃ a s', A a ∧ next s a = some s'

section
variable {A : α → Prop} {Rest : σ → Prop} {measure : σ → Nat} {s s' : σ} {as : List α}

/-- Every step takes one off the measure. -/
theorem Drains.length_add_measure (h : Drains next A Rest measure) (hA : ∀ a ∈ as, A a)
    (hrun : run next s as = some s') : as.length + measure s' ≤ measure s := by
  induction as generalizing s with
  | nil =>
    cases hrun
    simp
  | cons a as ih =>
    obtain ⟨m, hm, hrest⟩ := run_cons_eq_some.mp hrun
    have hstep : measure m < measure s := h.lowers s a m (hA a List.mem_cons_self) hm
    have hlater : as.length + measure s' ≤ measure m :=
      ih (fun b hb => hA b (List.mem_cons_of_mem a hb)) hrest
    rw [List.length_cons]
    omega

/-- No run is longer than the measure of its first state. -/
theorem Drains.length_le (h : Drains next A Rest measure) (hA : ∀ a ∈ as, A a)
    (hrun : run next s as = some s') : as.length ≤ measure s :=
  Nat.le_trans (Nat.le_add_right _ _) (h.length_add_measure hA hrun)

/-- A run that no step of the kind extends is at rest. -/
theorem Drains.rest (h : Drains next A Rest measure) (hend : ∀ a, A a → next s a = none) :
    Rest s := by
  by_contra hrest
  obtain ⟨a, s', hA, hnext⟩ := h.enabled s hrest
  rw [hend a hA] at hnext
  cases hnext

/-- From every state there is a run to rest. -/
theorem Drains.run_to_rest (h : Drains next A Rest measure) (s : σ) :
    ∃ as s', (∀ a ∈ as, A a) ∧ run next s as = some s' ∧ Rest s' := by
  -- The induction is on the measure.
  induction hn : measure s using Nat.strongRecOn generalizing s with
  | ind n ih =>
    subst hn
    by_cases hrest : Rest s
    · exact ⟨[], s, List.forall_mem_nil A, rfl, hrest⟩
    · obtain ⟨a, m, hA, hnext⟩ := h.enabled s hrest
      obtain ⟨as, s', has, hrun, hs'⟩ := ih (measure m) (h.lowers s a m hA hnext) m rfl
      refine ⟨a :: as, s', ?_, run_cons_eq_some.mpr ⟨m, hnext, hrun⟩, hs'⟩
      intro b hb
      rcases List.mem_cons.mp hb with rfl | hb
      · exact hA
      · exact has b hb

end

/-! ### Steps of one kind -/

/-- A measure that no step raises, and that every step of the kind `P` lowers,
bounds the steps of that kind in every run. -/
theorem countP_add_measure_le {P : α → Bool} {measure : σ → Nat} {s s' : σ} {as : List α}
    (hkeep : ∀ s a s', next s a = some s' → measure s' ≤ measure s)
    (hlower : ∀ s a s', P a = true → next s a = some s' → measure s' < measure s)
    (hrun : run next s as = some s') : as.countP P + measure s' ≤ measure s := by
  induction as generalizing s with
  | nil =>
    cases hrun
    simp
  | cons a as ih =>
    obtain ⟨m, hm, hrest⟩ := run_cons_eq_some.mp hrun
    have hlater : as.countP P + measure s' ≤ measure m := ih hrest
    by_cases ha : P a = true
    · have hstep : measure m < measure s := hlower s a m ha hm
      rw [List.countP_cons_of_pos ha]
      omega
    · have hstep : measure m ≤ measure s := hkeep s a m hm
      rw [List.countP_cons_of_neg ha]
      omega

/-! ### Work that is spread over jobs -/

/-- The sum over the jobs after one of them was replaced. -/
theorem sum_map_set {α : Type} {jobs : List α} {i : Nat} {job : α} (work : α → Nat) (job' : α)
    (hi : jobs[i]? = some job) :
    ((jobs.set i job').map work).sum + work job = (jobs.map work).sum + work job' := by
  induction jobs generalizing i with
  | nil => cases hi
  | cons x jobs ih =>
    cases i with
    | zero =>
      obtain rfl : x = job := Option.some.inj hi
      simp only [List.set_cons_zero, List.map_cons, List.sum_cons]
      omega
    | succ i =>
      have h := ih (show jobs[i]? = some job from hi)
      simp only [List.set_cons_succ, List.map_cons, List.sum_cons]
      omega

/-- A job that is replaced by one with less work lowers the sum. -/
theorem sum_map_set_lt {α : Type} {jobs : List α} {i : Nat} {job job' : α} {work : α → Nat}
    (hi : jobs[i]? = some job) (hwork : work job' < work job) :
    ((jobs.set i job').map work).sum < (jobs.map work).sum := by
  have h := sum_map_set work job' hi
  omega

/-- The sum is at most the number of jobs times what one can have. -/
theorem sum_map_le {α : Type} {jobs : List α} {work : α → Nat} {n : Nat}
    (hwork : ∀ job, work job ≤ n) : (jobs.map work).sum ≤ n * jobs.length := by
  induction jobs with
  | nil => simp
  | cons x jobs ih =>
    have hx := hwork x
    simp only [List.map_cons, List.sum_cons, List.length_cons, Nat.mul_add, Nat.mul_one]
    omega

end Transition
