import Mathlib.Algebra.Order.Archimedean.Basic
import Mathlib.Algebra.Order.Field.Basic
import Mathlib.Tactic.Linarith
import Mathlib.Tactic.Ring

/-!
# `MizanConnect.Lib.Gcra`: the generic cell rate algorithm

A limiter gives a cell back every `period`. Its state is the theoretical arrival
time: the instant at which the bucket is full again. An arrival is admitted
unless that instant is further away than the tolerance, and an admission moves it
one period on. A bucket of `b` cells is a tolerance of `b - 1` periods. A key that
was never seen may start behind a full bucket, with its theoretical arrival time
`fresh` ahead.

`admitsAll_even_iff`: an evenly spaced sequence of any length is admitted
exactly when its spacing is at least the period. `admitsAll_of_tolerance` and
`period_le_of_subset` compare two limiters. `length_within_le` bounds what any
sequence of arrivals gets admitted in a window.
-/

set_option autoImplicit false

namespace Gcra

variable {τ : Type} [Field τ] [LinearOrder τ]

/-- A limiter: the time of one cell, how far ahead the theoretical arrival time may
be, and how far ahead it is for a key that was never seen. The first arrival of a key
is always admitted. -/
structure Limiter (τ : Type) [Field τ] [LinearOrder τ] where
  period : τ
  tolerance : τ
  fresh : τ
  period_pos : 0 < period
  fresh_nonneg : 0 ≤ fresh
  fresh_le : fresh ≤ tolerance

/-- The theoretical arrival time that an arrival at `t` finds. -/
def Limiter.theoretical (l : Limiter τ) (tat : Option τ) (t : τ) : τ := tat.getD (t + l.fresh)

/-- An arrival at `t`: whether it is admitted, and the state after it. -/
def Limiter.arrive (l : Limiter τ) (tat : Option τ) (t : τ) : Bool × Option τ :=
  if l.theoretical tat t ≤ t + l.tolerance then
    (true, some (max (l.theoretical tat t) t + l.period))
  else (false, tat)

/-- How long an arrival at `t` that is refused would have to wait. -/
def Limiter.wait (l : Limiter τ) (tat : Option τ) (t : τ) : τ :=
  l.theoretical tat t - l.tolerance - t

/-- Every arrival is admitted, from the state on. -/
def Limiter.admitsFrom (l : Limiter τ) : Option τ → List τ → Bool
  | _, [] => true
  | tat, t :: ts => (l.arrive tat t).1 && l.admitsFrom (l.arrive tat t).2 ts

/-- Every arrival is admitted. -/
def Limiter.admitsAll (l : Limiter τ) (ts : List τ) : Bool := l.admitsFrom none ts

/-- `n` arrivals from `start` on, `spacing` apart. -/
def even (start spacing : τ) : Nat → List τ
  | 0 => []
  | n + 1 => start :: even (start + spacing) spacing n

variable {l m : Limiter τ}

@[simp] theorem theoretical_some (tat t : τ) : l.theoretical (some tat) t = tat := rfl

@[simp] theorem theoretical_none (t : τ) : l.theoretical none t = t + l.fresh := rfl

theorem admitsFrom_cons {tat : Option τ} {t : τ} {ts : List τ} :
    l.admitsFrom tat (t :: ts) = true ↔
      l.theoretical tat t ≤ t + l.tolerance ∧
        l.admitsFrom (some (max (l.theoretical tat t) t + l.period)) ts = true := by
  show ((l.arrive tat t).1 && l.admitsFrom (l.arrive tat t).2 ts) = true ↔ _
  unfold Limiter.arrive
  by_cases h : l.theoretical tat t ≤ t + l.tolerance
  · simp [h]
  · simp [h]

variable [IsStrictOrderedRing τ]

omit [IsStrictOrderedRing τ] in
theorem tolerance_nonneg (l : Limiter τ) : 0 ≤ l.tolerance := l.fresh_nonneg.trans l.fresh_le

/-- With the same period and the same start, the larger tolerance admits whatever the
smaller one admits: both are in the same state. -/
theorem admitsAll_of_tolerance (hperiod : m.period = l.period) (hfresh : m.fresh = l.fresh)
    (htolerance : l.tolerance ≤ m.tolerance) {ts : List τ} (h : l.admitsAll ts = true) :
    m.admitsAll ts = true := by
  have htheoretical : ∀ tat t, m.theoretical tat t = l.theoretical tat t := by
    intro tat t
    unfold Limiter.theoretical
    rw [hfresh]
  have hfrom : ∀ tat, l.admitsFrom tat ts = true → m.admitsFrom tat ts = true := by
    clear h
    induction ts with
    | nil => exact fun _ _ => rfl
    | cons t ts ih =>
      intro tat h
      obtain ⟨hnow, hrest⟩ := admitsFrom_cons.mp h
      -- The next state depends on the period and the start only.
      rw [admitsFrom_cons, hperiod, htheoretical]
      exact ⟨by linarith, ih _ hrest⟩
  exact hfrom none h

/-! ### Evenly spaced arrivals -/

/-- Arrivals at least a period apart never find the theoretical arrival time further
ahead than the first one did. -/
theorem admitsFrom_even {spacing : τ} (h : l.period ≤ spacing) (n : Nat) {start tat : τ}
    (htat : tat ≤ start + l.fresh) : l.admitsFrom (some tat) (even start spacing n) = true := by
  have hfresh := l.fresh_le
  induction n generalizing start tat with
  | zero => rfl
  | succ n ih =>
    show l.admitsFrom (some tat) (start :: even (start + spacing) spacing n) = true
    rw [admitsFrom_cons, theoretical_some]
    have hmax : max tat start ≤ start + l.fresh :=
      max_le htat (le_add_of_nonneg_right l.fresh_nonneg)
    exact ⟨by linarith, ih (by linarith)⟩

/-- Arrivals closer than a period push the theoretical arrival time ahead, by
the same amount each time. -/
theorem lag_of_admitsFrom {spacing : τ} (h : spacing < l.period) (n : Nat) {start tat : τ}
    (htat : start ≤ tat) (hadmits : l.admitsFrom (some tat) (even start spacing (n + 1)) = true) :
    tat + n * (l.period - spacing) ≤ start + l.tolerance := by
  induction n generalizing start tat with
  | zero =>
    have hnow := (admitsFrom_cons.mp hadmits).1
    simpa using hnow
  | succ n ih =>
    obtain ⟨-, hrest⟩ := admitsFrom_cons.mp hadmits
    rw [theoretical_some, max_eq_left htat] at hrest
    have hbehind : start + spacing ≤ tat + l.period := by linarith
    have hnext := ih hbehind hrest
    have hlag : tat + (n + 1 : Nat) * (l.period - spacing)
        = tat + l.period + n * (l.period - spacing) - spacing := by
      push_cast
      ring
    rw [hlag]
    linarith

/-- Evenly spaced sequences of every length are admitted exactly when the
spacing is at least the period. -/
theorem admitsAll_even_iff [Archimedean τ] {spacing : τ} (start : τ) :
    (∀ n, l.admitsAll (even start spacing n) = true) ↔ l.period ≤ spacing := by
  constructor
  · intro h
    by_contra hlt
    have hgap : 0 < l.period - spacing := sub_pos.mpr (lt_of_not_ge hlt)
    -- After enough arrivals the lag is more than the bucket can take.
    obtain ⟨n, hn⟩ := Archimedean.arch (l.tolerance) hgap
    rw [nsmul_eq_mul] at hn
    have hadmits := h (n + 2)
    obtain ⟨-, hrest⟩ := admitsFrom_cons.mp hadmits
    have hfresh := l.fresh_nonneg
    rw [theoretical_none, max_eq_left (by linarith)] at hrest
    have hlag := lag_of_admitsFrom (lt_of_not_ge hlt) n (by linarith) hrest
    linarith
  · intro h n
    cases n with
    | zero => rfl
    | succ n =>
      have hnonneg := l.fresh_nonneg
      have hfresh := l.fresh_le
      show l.admitsFrom none (start :: even (start + spacing) spacing n) = true
      rw [admitsFrom_cons, theoretical_none, max_eq_left (by linarith)]
      exact ⟨by linarith, admitsFrom_even h n (by linarith)⟩

/-- A limiter that admits whatever `l` admits has no longer period. -/
theorem period_le_of_subset [Archimedean τ]
    (h : ∀ ts, ts.Pairwise (· ≤ ·) → l.admitsAll ts = true → m.admitsAll ts = true) :
    m.period ≤ l.period := by
  have hl := l.period_pos
  have hsorted : ∀ (n : Nat) (start : τ), (even start l.period n).Pairwise (· ≤ ·) ∧
      ∀ t ∈ even start l.period n, start ≤ t := by
    intro n
    induction n with
    | zero => exact fun _ => ⟨List.Pairwise.nil, fun _ ht => nomatch ht⟩
    | succ n ih =>
      intro start
      obtain ⟨hpairwise, hfirst⟩ := ih (start + l.period)
      have hle : ∀ t ∈ even (start + l.period) l.period n, start ≤ t := fun t ht =>
        le_trans (by linarith) (hfirst t ht)
      constructor
      · exact List.pairwise_cons.mpr ⟨hle, hpairwise⟩
      · intro t ht
        cases List.mem_cons.mp ht with
        | inl heq => exact le_of_eq heq.symm
        | inr hmem => exact hle t hmem
  apply (admitsAll_even_iff 0).mp
  intro n
  exact h _ (hsorted n 0).1 ((admitsAll_even_iff 0).mpr le_rfl n)

/-! ### Admissions in a window -/

omit [IsStrictOrderedRing τ] in
/-- A refusal changes nothing. -/
theorem arrive_cases (tat : Option τ) (t : τ) :
    (l.theoretical tat t ≤ t + l.tolerance ∧
        l.arrive tat t = (true, some (max (l.theoretical tat t) t + l.period))) ∨
      (t + l.tolerance < l.theoretical tat t ∧ l.arrive tat t = (false, tat)) := by
  unfold Limiter.arrive
  by_cases h : l.theoretical tat t ≤ t + l.tolerance
  · exact Or.inl ⟨h, if_pos h⟩
  · exact Or.inr ⟨lt_of_not_ge h, if_neg h⟩

/-- The arrivals that are admitted, from the state on. -/
def Limiter.admissions (l : Limiter τ) : Option τ → List τ → List τ
  | _, [] => []
  | tat, t :: ts =>
    if (l.arrive tat t).1 then t :: l.admissions (l.arrive tat t).2 ts
    else l.admissions (l.arrive tat t).2 ts

/-- The instants from `a` to `b`. -/
def within (a b : τ) (ts : List τ) : List τ := ts.filter fun t => a ≤ t ∧ t ≤ b

omit [Field τ] [IsStrictOrderedRing τ] in
theorem within_cons {a b t : τ} {ts : List τ} :
    within a b (t :: ts) = if a ≤ t ∧ t ≤ b then t :: within a b ts else within a b ts := by
  simp [within, List.filter_cons]

/-- Each admission in the window moves the theoretical arrival time on by a period, and
no admission moves it back. The last one in the window bounds how far it has come. -/
theorem lag_of_within {a b : τ} (ts : List τ) {tat : τ}
    (hne : within a b (l.admissions (some tat) ts) ≠ []) :
    tat + (within a b (l.admissions (some tat) ts)).length * l.period ≤
      b + l.tolerance + l.period := by
  have hperiod := l.period_pos
  induction ts generalizing tat with
  | nil => exact absurd rfl hne
  | cons t ts ih =>
    rw [Limiter.admissions] at hne ⊢
    rcases arrive_cases (l := l) (some tat) t with ⟨hle, harrive⟩ | ⟨-, harrive⟩
    · rw [harrive] at hne ⊢
      rw [theoretical_some] at hne hle ⊢
      simp only [if_true] at hne ⊢
      have hlater : tat + l.period ≤ max tat t + l.period := by
        have hmax := le_max_left tat t
        linarith
      rw [within_cons] at hne ⊢
      by_cases hin : a ≤ t ∧ t ≤ b
      · rw [if_pos hin, List.length_cons]
        push_cast
        rw [add_mul, one_mul]
        by_cases hrest : within a b (l.admissions (some (max tat t + l.period)) ts) = []
        · rw [hrest, List.length_nil, Nat.cast_zero]
          have hb := hin.2
          linarith
        · have hnext := ih hrest
          linarith
      · rw [if_neg hin] at hne ⊢
        have hnext := ih hne
        linarith
    · rw [harrive] at hne ⊢
      simp only [Bool.false_eq_true, if_false] at hne ⊢
      exact ih hne

/-- However the arrivals come, those admitted from `a` to `b` are at most a full bucket
and what the window gives back. -/
theorem length_within_le {a b : τ} (hab : a ≤ b) (ts : List τ)
    (tat : Option τ) :
    (within a b (l.admissions tat ts)).length * l.period ≤
      (b - a) + l.tolerance + l.period := by
  have hperiod := l.period_pos
  have htolerance := tolerance_nonneg l
  induction ts generalizing tat with
  | nil =>
    show ((0 : Nat) : τ) * l.period ≤ _
    rw [Nat.cast_zero, zero_mul]
    linarith
  | cons t ts ih =>
    rw [Limiter.admissions]
    rcases arrive_cases (l := l) tat t with ⟨-, harrive⟩ | ⟨-, harrive⟩
    · rw [harrive]
      simp only [if_true]
      rw [within_cons]
      by_cases hin : a ≤ t ∧ t ≤ b
      · -- The first admission in the window puts the arrival time a period after `a`.
        rw [if_pos hin, List.length_cons]
        push_cast
        rw [add_mul, one_mul]
        by_cases hrest :
            within a b (l.admissions (some (max (l.theoretical tat t) t + l.period)) ts) = []
        · rw [hrest, List.length_nil, Nat.cast_zero]
          linarith
        · have hlag := lag_of_within ts hrest
          have ha := hin.1
          have hmax := le_max_right (l.theoretical tat t) t
          linarith
      · rw [if_neg hin]
        exact ih _
    · rw [harrive]
      simp only [Bool.false_eq_true, if_false]
      exact ih _

end Gcra
