import Mathlib.Data.List.Induction

/-!
# `MizanConnect.Lib.Run`: runs of a transition function

`next s a` is the state after the action `a` in the state `s`, or `none`
when `a` is not enabled. `run` folds it over a list of actions. A run is
any list of actions, so a fact about the last state of every run is a fact
about every state a run passes through.

`run_invariant` is the induction over a run. Its step may assume a
condition `C` on the state and the action, which `Along` asks of every step
of the run. `run_history` is the induction for conditions that look back at
the actions.
-/

set_option autoImplicit false

namespace Transition

variable {σ α : Type}

/-- The state after the actions, in order. -/
def run (next : σ → α → Option σ) : σ → List α → Option σ
  | s, [] => some s
  | s, a :: as => (next s a).bind fun s' => run next s' as

/-- Every step of the run from `s` meets `C` in the state before it. -/
def Along (next : σ → α → Option σ) (C : σ → α → Prop) : σ → List α → Prop
  | _, [] => True
  | s, a :: as => C s a ∧ ∀ s', next s a = some s' → Along next C s' as

variable {next : σ → α → Option σ}

/-- A decidable condition can be checked along a run. -/
instance decidableAlong {C : σ → α → Prop} [∀ s a, Decidable (C s a)] :
    (s : σ) → (as : List α) → Decidable (Along next C s as)
  | _, [] => isTrue True.intro
  | s, a :: as =>
    match h : next s a with
    | none => decidable_of_iff (C s a)
        ⟨fun hC => ⟨hC, fun _ hs' => nomatch h.symm.trans hs'⟩, fun hC => hC.1⟩
    | some s' =>
      have := @decidableAlong C _ s' as
      decidable_of_iff (C s a ∧ Along next C s' as)
        ⟨fun hC => ⟨hC.1, fun _ hx => Option.some.inj (h.symm.trans hx) ▸ hC.2⟩,
          fun hC => ⟨hC.1, hC.2 s' h⟩⟩

@[simp] theorem run_nil (s : σ) : run next s [] = some s := rfl

theorem run_cons_eq_some {s s' : σ} {a : α} {as : List α} :
    run next s (a :: as) = some s' ↔ ∃ m, next s a = some m ∧ run next m as = some s' := by
  simp [run, Option.bind_eq_some_iff]

/-- A run cut in two: the second part starts where the first ended. -/
theorem run_append {s s' : σ} {as bs : List α} :
    run next s (as ++ bs) = some s' ↔ ∃ m, run next s as = some m ∧ run next m bs = some s' := by
  induction as generalizing s with
  | nil => simp
  | cons a as ih =>
    rw [List.cons_append, run_cons_eq_some]
    simp only [run_cons_eq_some, ih]
    constructor
    · rintro ⟨m, hm, k, hk, hs'⟩
      exact ⟨k, ⟨m, hm, hk⟩, hs'⟩
    · rintro ⟨k, ⟨m, hm, hk⟩, hs'⟩
      exact ⟨m, hm, k, hk, hs'⟩

/-- A step that keeps `P` under the condition `C` gives a run that keeps
`P`, when every step of the run meets `C`. -/
theorem run_invariant {P : σ → Prop} {C : σ → α → Prop}
    (hstep : ∀ s a s', P s → C s a → next s a = some s' → P s')
    {s s' : σ} {as : List α} (hs : P s) (hC : Along next C s as)
    (hrun : run next s as = some s') : P s' := by
  induction as generalizing s with
  | nil =>
    cases hrun
    exact hs
  | cons a as ih =>
    obtain ⟨m, hm, hrest⟩ := run_cons_eq_some.mp hrun
    exact ih (hstep s a m hs hC.1 hm) (hC.2 m hm) hrest

/-- Two conditions along a run. -/
theorem along_and {C D : σ → α → Prop} {s : σ} {as : List α} (hC : Along next C s as)
    (hD : Along next D s as) : Along next (fun s a => C s a ∧ D s a) s as := by
  induction as generalizing s with
  | nil => exact True.intro
  | cons a as ih =>
    exact ⟨⟨hC.1, hD.1⟩, fun s' hs' => ih (hC.2 s' hs') (hD.2 s' hs')⟩

/-- A weaker condition along a run. -/
theorem along_imp {C D : σ → α → Prop} (h : ∀ s a, C s a → D s a) {s : σ} {as : List α}
    (hC : Along next C s as) : Along next D s as := by
  induction as generalizing s with
  | nil => exact True.intro
  | cons a as ih => exact ⟨h s a hC.1, fun s' hs' => ih (hC.2 s' hs')⟩

/-- A condition that every action of the list meets in every state. -/
theorem along_of_forall {C : σ → α → Prop} {s : σ} {as : List α} (h : ∀ a ∈ as, ∀ s, C s a) :
    Along next C s as := by
  induction as generalizing s with
  | nil => exact True.intro
  | cons a as ih =>
    exact ⟨h a List.mem_cons_self s, fun s' _ => ih fun b hb => h b (List.mem_cons_of_mem a hb)⟩

/-- A step that is taken, and a condition along the rest. -/
theorem along_cons {C : σ → α → Prop} {s s' : σ} {a : α} {as : List α} (hC : C s a)
    (hnext : next s a = some s') (hrest : Along next C s' as) : Along next C s (a :: as) := by
  refine ⟨hC, ?_⟩
  intro x hx
  cases hnext.symm.trans hx
  exact hrest

/-- A condition along the two parts of a run. -/
theorem along_append {C : σ → α → Prop} {s : σ} {as bs : List α}
    (hC : Along next C s (as ++ bs)) :
    Along next C s as ∧ ∀ m, run next s as = some m → Along next C m bs := by
  induction as generalizing s with
  | nil =>
    refine ⟨True.intro, ?_⟩
    intro m hm
    cases hm
    exact hC
  | cons a as ih =>
    refine ⟨⟨hC.1, fun s' hs' => (ih (hC.2 s' hs')).1⟩, ?_⟩
    intro m hm
    obtain ⟨k, hk, hrest⟩ := run_cons_eq_some.mp hm
    exact (ih (hC.2 k hk)).2 m hrest

/-- A condition along one run and along what follows it. -/
theorem along_of_append {C : σ → α → Prop} {s : σ} {as bs : List α} (has : Along next C s as)
    (hbs : ∀ m, run next s as = some m → Along next C m bs) : Along next C s (as ++ bs) := by
  induction as generalizing s with
  | nil => exact hbs s rfl
  | cons a as ih =>
    refine ⟨has.1, ?_⟩
    intro s' hs'
    exact ih (has.2 s' hs') fun m hm => hbs m (run_cons_eq_some.mpr ⟨s', hs', hm⟩)

/-- The run `as` from `s` takes the step `a` from `m` to `m'`. -/
structure StepOf (next : σ → α → Option σ) (s : σ) (as : List α) (m : σ) (a : α) (m' : σ) :
    Prop where
  before : ∃ pre post, as = pre ++ a :: post ∧ run next s pre = some m
  step : next m a = some m'

/-- The rest of a run after one of its steps. -/
theorem StepOf.rest {s s' m m' : σ} {a : α} {as : List α} (h : StepOf next s as m a m')
    (hrun : run next s as = some s') : ∃ post, run next m' post = some s' := by
  obtain ⟨⟨pre, post, rfl, hpre⟩, hstep⟩ := h
  obtain ⟨x, hx, hrest⟩ := run_append.mp hrun
  cases hpre.symm.trans hx
  obtain ⟨y, hy, hrest⟩ := run_cons_eq_some.mp hrest
  cases hstep.symm.trans hy
  exact ⟨post, hrest⟩

/-- A step of a run is a step of the longer run. -/
theorem StepOf.append {s m m' : σ} {a : α} {as : List α} (h : StepOf next s as m a m')
    (bs : List α) : StepOf next s (as ++ bs) m a m' := by
  obtain ⟨⟨pre, post, rfl, hpre⟩, hstep⟩ := h
  exact ⟨⟨pre, post ++ bs, by simp, hpre⟩, hstep⟩

/-- The last step of a run. -/
theorem stepOf_last {s m m' : σ} {a : α} {as : List α} (hrun : run next s as = some m)
    (hstep : next m a = some m') : StepOf next s (as ++ [a]) m a m' :=
  ⟨⟨as, [], rfl, hrun⟩, hstep⟩

/-- The induction over a run together with its actions so far: for conditions
that look back. -/
theorem run_history {P : List α → σ → Prop} {s s' : σ} {as : List α} (hnil : P [] s)
    (hstep : ∀ as a m m', run next s as = some m → P as m → next m a = some m' →
      P (as ++ [a]) m')
    (hrun : run next s as = some s') : P as s' := by
  induction as using List.reverseRecOn generalizing s' with
  | nil =>
    cases hrun
    exact hnil
  | append_singleton as a ih =>
    obtain ⟨m, hm, hlast⟩ := run_append.mp hrun
    obtain ⟨m', hm', hnil'⟩ := run_cons_eq_some.mp hlast
    cases hnil'
    exact hstep as a m s' hm (ih hm) hm'

/-- In a run that goes through, `Along` asks for its steps. -/
theorem along_iff_stepOf {C : σ → α → Prop} {s s' : σ} {as : List α}
    (hrun : run next s as = some s') :
    Along next C s as ↔ ∀ m a m', StepOf next s as m a m' → C m a := by
  induction as generalizing s with
  | nil =>
    refine iff_of_true True.intro fun m a m' h => ?_
    obtain ⟨⟨pre, post, happend, -⟩, -⟩ := h
    simp at happend
  | cons b as ih =>
    obtain ⟨k, hk, hrest⟩ := run_cons_eq_some.mp hrun
    constructor
    · rintro ⟨hb, halong⟩ m a m' ⟨⟨pre, post, happend, hpre⟩, hstep⟩
      cases pre with
      | nil =>
        cases happend
        cases hpre
        exact hb
      | cons x pre =>
        obtain ⟨rfl, rfl⟩ := List.cons.inj happend
        obtain ⟨k', hk', hpre⟩ := run_cons_eq_some.mp hpre
        cases hk.symm.trans hk'
        exact (ih hrest).mp (halong k hk) m a m' ⟨⟨pre, post, rfl, hpre⟩, hstep⟩
    · intro hall
      refine ⟨hall s b k ⟨⟨[], as, rfl, rfl⟩, hk⟩, fun k' hk' => ?_⟩
      cases hk.symm.trans hk'
      refine (ih hrest).mpr fun m a m' h => ?_
      obtain ⟨⟨pre, post, happend, hpre⟩, hstep⟩ := h
      exact hall m a m' ⟨⟨b :: pre, post, congrArg (b :: ·) happend,
        run_cons_eq_some.mpr ⟨k, hk, hpre⟩⟩, hstep⟩

/-- `P` holds in every state that the run from `s` passes through. -/
def Always (next : σ → α → Option σ) (P : σ → Prop) (s : σ) (as : List α) : Prop :=
  ∀ pre post s', as = pre ++ post → run next s pre = some s' → P s'

/-- When a step from a state with `P` keeps `P` exactly under `C`, a run from
such a state keeps it exactly when every step meets `C`. -/
theorem always_iff_along {P : σ → Prop} {C : σ → α → Prop}
    (htotal : ∀ s a, ∃ s', next s a = some s')
    (hstep : ∀ s a s', P s → next s a = some s' → (P s' ↔ C s a))
    {s : σ} (hs : P s) (as : List α) : Always next P s as ↔ Along next C s as := by
  induction as generalizing s with
  | nil =>
    refine iff_of_true (fun pre post s' happend hrun => ?_) True.intro
    obtain ⟨rfl, -⟩ := List.append_eq_nil_iff.mp happend.symm
    cases hrun
    exact hs
  | cons a as ih =>
    obtain ⟨m, hm⟩ := htotal s a
    constructor
    · intro hall
      have hPm : P m := hall [a] as m rfl (run_cons_eq_some.mpr ⟨m, hm, rfl⟩)
      refine ⟨(hstep s a m hs hm).mp hPm, fun s' hs' => ?_⟩
      cases hm.symm.trans hs'
      refine (ih hPm).mp fun pre post s' happend hrun => ?_
      exact hall (a :: pre) post s' (congrArg (a :: ·) happend)
        (run_cons_eq_some.mpr ⟨m, hm, hrun⟩)
    · rintro ⟨hC, hrest⟩ pre post s' happend hrun
      cases pre with
      | nil =>
        cases hrun
        exact hs
      | cons b pre =>
        obtain ⟨rfl, happend'⟩ := List.cons.inj happend
        obtain ⟨k, hk, hrun'⟩ := run_cons_eq_some.mp hrun
        have hPk : P k := (hstep s a k hs hk).mpr hC
        exact (ih hPk).mpr (hrest k hk) pre post s' happend' hrun'

/-- The trivial condition holds along every run. -/
theorem along_true (s : σ) (as : List α) : Along next (fun _ _ => True) s as := by
  induction as generalizing s with
  | nil => exact True.intro
  | cons a as ih => exact ⟨True.intro, fun s' _ => ih s'⟩

/-- When a step keeps `P` exactly under `C` and never brings it back, `P` holds
at the end exactly when it held at the start and every step met `C`. -/
theorem run_iff_along {P I : σ → Prop} {C : σ → α → Prop}
    (hinv : ∀ s a s', I s → next s a = some s' → I s')
    (hstep : ∀ s a s', I s → next s a = some s' → (P s' ↔ P s ∧ C s a))
    {s s' : σ} {as : List α} (hs : I s) (hrun : run next s as = some s') :
    P s' ↔ P s ∧ Along next C s as := by
  induction as generalizing s with
  | nil =>
    cases hrun
    exact (and_iff_left True.intro).symm
  | cons a as ih =>
    obtain ⟨m, hm, hrest⟩ := run_cons_eq_some.mp hrun
    rw [ih (hinv s a m hs hm) hrest, hstep s a m hs hm]
    constructor
    · rintro ⟨⟨hP, hC⟩, halong⟩
      refine ⟨hP, hC, ?_⟩
      intro x hx
      cases hm.symm.trans hx
      exact halong
    · rintro ⟨hP, hC, halong⟩
      exact ⟨⟨hP, hC⟩, halong m hm⟩

/-! ### Steps that happen once -/

/-- At most one step of the run is an `E`. -/
def AtMostOnce (next : σ → α → Option σ) (E : σ → α → σ → Prop) (s : σ) (as : List α) : Prop :=
  ∀ pre a mid b post m m' n n', as = pre ++ a :: (mid ++ b :: post) →
    run next s pre = some m → next m a = some m' → run next m' mid = some n →
    next n b = some n' → E m a m' → ¬ E n b n'

/-- A step that is not after another one is at its place, when both are an
`E`. -/
theorem AtMostOnce.unique_of_prefix {E : σ → α → σ → Prop} {s m m' n n' : σ} {a b : α}
    {as pre gap post rest : List α} (h : AtMostOnce next E s as) (has : as = pre ++ a :: post)
    (hpre : run next s pre = some m) (hstep : next m a = some m')
    (hgap : run next s (pre ++ gap) = some n) (hstep' : next n b = some n')
    (hrest : a :: post = gap ++ b :: rest) (hEa : E m a m') (hEb : E n b n') :
    m = n ∧ a = b := by
  obtain ⟨x, hx, hrun⟩ := run_append.mp hgap
  cases hpre.symm.trans hx
  cases gap with
  | nil =>
    cases hrest
    cases hrun
    exact ⟨rfl, rfl⟩
  | cons c gap =>
    cases hrest
    obtain ⟨y, hy, hrun⟩ := run_cons_eq_some.mp hrun
    cases hstep.symm.trans hy
    exact absurd hEb (h pre a gap b rest m m' n n' has hpre hstep hrun hstep' hEa)

/-- Two of them are one. -/
theorem AtMostOnce.unique {E : σ → α → σ → Prop} {s m m' n n' : σ} {a b : α} {as : List α}
    (h : AtMostOnce next E s as) (ha : StepOf next s as m a m') (hb : StepOf next s as n b n')
    (hEa : E m a m') (hEb : E n b n') : m = n ∧ a = b := by
  obtain ⟨⟨pre, post, happend, hpre⟩, hstep⟩ := ha
  obtain ⟨⟨pre', post', happend', hpre'⟩, hstep'⟩ := hb
  -- One of the two steps comes first, or they are at one place.
  rcases List.append_eq_append_iff.mp (happend.symm.trans happend') with
    ⟨gap, rfl, hrest⟩ | ⟨gap, rfl, hrest⟩
  · exact h.unique_of_prefix happend hpre hstep hpre' hstep' hrest hEa hEb
  · obtain ⟨hstate, haction⟩ :=
      h.unique_of_prefix happend' hpre' hstep' hpre hstep hrest hEb hEa
    exact ⟨hstate.symm, haction.symm⟩

/-- An `E` brings about `R`, which stays, and under `R` there is no further
`E`. -/
theorem atMostOnce_of_stable {E : σ → α → σ → Prop} {I R : σ → Prop} {C : σ → α → Prop}
    (hinv : ∀ s a s', I s → C s a → next s a = some s' → I s')
    (hstable : ∀ s a s', I s → C s a → next s a = some s' → R s → R s')
    (hE : ∀ s a s', I s → C s a → next s a = some s' → E s a s' → R s' ∧ ¬ R s)
    {s : σ} {as : List α} (hs : I s) (hC : Along next C s as) : AtMostOnce next E s as := by
  rintro pre a mid b post m m' n n' rfl hpre hstep hmid hstep' hEa hEb
  obtain ⟨hbefore, hafter⟩ := along_append hC
  obtain ⟨hCa, hrest⟩ := hafter m hpre
  obtain ⟨hbetween, hlast⟩ := along_append (hrest m' hstep)
  have hm : I m := run_invariant hinv hs hbefore hpre
  have hm' : I m' ∧ R m' := ⟨hinv m a m' hm hCa hstep, (hE m a m' hm hCa hstep hEa).1⟩
  have hn : I n ∧ R n := run_invariant (P := fun x => I x ∧ R x)
    (fun s a s' hP hCs h => ⟨hinv s a s' hP.1 hCs h, hstable s a s' hP.1 hCs h hP.2⟩)
    hm' hbetween hmid
  exact (hE n b n' hn.1 (hlast n hmid).1 hstep' hEb).2 hn.2

/-! ### One job of many -/

/-- The jobs after the job `i` was replaced. -/
theorem getElem?_set_cases {jobs : List α} {i : Nat} {job job' : α} (hi : jobs[i]? = some job)
    {k : Nat} {x : α} (h : (jobs.set i job')[k]? = some x) :
    k = i ∧ x = job' ∨ k ≠ i ∧ jobs[k]? = some x := by
  by_cases hk : k = i
  · subst hk
    rw [List.getElem?_set_self (List.getElem?_eq_some_iff.mp hi).1] at h
    exact Or.inl ⟨rfl, (Option.some.inj h).symm⟩
  · rw [List.getElem?_set_ne (Ne.symm hk)] at h
    exact Or.inr ⟨hk, h⟩

/-- The jobs after a job was added. -/
theorem getElem?_concat_cases {jobs : List α} {job : α} {k : Nat} {x : α}
    (h : (jobs ++ [job])[k]? = some x) :
    jobs[k]? = some x ∨ k = jobs.length ∧ x = job := by
  rcases Nat.lt_or_ge k jobs.length with hk | hk
  · rw [List.getElem?_append_left hk] at h
    exact Or.inl h
  · rw [List.getElem?_append_right hk, List.getElem?_singleton] at h
    split at h
    · rename_i hzero
      exact Or.inr ⟨by omega, (Option.some.inj h).symm⟩
    · cases h

end Transition
