import Mathlib.Data.List.Induction
import Mathlib.Order.WithBot

/-!
# `MizanConnect.Lib.Best`: the best element of a list

`best better l` goes through `l` and keeps an element until one that is
`better` than it comes. With `better := fun new old => key old < key new`
it is the first of the maxima (an `ORDER BY key DESC LIMIT 1` that breaks
ties by position), and with `≤` it is the last of them (an iterator's
`max_by_key`). `best_eq_some_iff` says so for `≤`, and `best_perm` that the
order of the list does not matter when there are no ties. A key that may be
missing is compared by its `rank`.
-/

set_option autoImplicit false

namespace Best

variable {α : Type}

/-- One step: `new` replaces the kept element when it is better. -/
def keep (better : α → α → Bool) (kept : Option α) (new : α) : Option α :=
  match kept with
  | none => some new
  | some old => if better new old then some new else some old

/-- The element kept after the whole list. -/
def best (better : α → α → Bool) (l : List α) : Option α :=
  l.foldl (keep better) none

/-- The last element is compared with the best of the others. -/
theorem best_concat (better : α → α → Bool) (l : List α) (a : α) :
    best better (l ++ [a]) = keep better (best better l) a := by
  rw [best, List.foldl_append]
  rfl

/-- The new element is kept when no kept one stands against it. -/
theorem keep_cases (better : α → α → Bool) (kept : Option α) (new : α) :
    (keep better kept new = some new ∧ ∀ old, kept = some old → better new old = true) ∨
      ∃ old, kept = some old ∧ better new old = false ∧ keep better kept new = some old := by
  cases kept with
  | none => exact Or.inl ⟨rfl, fun _ h => by cases h⟩
  | some old =>
    by_cases hnew : better new old = true
    · refine Or.inl ⟨if_pos hnew, ?_⟩
      intro _ h
      cases h
      exact hnew
    · exact Or.inr ⟨old, rfl, Bool.eq_false_iff.mpr hnew, if_neg hnew⟩

/-- A nonempty list has a best element. -/
theorem best_eq_none_iff (better : α → α → Bool) (l : List α) :
    best better l = none ↔ l = [] := by
  cases l using List.reverseRecOn with
  | nil => exact iff_of_true rfl rfl
  | append_singleton l a =>
    rw [best_concat]
    rcases keep_cases better (best better l) a with ⟨hkeep, -⟩ | ⟨old, -, -, hkeep⟩
    · simp [hkeep]
    · simp [hkeep]

/-- The best element is an element. -/
theorem best_mem {better : α → α → Bool} {l : List α} {b : α} (h : best better l = some b) :
    b ∈ l := by
  induction l using List.reverseRecOn with
  | nil => cases h
  | append_singleton l a ih =>
    rw [best_concat] at h
    rcases keep_cases better (best better l) a with ⟨hkeep, -⟩ | ⟨old, hold, -, hkeep⟩
    · cases hkeep.symm.trans h
      exact List.mem_append_right l List.mem_cons_self
    · cases hkeep.symm.trans h
      exact List.mem_append_left [a] (ih hold)

/-- A list with one element has it as its best. -/
@[simp] theorem best_singleton (better : α → α → Bool) (a : α) : best better [a] = some a := rfl

/-- Relabelling the elements relabels the best one, when it keeps the
comparisons of an element with those before it. -/
theorem best_map_of_pairwise {β : Type} (f : α → β) (better : α → α → Bool)
    (better' : β → β → Bool) {l : List α}
    (h : l.Pairwise fun old new => better' (f new) (f old) = better new old) :
    best better' (l.map f) = (best better l).map f := by
  induction l using List.reverseRecOn with
  | nil => rfl
  | append_singleton l a ih =>
    obtain ⟨hl, -, hlast⟩ := List.pairwise_append.mp h
    rw [List.map_append, List.map_singleton, best_concat, best_concat, ih hl]
    cases hbest : best better l with
    | none => rfl
    | some old =>
      have hsame := hlast old (best_mem hbest) a List.mem_cons_self
      simp only [keep, Option.map_some, hsame]
      split <;> rfl

/-- The same, when it keeps all comparisons. -/
theorem best_map {β : Type} (f : α → β) (better : α → α → Bool) (better' : β → β → Bool)
    (l : List α) (h : ∀ a ∈ l, ∀ b ∈ l, better' (f a) (f b) = better a b) :
    best better' (l.map f) = (best better l).map f :=
  best_map_of_pairwise f better better'
    (List.pairwise_of_forall_mem_list fun old hold new hnew => h new hnew old hold)

/-! ### The last of the maxima -/

section
variable {κ : Type} [LinearOrder κ]

/-- `new` is at least as good when its key is not smaller. -/
def atLeast (key : α → κ) (new old : α) : Bool := decide (key old ≤ key new)

/-- `b` is the last of the maxima of `before ++ b :: after`. -/
structure LastMax (key : α → κ) (before : List α) (b : α) (after : List α) : Prop where
  before : ∀ x ∈ before, key x ≤ key b
  after : ∀ x ∈ after, key x < key b

variable {key : α → κ} {l l' before after before' after' : List α} {b b' : α}

/-- It is a maximum. -/
theorem LastMax.le (h : LastMax key before b after) :
    ∀ x ∈ before ++ b :: after, key x ≤ key b := by
  intro x hx
  rcases List.mem_append.mp hx with hx | hx
  · exact h.before x hx
  · rcases List.mem_cons.mp hx with rfl | hx
    · exact le_refl _
    · exact le_of_lt (h.after x hx)

/-- There is one last maximum: of two, the earlier would be below the later. -/
theorem LastMax.eq (h : LastMax key before b after) (h' : LastMax key before' b' after')
    (hsame : before ++ b :: after = before' ++ b' :: after') : b = b' := by
  rcases List.append_eq_append_iff.mp hsame with ⟨gap, hbefore, hrest⟩ | ⟨gap, hbefore, hrest⟩
  · cases gap with
    | nil => exact List.head_eq_of_cons_eq hrest
    | cons c gap =>
      cases hrest
      have hle := h'.before b (by simp [hbefore])
      exact absurd (h.after b' (by simp)) (not_lt_of_ge hle)
  · cases gap with
    | nil => exact (List.head_eq_of_cons_eq hrest).symm
    | cons c gap =>
      cases hrest
      have hle := h.before b' (by simp [hbefore])
      exact absurd (h'.after b (by simp)) (not_lt_of_ge hle)

/-- What `best` keeps is the last maximum of its list. -/
theorem exists_lastMax (h : best (atLeast key) l = some b) :
    ∃ before after, l = before ++ b :: after ∧ LastMax key before b after := by
  induction l using List.reverseRecOn generalizing b with
  | nil => cases h
  | append_singleton l a ih =>
    rw [best_concat] at h
    rcases keep_cases (atLeast key) (best (atLeast key) l) a with
      ⟨hkeep, hbetter⟩ | ⟨old, hold, hworse, hkeep⟩
    · cases hkeep.symm.trans h
      refine ⟨l, [], rfl, ?_, by simp⟩
      intro x hx
      -- an element before `a` is at most the one that `a` has replaced
      have hsome : best (atLeast key) l ≠ none := by
        rw [Ne, best_eq_none_iff]
        exact List.ne_nil_of_mem hx
      obtain ⟨old, hold⟩ := Option.ne_none_iff_exists'.mp hsome
      obtain ⟨before, after, rfl, hmax⟩ := ih hold
      exact le_trans (hmax.le x hx) (of_decide_eq_true (hbetter old hold))
    · cases hkeep.symm.trans h
      obtain ⟨before, after, rfl, hmax⟩ := ih hold
      refine ⟨before, after ++ [a], by simp, hmax.before, ?_⟩
      intro x hx
      rcases List.mem_append.mp hx with hx | hx
      · exact hmax.after x hx
      · rw [List.mem_singleton.mp hx]
        exact lt_of_not_ge (of_decide_eq_false hworse)

/-- `best` keeps an element if and only if it is the last maximum. -/
theorem best_eq_some_iff : best (atLeast key) l = some b ↔
    ∃ before after, l = before ++ b :: after ∧ LastMax key before b after := by
  constructor
  · exact exists_lastMax
  · rintro ⟨before, after, rfl, hmax⟩
    cases hbest : best (atLeast key) (before ++ b :: after) with
    | none => simp [best_eq_none_iff] at hbest
    | some c =>
      obtain ⟨before', after', hsame, hmax'⟩ := exists_lastMax hbest
      rw [hmax.eq hmax' hsame]

/-- The last maximum of the elements with `p`, at its place among all. -/
theorem best_filter_eq_some_iff {p : α → Bool} : best (atLeast key) (l.filter p) = some b ↔
    ∃ before after, l = before ++ b :: after ∧ p b = true ∧
      LastMax key (before.filter p) b (after.filter p) := by
  rw [best_eq_some_iff]
  constructor
  · rintro ⟨before, after, hfilter, hmax⟩
    obtain ⟨first, rest, rfl, rfl, hrest⟩ := List.filter_eq_append_iff.mp hfilter
    obtain ⟨skipped, last, rfl, hskipped, hb, rfl⟩ := List.filter_eq_cons_iff.mp hrest
    have hnone : skipped.filter p = [] := List.filter_eq_nil_iff.mpr hskipped
    refine ⟨first ++ skipped, last, by simp, hb, ?_⟩
    rwa [List.filter_append, hnone, List.append_nil]
  · rintro ⟨before, after, rfl, hb, hmax⟩
    refine ⟨before.filter p, after.filter p, ?_, hmax⟩
    rw [List.filter_append, List.filter_cons_of_pos hb]

/-- Without ties the order of the list does not matter. -/
theorem best_perm (hperm : l.Perm l') (hdistinct : (l.map key).Nodup) :
    best (atLeast key) l' = best (atLeast key) l := by
  cases hbest : best (atLeast key) l with
  | none =>
    obtain rfl := (best_eq_none_iff _ l).mp hbest
    exact (best_eq_none_iff _ l').mpr hperm.nil_eq.symm
  | some b =>
    obtain ⟨before, after, rfl, hmax⟩ := best_eq_some_iff.mp hbest
    obtain ⟨before', after', rfl⟩ := List.append_of_mem (hperm.mem_iff.mp (best_mem hbest))
    have hle : ∀ x ∈ before' ++ b :: after', key x ≤ key b :=
      fun x hx => hmax.le x (hperm.mem_iff.mpr hx)
    have hdistinct' := ((hperm.map key).nodup_iff).mp hdistinct
    rw [List.map_append, List.map_cons, List.nodup_append, List.nodup_cons] at hdistinct'
    refine best_eq_some_iff.mpr ⟨before', after', rfl, ?_, ?_⟩
    · intro x hx
      exact hle x (List.mem_append_left _ hx)
    · intro x hx
      refine lt_of_le_of_ne (hle x (by simp [hx])) ?_
      intro htie
      exact hdistinct'.2.1.1 (htie ▸ List.mem_map_of_mem hx)

end

/-! ### Keys that may be missing -/

/-- A missing key is below every other. -/
def rank {τ : Type} (key : Option τ) : WithBot τ := key.elim ⊥ fun t => (t : WithBot τ)

section
variable {τ : Type} {k k' : Option τ}

theorem rank_eq_iff : rank k = rank k' ↔ k = k' := by
  cases k with
  | none => cases k' <;> simp [rank]
  | some t => cases k' <;> simp [rank]

variable [LinearOrder τ]

theorem rank_lt_iff : rank k < rank k' ↔ ∃ u, k' = some u ∧ ∀ t, k = some t → t < u := by
  cases k with
  | none => cases k' <;> simp [rank]
  | some t => cases k' <;> simp [rank]

theorem rank_le_iff : rank k ≤ rank k' ↔
    (k' = none → k = none) ∧ ∀ t u, k = some t → k' = some u → t ≤ u := by
  cases k with
  | none => cases k' <;> simp [rank]
  | some t => cases k' <;> simp [rank]

end

end Best
