import Mathlib.Algebra.Order.Group.Defs
import Mathlib.Data.List.Basic

/-!
# `MizanConnect.Lib.SlidingWindow`: counting admissions in a moving window

A limiter admits at most `k` events in any window of length `w`. Its
specification looks at the log of all admissions so far: `live (t - w) log` is
what still counts at `t`. An implementation does not keep the log. It keeps
some `slots` and prunes them when it likes, and `Tracks` says that what it has
pruned counts no more.

`Capped` is the bound on every window. `Capped.concat` keeps it.
-/

set_option autoImplicit false

namespace SlidingWindow

variable {τ : Type} [LinearOrder τ]

/-- The admissions after `cutoff`, oldest first. -/
def live (cutoff : τ) (log : List τ) : List τ :=
  log.filter fun t => decide (cutoff < t)

theorem live_append (cutoff : τ) (xs ys : List τ) :
    live cutoff (xs ++ ys) = live cutoff xs ++ live cutoff ys :=
  List.filter_append _ _

theorem live_sublist (cutoff : τ) (log : List τ) : (live cutoff log).Sublist log :=
  List.filter_sublist

/-- Pruning early does not matter to a later cutoff. -/
theorem live_live {c c' : τ} (h : c ≤ c') (log : List τ) :
    live c' (live c log) = live c' log := by
  unfold live
  rw [List.filter_filter]
  apply List.filter_congr
  intro t _
  have himp : c' < t → c < t := lt_of_le_of_lt h
  by_cases ht : c' < t
  · simp [ht, himp ht]
  · simp [ht]

/-- While the cutoff is before the oldest admission that counts, the same
admissions count. -/
theorem live_eq_of_lt {c c' oldest : τ} {log rest : List τ} (hsorted : log.Pairwise (· ≤ ·))
    (hlive : live c log = oldest :: rest) (hc : c ≤ c') (hc' : c' < oldest) :
    live c' log = live c log := by
  have hafter : (live c log).Pairwise (· ≤ ·) := hsorted.sublist (live_sublist c log)
  rw [← live_live hc, hlive]
  rw [hlive, List.pairwise_cons] at hafter
  refine List.filter_eq_self.mpr ?_
  intro t ht
  cases List.mem_cons.mp ht with
  | inl hfirst => exact decide_eq_true (hfirst ▸ hc')
  | inr hrest => exact decide_eq_true (lt_of_lt_of_le hc' (hafter.1 t hrest))

/-- When the cutoff reaches it, there are fewer. -/
theorem length_live_lt {c oldest : τ} (c' : τ) {log rest : List τ}
    (hlive : live c log = oldest :: rest) (hc : c ≤ c') (hc' : oldest ≤ c') :
    (live c' log).length < (live c log).length := by
  have hdropped : live c' (oldest :: rest) = live c' rest :=
    List.filter_cons_of_neg (by simpa using hc')
  rw [← live_live hc, hlive, hdropped, List.length_cons]
  exact Nat.lt_succ_of_le (live_sublist c' rest).length_le

variable [AddCommGroup τ]

/-- At `now` the slots hold every admission that still counts: they are what a
cutoff no later than `now - w` left of the log. -/
def Tracks (w now : τ) (slots log : List τ) : Prop :=
  ∃ c, c ≤ now - w ∧ slots = live c log

theorem Tracks.nil (w now : τ) : Tracks w now ([] : List τ) [] :=
  ⟨now - w, le_refl _, rfl⟩

theorem Tracks.mono [IsOrderedAddMonoid τ] {w now t : τ} {slots log : List τ}
    (h : Tracks w now slots log) (ht : now ≤ t) : Tracks w t slots log := by
  obtain ⟨c, hc, hslots⟩ := h
  exact ⟨c, hc.trans (sub_le_sub_right ht w), hslots⟩

/-- Slots that track the log show what counts now. -/
theorem Tracks.live_eq {w now : τ} {slots log : List τ} (h : Tracks w now slots log) :
    live (now - w) slots = live (now - w) log := by
  obtain ⟨c, hc, rfl⟩ := h
  exact live_live hc log

/-- Pruned slots track the log. -/
theorem Tracks.prune {w now : τ} {slots log : List τ} (h : Tracks w now slots log) :
    Tracks w now (live (now - w) slots) log :=
  ⟨now - w, le_refl _, h.live_eq⟩

/-- An admission goes into the slots and into the log. -/
theorem Tracks.push [IsOrderedAddMonoid τ] {w now : τ} {slots log : List τ}
    (h : Tracks w now slots log) (hw : 0 < w) :
    Tracks w now (live (now - w) slots ++ [now]) (log ++ [now]) := by
  refine ⟨now - w, le_refl _, ?_⟩
  have hnow : live (now - w) [now] = [now] := by
    simp [live, hw]
  rw [live_append, hnow, h.live_eq]

/-- No half-open window of length `w` has more than `k` admissions. -/
structure Capped (w : τ) (k : Nat) (log : List τ) : Prop where
  openLeft : ∀ a, (log.filter fun t => decide (a < t ∧ t ≤ a + w)).length ≤ k
  openRight : ∀ a, (log.filter fun t => decide (a ≤ t ∧ t < a + w)).length ≤ k

theorem Capped.nil (w : τ) (k : Nat) : Capped w k ([] : List τ) :=
  ⟨fun _ => Nat.zero_le k, fun _ => Nat.zero_le k⟩

/-- A window that holds the new admission holds only what still counted before
it, so there was room; every other window is as it was. -/
private theorem length_filter_push {w now : τ} {k : Nat} {log : List τ} {p : τ → Bool}
    (hroom : (live (now - w) log).length < k) (hold : (log.filter p).length ≤ k)
    (hp : p now = true → ∀ t ∈ log, p t = true → now - w < t) :
    ((log ++ [now]).filter p).length ≤ k := by
  rw [List.filter_append]
  cases hnow : p now with
  | false => simpa [hnow] using hold
  | true =>
    have hsub : (log.filter p).length ≤ (live (now - w) log).length := by
      unfold live
      rw [← List.countP_eq_length_filter, ← List.countP_eq_length_filter]
      apply List.countP_mono_left
      intro t ht hpt
      simpa using hp hnow t ht hpt
    simp only [hnow, List.filter_cons_of_pos, List.filter_nil, List.length_append,
      List.length_singleton]
    omega

/-- Admitting only while fewer than `k` admissions count keeps the bound. -/
theorem Capped.concat [IsOrderedAddMonoid τ] {w now : τ} {k : Nat} {log : List τ}
    (h : Capped w k log) (hroom : (live (now - w) log).length < k) :
    Capped w k (log ++ [now]) where
  openLeft a := by
    apply length_filter_push hroom (h.openLeft a)
    intro hnow t _ ht
    simp only [decide_eq_true_eq] at hnow ht
    exact lt_of_le_of_lt (sub_le_iff_le_add.mpr hnow.2) ht.1
  openRight a := by
    apply length_filter_push hroom (h.openRight a)
    intro hnow t _ ht
    simp only [decide_eq_true_eq] at hnow ht
    exact lt_of_lt_of_le (sub_lt_iff_lt_add.mpr hnow.2) ht.1

end SlidingWindow
