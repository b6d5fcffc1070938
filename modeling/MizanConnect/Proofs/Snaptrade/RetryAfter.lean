import MizanConnect.Proofs.Snaptrade.LoginLimiter
import Mathlib.Tactic.Linarith

/-!
# `MizanConnect.Proofs.Snaptrade.RetryAfter`: the wait that a refusal names

A refused check is told to wait until its oldest admission of the hour leaves
the window. Until then the same admissions count
(`SlidingWindow.live_eq_of_lt`), so nothing lets the user in. At that instant
one of them is gone (`SlidingWindow.length_live_lt`), and there were only ten.
-/

set_option autoImplicit false

namespace MizanConnect.Proofs.Snaptrade.LoginLimiter

open MizanConnect.Snaptrade.RateLimit
open SlidingWindow

/-- A refusal is that of ten admissions in the window, and its wait ends an hour
after the oldest of them. -/
theorem verdict_eq_error {slots : List Nanos} {now d : Nanos}
    (hlive : ∀ s ∈ slots, now - WINDOW < s) (h : verdict slots now = .error d) :
    ∃ oldest rest, slots = oldest :: rest ∧ MAX_PER_WINDOW ≤ (oldest :: rest).length ∧
      now + d = oldest + WINDOW ∧ 0 < d := by
  unfold verdict at h
  split at h
  · rename_i hfull
    cases slots with
    | nil => exact absurd hfull (by decide)
    | cons oldest rest =>
      have holdest := hlive oldest List.mem_cons_self
      have hleft : 0 < oldest + WINDOW - now := by linarith
      simp only [List.head?_cons, Option.getD_some, Except.error.injEq] at h
      rw [max_eq_left hleft.le] at h
      subst h
      exact ⟨oldest, rest, rfl, hfull, add_sub_cancel now _, hleft⟩
  · cases h

/-- The verdict on full slots. -/
theorem verdict_full {oldest now : Nanos} {rest : List Nanos}
    (h : MAX_PER_WINDOW ≤ (oldest :: rest).length) (hnow : now ≤ oldest + WINDOW) :
    verdict (oldest :: rest) now = .error (oldest + WINDOW - now) := by
  rw [verdict, if_pos h, List.head?_cons, Option.getD_some, max_eq_left (by linarith)]

section
variable {calls : List Call} {userId : Uuid} {t oldest : Nanos} {rest : List Nanos}

/-- At most ten admissions count at the time of a call. -/
theorem length_live_le (hclock : NonDecreasing (calls ++ [⟨t, .check userId⟩])) :
    (live (t - WINDOW) (admissions userId calls)).length ≤ MAX_PER_WINDOW := by
  have hwindow := (capped_admissions hclock.snoc.1 userId).openLeft (t - WINDOW)
  have hsame : live (t - WINDOW) (admissions userId calls)
      = (admissions userId calls).filter
        fun s => decide (t - WINDOW < s ∧ s ≤ t - WINDOW + WINDOW) := by
    refine List.filter_congr ?_
    intro s hs
    -- No admission is later than the call.
    obtain ⟨c, hc, rfl⟩ := mem_admissions hs
    have hle : c.now ≤ t :=
      (List.pairwise_append.mp hclock).2.2 c hc ⟨t, .check userId⟩ (by simp)
    rw [sub_add_cancel]
    simp [hle]
  rw [hsame]
  exact hwindow

/-- Until the wait is over nothing lets the user in. The induction is on the
calls behind the refused one, each of which sees the admissions that it saw. -/
theorem admissions_of_waiting {mid : List Call}
    (hclock : NonDecreasing (calls ++ ⟨t, .check userId⟩ :: mid))
    (hlive : live (t - WINDOW) (admissions userId calls) = oldest :: rest)
    (hfull : MAX_PER_WINDOW ≤ (oldest :: rest).length)
    (hwait : ∀ c ∈ mid, c.now < oldest + WINDOW) :
    admissions userId (calls ++ ⟨t, .check userId⟩ :: mid) = admissions userId calls := by
  -- A call at a time of the wait finds the window full.
  have hclosed : ∀ (history : List Call) (c : Call), NonDecreasing (history ++ [c]) →
      NonDecreasing calls → admissions userId history = admissions userId calls →
      t ≤ c.now → c.now < oldest + WINDOW → (after history).admits userId c = false := by
    intro history c hhistory hcalls hsame hfrom huntil
    rw [Bool.eq_false_iff]
    intro hadmits
    have hroom := ((admits_iff hhistory.snoc.2 userId).mp hadmits).2
    rw [hsame, live_eq_of_lt (sorted_admissions hcalls userId) hlive (by linarith) (by linarith),
      hlive] at hroom
    omega
  have hcalls : NonDecreasing calls := (List.pairwise_append.mp hclock).1
  have holdest : t < oldest + WINDOW := by
    have hmem : oldest ∈ live (t - WINDOW) (admissions userId calls) := by
      rw [hlive]
      exact List.mem_cons_self
    have := of_decide_eq_true (List.mem_filter.mp hmem).2
    linarith
  induction mid using List.reverseRecOn with
  | nil =>
    rw [admissions_snoc, hclosed calls _ hclock hcalls rfl (le_refl t) holdest]
    simp
  | append_singleton mid c ih =>
    have hsnoc : calls ++ ⟨t, .check userId⟩ :: (mid ++ [c])
        = (calls ++ ⟨t, .check userId⟩ :: mid) ++ [c] := by simp
    rw [hsnoc] at hclock ⊢
    have hparts := List.pairwise_append.mp hclock
    have hsame := ih hclock.snoc.1 fun d hd => hwait d (List.mem_append_left _ hd)
    have hfrom : t ≤ c.now := hparts.2.2 ⟨t, .check userId⟩ (by simp) c (by simp)
    rw [admissions_snoc, hclosed _ c hclock hcalls hsame hfrom (hwait c (by simp)), hsame]
    simp

end

/-- A refused check names a positive wait. Until it is over, whatever is called
in between, a check of the user is refused and told to wait until the same
instant. From that instant on it is let in, if no other check of the user was
let in before it. -/
theorem retry_after_exact (calls : List Call) (userId : Uuid) (t d : Nanos)
    (hclock : NonDecreasing (calls ++ [⟨t, .check userId⟩]))
    (hrefused : reply calls userId t = .error d) :
    0 < d ∧
    (∀ mid t', NonDecreasing (calls ++ ⟨t, .check userId⟩ :: mid ++ [⟨t', .check userId⟩]) →
      t' < t + d →
      ∃ wait, reply (calls ++ ⟨t, .check userId⟩ :: mid) userId t' = .error wait ∧
        t' + wait = t + d) ∧
    (∀ mid t', NonDecreasing (calls ++ ⟨t, .check userId⟩ :: mid ++ [⟨t', .check userId⟩]) →
      t + d ≤ t' →
      admissions userId (calls ++ ⟨t, .check userId⟩ :: mid) = admissions userId calls →
      reply (calls ++ ⟨t, .check userId⟩ :: mid) userId t' = .ok ()) := by
  have hsorted := sorted_admissions hclock.snoc.1 userId
  have hverdict : verdict (live (t - WINDOW) (admissions userId calls)) t = .error d :=
    (reply_eq hclock.snoc.2 userId).symm.trans hrefused
  have hcounts : ∀ s ∈ live (t - WINDOW) (admissions userId calls), t - WINDOW < s :=
    fun s hs => of_decide_eq_true (List.mem_filter.mp hs).2
  obtain ⟨oldest, rest, hlive, hfull, hend, hpos⟩ := verdict_eq_error hcounts hverdict
  have hten := length_live_le hclock
  -- Every later call is at `t` or after it.
  have hlater : ∀ mid t',
      NonDecreasing (calls ++ ⟨t, .check userId⟩ :: mid ++ [⟨t', .check userId⟩]) → t ≤ t' := by
    intro mid t' hall
    exact (List.pairwise_append.mp hall).2.2 ⟨t, .check userId⟩ (by simp) ⟨t', .check userId⟩
      (by simp)
  refine ⟨hpos, ?_, ?_⟩
  · intro mid t' hall huntil
    have hfrom := hlater mid t' hall
    have hwait : ∀ c ∈ mid, c.now < oldest + WINDOW := by
      intro c hc
      have hle : c.now ≤ t' :=
        (List.pairwise_append.mp hall).2.2 c (by simp [hc]) ⟨t', .check userId⟩ (by simp)
      linarith
    have hsame := admissions_of_waiting hall.snoc.1 hlive hfull hwait
    refine ⟨oldest + WINDOW - t', ?_, by linarith⟩
    rw [reply_eq hall.snoc.2, hsame, live_eq_of_lt hsorted hlive (by linarith) (by linarith), hlive]
    exact verdict_full hfull (by linarith)
  · intro mid t' hall hover hidle
    have hfrom := hlater mid t' hall
    have hfewer := length_live_lt (t' - WINDOW) hlive (by linarith) (by linarith)
    rw [reply_eq hall.snoc.2, hidle]
    exact verdict_eq_ok.mpr (lt_of_lt_of_le hfewer hten)

/-- The eleventh check of an instant waits for an hour. -/
theorem retry_after_exact_burst :
    reply (burst ++ ⟨0, .check ⟨1⟩⟩ :: []) ⟨1⟩ (0 + WINDOW) = .ok () := by
  have hexact := retry_after_exact burst ⟨1⟩ 0 WINDOW (by decide) rfl
  exact hexact.2.2 [] (0 + WINDOW) (by decide) (le_refl _) (by decide)

end MizanConnect.Proofs.Snaptrade.LoginLimiter
