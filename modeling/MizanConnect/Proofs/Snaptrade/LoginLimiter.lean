import MizanConnect.Lib.SlidingWindow
import MizanConnect.Snaptrade.RateLimit
import Mathlib.Algebra.Order.Group.Int
import Mathlib.Data.List.Induction

/-!
# `MizanConnect.Proofs.Snaptrade.LoginLimiter`: the limiter and the history

The map of the limiter forgets: a check prunes the slots of its user, a sweep
prunes all of them and drops users. The history of the calls does not. `Inv`
relates the two: the slots of every user track the admissions of that user
(`SlidingWindow.Tracks`). From it, the verdict of a check is a function of the
admissions of its user alone (`reply_eq`).

`sliding_window_admission` has the consequences.
-/

set_option autoImplicit false

namespace MizanConnect.Proofs.Snaptrade.LoginLimiter

open MizanConnect.Snaptrade.RateLimit
open SlidingWindow

/-- The clock never goes back from one call to the next. The calls are in the order
of the lock, which they take after they have read the clock. -/
def NonDecreasing (calls : List Call) : Prop :=
  calls.Pairwise fun c d => c.now ≤ d.now

instance (calls : List Call) : Decidable (NonDecreasing calls) :=
  inferInstanceAs (Decidable (calls.Pairwise fun c d => c.now ≤ d.now))

/-- The slots that the map has for the user. -/
def slotsOf (map : LoginPortalLimiter) (userId : Uuid) : List Nanos :=
  (map userId).getD []

/-- The verdict on a user with these slots, all still in the window. -/
def verdict (slots : List Nanos) (now : Nanos) : Except Nanos Unit :=
  if MAX_PER_WINDOW ≤ slots.length then
    .error (max (slots.head?.getD now + WINDOW - now) 0)
  else .ok ()

theorem verdict_eq_ok {slots : List Nanos} {now : Nanos} :
    verdict slots now = .ok () ↔ slots.length < MAX_PER_WINDOW := by
  unfold verdict
  by_cases h : MAX_PER_WINDOW ≤ slots.length
  · simp [h]
  · simp [h, Nat.lt_of_not_le h]

theorem isOk_verdict {slots : List Nanos} {now : Nanos} :
    (verdict slots now).isOk = decide (slots.length < MAX_PER_WINDOW) := by
  unfold verdict
  by_cases h : MAX_PER_WINDOW ≤ slots.length
  · simp [h, Except.isOk, Except.toBool]
  · simp [h, Nat.lt_of_not_le h, Except.isOk, Except.toBool]

/-! ### One call -/

section
variable (map : LoginPortalLimiter) (userId : Uuid) (now : Nanos)

theorem check_verdict :
    (map.check userId now).1 = verdict (live (now - WINDOW) (slotsOf map userId)) now := by
  unfold LoginPortalLimiter.check verdict slotsOf live
  dsimp only
  split <;> rfl

/-- The slots of the caller after a check: what still counts, and the call
itself when it was let in. -/
theorem slotsOf_check :
    slotsOf (map.check userId now).2 userId
      = live (now - WINDOW) (slotsOf map userId)
        ++ if (map.check userId now).1.isOk then [now] else [] := by
  rw [check_verdict, isOk_verdict]
  show slotsOf (map.check userId now).2 userId = _
  unfold LoginPortalLimiter.check slotsOf live
  dsimp only
  -- The branches of the source: refused, and let in.
  split
  · rename_i h
    simp [Nat.not_lt_of_le h]
  · rename_i h
    simp [Nat.lt_of_not_le h]

theorem slotsOf_check_other {v : Uuid} (h : v ≠ userId) :
    slotsOf (map.check userId now).2 v = slotsOf map v := by
  unfold LoginPortalLimiter.check slotsOf
  dsimp only
  split <;> simp [Function.update_of_ne h]

/-- A dropped user has no slots, which is what pruning would leave. -/
theorem slotsOf_sweep :
    slotsOf (map.sweep now) userId = live (now - WINDOW) (slotsOf map userId) := by
  unfold LoginPortalLimiter.sweep slotsOf live
  dsimp only
  cases map userId with
  | none => rfl
  | some slots =>
    dsimp only [Option.bind_some, Option.getD_some]
    -- `retain` drops a user whose slots are all gone.
    split
    · rename_i hempty
      exact (List.isEmpty_iff.mp hempty).symm
    · rfl

end

/-! ### The invariant -/

/-- At `now` the slots of every user track the admissions of the calls. -/
def Inv (now : Nanos) (calls : List Call) : Prop :=
  ∀ userId, Tracks WINDOW now (slotsOf (after calls) userId) (admissions userId calls)

theorem after_snoc (calls : List Call) (c : Call) :
    after (calls ++ [c]) = (after calls).call c := by
  unfold after
  rw [List.foldl_append]
  rfl

theorem admissionsFrom_append (userId : Uuid) (map : LoginPortalLimiter) (cs ds : List Call) :
    admissionsFrom userId map (cs ++ ds)
      = admissionsFrom userId map cs
        ++ admissionsFrom userId (cs.foldl LoginPortalLimiter.call map) ds := by
  induction cs generalizing map with
  | nil => rfl
  | cons c cs ih =>
    show _ ++ admissionsFrom userId (map.call c) (cs ++ ds) = _
    rw [ih]
    simp [admissionsFrom]

theorem admissions_snoc (userId : Uuid) (calls : List Call) (c : Call) :
    admissions userId (calls ++ [c])
      = admissions userId calls ++ if (after calls).admits userId c then [c.now] else [] := by
  show admissionsFrom userId .new (calls ++ [c]) = _
  rw [admissionsFrom_append]
  show _ ++ ((if (after calls).admits userId c then [c.now] else []) ++ []) = _
  rw [List.append_nil]
  rfl

theorem Inv.mono {now t : Nanos} {calls : List Call} (h : Inv now calls) (ht : now ≤ t) :
    Inv t calls :=
  fun userId => (h userId).mono ht

/-- A call keeps the invariant at its own time. The cases are those of the
source: the caller's slots are pruned and perhaps extended, another user's are
left alone, a sweep prunes everybody's. -/
theorem Inv.call {calls : List Call} {c : Call} (h : Inv c.now calls) :
    Inv c.now (calls ++ [c]) := by
  intro userId
  rw [after_snoc, admissions_snoc]
  obtain ⟨now, request⟩ := c
  cases request with
  | sweep =>
    show Tracks WINDOW now (slotsOf ((after calls).sweep now) userId) (_ ++ [])
    rw [slotsOf_sweep, List.append_nil]
    exact (h userId).prune
  | check u =>
    show Tracks WINDOW now (slotsOf ((after calls).check u now).2 userId)
      (_ ++ if (u == userId && ((after calls).check userId now).1.isOk) then [now] else [])
    -- The map of the user changes when the user is the caller.
    by_cases hu : u = userId
    · subst hu
      rw [slotsOf_check]
      cases ((after calls).check u now).1.isOk with
      | false => simpa using (h u).prune
      | true => simpa using (h u).push (by decide)
    · rw [slotsOf_check_other _ _ _ (Ne.symm hu)]
      simpa [hu] using h userId

/-- The invariant holds from the last call on. -/
theorem inv_of_nonDecreasing {calls : List Call} (hcalls : NonDecreasing calls) {now : Nanos}
    (hnow : ∀ c ∈ calls, c.now ≤ now) : Inv now calls := by
  induction calls using List.reverseRecOn generalizing now with
  | nil => exact fun userId => Tracks.nil WINDOW now
  | append_singleton calls c ih =>
    have hparts := List.pairwise_append.mp hcalls
    -- The calls before the last one are not later, so they count at its time.
    have hlast : Inv c.now calls := ih hparts.1 fun d hd => hparts.2.2 d hd c (by simp)
    exact hlast.call.mono (hnow c (by simp))

/-- The verdict of a check depends on the admissions of its user, and on no
other part of the history. -/
theorem reply_eq {calls : List Call} {now : Nanos} (h : Inv now calls) (userId : Uuid) :
    reply calls userId now = verdict (live (now - WINDOW) (admissions userId calls)) now := by
  show ((after calls).check userId now).1 = _
  rw [check_verdict, (h userId).live_eq]

/-- A call is one more admission of the user when it is a check of the user
with fewer than ten admissions in the hour before it. -/
theorem admits_iff {calls : List Call} {c : Call} (h : Inv c.now calls) (userId : Uuid) :
    (after calls).admits userId c = true ↔
      c.request = .check userId ∧
        (live (c.now - WINDOW) (admissions userId calls)).length < MAX_PER_WINDOW := by
  have hreply := reply_eq h userId
  obtain ⟨now, request⟩ := c
  cases request with
  | sweep => simp [LoginPortalLimiter.admits]
  | check u =>
    show (u == userId && (reply calls userId now).isOk) = true ↔ _
    rw [hreply, isOk_verdict]
    simp

/-! ### What follows for the history -/

/-- The parts of a history under a clock that never goes back. -/
theorem NonDecreasing.snoc {calls : List Call} {c : Call} (h : NonDecreasing (calls ++ [c])) :
    NonDecreasing calls ∧ Inv c.now calls := by
  have hparts := List.pairwise_append.mp h
  exact ⟨hparts.1, inv_of_nonDecreasing hparts.1 fun d hd => hparts.2.2 d hd c (by simp)⟩

theorem capped_admissions {calls : List Call} (h : NonDecreasing calls) (userId : Uuid) :
    Capped WINDOW MAX_PER_WINDOW (admissions userId calls) := by
  induction calls using List.reverseRecOn with
  | nil => exact Capped.nil WINDOW MAX_PER_WINDOW
  | append_singleton calls c ih =>
    obtain ⟨hcalls, hinv⟩ := h.snoc
    rw [admissions_snoc]
    -- A call that is let in found room in the window behind it.
    cases hadmits : (after calls).admits userId c with
    | false => simpa using ih hcalls
    | true =>
      simpa using (ih hcalls).concat ((admits_iff hinv userId).mp hadmits).2

theorem mem_admissions {userId : Uuid} {calls : List Call} {t : Nanos}
    (ht : t ∈ admissions userId calls) : ∃ c ∈ calls, c.now = t := by
  induction calls using List.reverseRecOn with
  | nil => exact nomatch ht
  | append_singleton calls c ih =>
    rw [admissions_snoc] at ht
    cases List.mem_append.mp ht with
    | inl hold =>
      obtain ⟨d, hd, hnow⟩ := ih hold
      exact ⟨d, by simp [hd], hnow⟩
    | inr hnew =>
      split at hnew
      · exact ⟨c, by simp, (List.mem_singleton.mp hnew).symm⟩
      · exact nomatch hnew

theorem sorted_admissions {calls : List Call} (h : NonDecreasing calls) (userId : Uuid) :
    (admissions userId calls).Pairwise (· ≤ ·) := by
  induction calls using List.reverseRecOn with
  | nil => exact List.Pairwise.nil
  | append_singleton calls c ih =>
    have hparts := List.pairwise_append.mp h
    rw [admissions_snoc, List.pairwise_append]
    refine ⟨ih hparts.1, by split <;> simp, ?_⟩
    intro t ht s hs
    obtain ⟨d, hd, rfl⟩ := mem_admissions ht
    split at hs
    · rw [List.mem_singleton.mp hs]
      exact hparts.2.2 d hd c (by simp)
    · exact nomatch hs

/-- A call that adds no admission of the user can be left out of the history:
the admissions of the user stay the same. The induction is on the calls behind
it, each of which is let in on the same admissions with and without it. -/
theorem admissions_erase {pre post : List Call} {c : Call} {userId : Uuid}
    (hcalls : NonDecreasing (pre ++ c :: post))
    (hc : (after pre).admits userId c = false) :
    admissions userId (pre ++ c :: post) = admissions userId (pre ++ post) := by
  induction post using List.reverseRecOn with
  | nil =>
    rw [admissions_snoc, hc]
    simp
  | append_singleton post d ih =>
    have hwith : NonDecreasing ((pre ++ c :: post) ++ [d]) := by simpa using hcalls
    have hwithout : NonDecreasing ((pre ++ post) ++ [d]) :=
      hwith.sublist (((List.Sublist.refl pre).append (List.sublist_cons_self c post)).append
        (List.Sublist.refl [d]))
    have hsame := ih hwith.snoc.1
    -- `d` is judged by the admissions before it, which are the same.
    have hadmits : (after (pre ++ c :: post)).admits userId d
        = (after (pre ++ post)).admits userId d := by
      rw [Bool.eq_iff_iff, admits_iff hwith.snoc.2, admits_iff hwithout.snoc.2, hsame]
    have hleft : pre ++ c :: (post ++ [d]) = (pre ++ c :: post) ++ [d] := by simp
    have hright : pre ++ (post ++ [d]) = (pre ++ post) ++ [d] := by simp
    rw [hleft, hright, admissions_snoc, admissions_snoc, hsame, hadmits]

/-- The slots of a user are admissions of the user, in the order of the
clock. -/
theorem sorted_slots {calls : List Call} (h : NonDecreasing calls) (userId : Uuid) :
    (slotsOf (after calls) userId).Pairwise (· ≤ ·) := by
  cases hlast : calls.getLast? with
  | none =>
    rw [List.getLast?_eq_none_iff.mp hlast]
    exact List.Pairwise.nil
  | some c =>
    obtain ⟨calls, rfl⟩ := List.getLast?_eq_some_iff.mp hlast
    -- At the last call the slots are the admissions after some instant.
    obtain ⟨cutoff, -, htracks⟩ := h.snoc.2.call userId
    rw [htracks]
    exact (sorted_admissions h userId).sublist (live_sublist cutoff _)

/-- A check extends the slots of its user only while there are fewer than ten.
This needs no clock. -/
theorem length_slots (calls : List Call) (userId : Uuid) :
    (slotsOf (after calls) userId).length ≤ MAX_PER_WINDOW := by
  induction calls using List.reverseRecOn with
  | nil => exact Nat.zero_le _
  | append_singleton calls c ih =>
    rw [after_snoc]
    obtain ⟨now, request⟩ := c
    have hprune := (live_sublist (now - WINDOW) (slotsOf (after calls) userId)).length_le
    cases request with
    | sweep =>
      show (slotsOf ((after calls).sweep now) userId).length ≤ _
      rw [slotsOf_sweep]
      omega
    | check u =>
      show (slotsOf ((after calls).check u now).2 userId).length ≤ _
      by_cases hu : u = userId
      · subst hu
        -- Let in, there were fewer than ten; refused, nothing is added.
        rw [slotsOf_check, check_verdict, isOk_verdict, List.length_append]
        split
        · rename_i hroom
          have := of_decide_eq_true hroom
          simp only [List.length_singleton]
          omega
        · simp only [List.length_nil]
          omega
      · rw [slotsOf_check_other _ _ _ (Ne.symm hu)]
        exact ih

/-! ### The theorem -/

/-- Under a clock that never goes back, a check is let in exactly when fewer
than ten earlier checks of its user were let in during the hour before it, the
far end not counted. So no half-open hour has more than ten admissions of one
user; a sweep, a refused check or a check of another user can be left out of
the history without a change to a later reply; and the map stores a sorted list
of at most ten instants for a user. -/
theorem sliding_window_admission (calls : List Call) (userId : Uuid) (t : Nanos)
    (hclock : NonDecreasing (calls ++ [⟨t, .check userId⟩])) :
    (reply calls userId t = .ok () ↔
      ((admissions userId calls).filter fun s => decide (t - WINDOW < s)).length
        < MAX_PER_WINDOW) ∧
    (∀ u a,
      ((admissions u calls).filter fun s => decide (a ≤ s ∧ s < a + WINDOW)).length
        ≤ MAX_PER_WINDOW ∧
      ((admissions u calls).filter fun s => decide (a < s ∧ s ≤ a + WINDOW)).length
        ≤ MAX_PER_WINDOW) ∧
    (∀ pre c post, calls = pre ++ c :: post →
      (∀ u, c.request = .check u → u = userId → reply pre u c.now ≠ .ok ()) →
      reply calls userId t = reply (pre ++ post) userId t) ∧
    (∀ u slots, after calls u = some slots →
      slots.Pairwise (· ≤ ·) ∧ slots.length ≤ MAX_PER_WINDOW) := by
  obtain ⟨hcalls, hinv⟩ := hclock.snoc
  refine ⟨?_, ?_, ?_, ?_⟩
  · rw [reply_eq hinv, verdict_eq_ok]
    rfl
  · intro u a
    have hcapped := capped_admissions hcalls u
    exact ⟨hcapped.openRight a, hcapped.openLeft a⟩
  · intro pre c post hsplit hidle
    subst hsplit
    have hwithout : NonDecreasing ((pre ++ post) ++ [⟨t, .check userId⟩]) :=
      hclock.sublist (((List.Sublist.refl pre).append (List.sublist_cons_self c post)).append
        (List.Sublist.refl _))
    -- None of the three kinds of call lets the user in.
    have hc : (after pre).admits userId c = false := by
      obtain ⟨now, request⟩ := c
      cases request with
      | sweep => rfl
      | check u =>
        by_cases hu : u = userId
        · subst hu
          have hrefused : ((after pre).check u now).1 ≠ .ok () := hidle u rfl rfl
          cases hverdict : ((after pre).check u now).1 with
          | ok _ => exact absurd hverdict hrefused
          | error wait => simp [LoginPortalLimiter.admits, hverdict, Except.isOk, Except.toBool]
        · simp [LoginPortalLimiter.admits, hu]
    rw [reply_eq hinv, reply_eq hwithout.snoc.2, admissions_erase hcalls hc]
  · intro u slots hslots
    have hmap : slotsOf (after calls) u = slots := by
      show (after calls u).getD [] = slots
      rw [hslots]
      rfl
    exact ⟨hmap ▸ sorted_slots hcalls u, hmap ▸ length_slots calls u⟩

/-- Ten checks in one instant, and the next one an hour later to the
nanosecond. -/
def burst : List Call :=
  List.replicate 10 ⟨0, .check ⟨1⟩⟩

theorem sliding_window_admission_burst :
    reply burst ⟨1⟩ (WINDOW - 1) = .error 1 ∧ reply burst ⟨1⟩ WINDOW = .ok () ∧
      ((admissions ⟨1⟩ burst).filter fun s => decide (WINDOW - WINDOW < s)).length
        < MAX_PER_WINDOW := by
  refine ⟨rfl, rfl, ?_⟩
  exact (sliding_window_admission burst ⟨1⟩ WINDOW (by decide)).1.mp rfl

end MizanConnect.Proofs.Snaptrade.LoginLimiter
