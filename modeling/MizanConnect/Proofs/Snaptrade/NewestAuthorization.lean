import MizanConnect.Snaptrade.Callback

/-!
# `MizanConnect.Proofs.Snaptrade.NewestAuthorization`: which authorization is picked

`pick_newest_authorization` ranks its candidates by `(timestamp, index)`. The
index only decides between equal timestamps, and there the later element wins,
so the pick is the last maximum of the candidates by their timestamp alone
(`pickNewestAuthorization_eq_best`). `Newest` is that maximum in the words of
the doc comment, and `pick_newest_contract` the contract.

The parser of the dates is a parameter. Only the order of the instants enters,
so their unit does not matter.
-/

set_option autoImplicit false

namespace MizanConnect.Proofs.Snaptrade

open MizanConnect.Snaptrade

/-! ### The order of the timestamps -/

/-- The instant of an authorization, if it has a date that can be parsed. -/
def instantOf (ctx : SnaptradeContext) (a : StAuthorization) : Option Timestamp :=
  a.createdDate.bind ctx.parseRfc3339

/-- Its rank, the least without an instant. -/
def rankOf (ctx : SnaptradeContext) (a : StAuthorization) : WithBot Timestamp :=
  Best.rank (instantOf ctx a)

/-- `Option<OffsetDateTime>` is ordered as the ranks are. -/
theorem dateLt_iff {d e : Option Timestamp} :
    dateLt d e = true ↔ ∃ u, e = some u ∧ ∀ t, d = some t → t < u := by
  cases d with
  | none => cases e <;> simp [dateLt]
  | some s => cases e <;> simp [dateLt]

theorem rankOf_eq_iff {ctx : SnaptradeContext} {a b : StAuthorization} :
    rankOf ctx a = rankOf ctx b ↔ instantOf ctx a = instantOf ctx b :=
  Best.rank_eq_iff

/-- Behind an element the index is larger, so the key `(ts, idx)` compares as
the timestamp does. -/
theorem rankedAtLeast_eq (ctx : SnaptradeContext) {old new : StAuthorization × Nat}
    (h : old.2 < new.2) :
    rankedAtLeast ctx new old = Best.atLeast (rankOf ctx) new.1 old.1 := by
  have hranked : rankedAtLeast ctx new old =
      (dateLt (instantOf ctx old.1) (instantOf ctx new.1) ||
        (instantOf ctx old.1 = instantOf ctx new.1 && decide (old.2 ≤ new.2))) := rfl
  have hindex : decide (old.2 ≤ new.2) = true := decide_eq_true h.le
  rw [hranked, hindex, Bool.and_true, Bool.eq_iff_iff, Bool.or_eq_true, dateLt_iff,
    ← Best.rank_lt_iff, decide_eq_true_iff, ← rankOf_eq_iff, Best.atLeast, decide_eq_true_iff,
    le_iff_lt_or_eq]
  rfl

/-! ### The pick -/

/-- The last maximum of the candidates. -/
theorem pickNewestAuthorization_eq_best (ctx : SnaptradeContext)
    (authorizations : List StAuthorization) (existingId : Option String) :
    pickNewestAuthorization ctx authorizations existingId =
      Best.best (Best.atLeast (rankOf ctx)) (authorizations.filter (isCandidate existingId)) := by
  have hcandidates : authorizations.filter (isCandidate existingId) =
      (authorizations.zipIdx.filter fun a => isCandidate existingId a.1).map (·.1) := by
    conv => lhs; rw [← List.zipIdx_map_fst 0 authorizations, List.filter_map]
    rfl
  have hindices : authorizations.zipIdx.Pairwise fun old new => old.2 < new.2 := by
    rw [← List.pairwise_map, List.zipIdx_map_snd]
    exact List.pairwise_lt_range'
  rw [hcandidates, pickNewestAuthorization]
  refine (Best.best_map_of_pairwise _ _ _ ?_).symm
  exact (hindices.filter _).imp fun hlt => (rankedAtLeast_eq ctx hlt).symm

/-- The candidates are the authorizations with another id than the existing
one. -/
theorem isCandidate_eq_false_iff {existingId : Option String} {a : StAuthorization} :
    isCandidate existingId a = false ↔ existingId = some a.id := by
  cases existingId with
  | none => simp [isCandidate]
  | some e =>
    simp only [isCandidate, decide_eq_false_iff_not, not_not, Option.some.injEq]
    exact eq_comm

theorem isCandidate_iff {existingId : Option String} {a : StAuthorization} :
    isCandidate existingId a = true ↔ existingId ≠ some a.id := by
  rw [← Bool.not_eq_false, isCandidate_eq_false_iff]

/-- With the id `e` on the row, the candidates are the other ids. -/
theorem isCandidate_some_eq_false_iff (e : String) (a : StAuthorization) :
    isCandidate (some e) a = false ↔ a.id = e := by
  rw [isCandidate_eq_false_iff, Option.some.injEq, eq_comm]

/-- Nothing is picked exactly when no authorization is a candidate. -/
theorem pickNewestAuthorization_eq_none_iff (ctx : SnaptradeContext)
    (authorizations : List StAuthorization) (existingId : Option String) :
    pickNewestAuthorization ctx authorizations existingId = none ↔
      ∀ a ∈ authorizations, isCandidate existingId a = false := by
  rw [pickNewestAuthorization_eq_best, Best.best_eq_none_iff, List.filter_eq_nil_iff]
  simp only [Bool.not_eq_true]

/-- A picked authorization is on the list and is a candidate. -/
theorem pickNewestAuthorization_mem {ctx : SnaptradeContext}
    {authorizations : List StAuthorization} {existingId : Option String}
    {auth : StAuthorization}
    (h : pickNewestAuthorization ctx authorizations existingId = some auth) :
    auth ∈ authorizations ∧ isCandidate existingId auth = true := by
  rw [pickNewestAuthorization_eq_best] at h
  exact List.mem_filter.mp (Best.best_mem h)

/-- `auth`, between the two parts of the list, is the newest of those whose id
is not the existing one: none is later, none is dated when `auth` is not, and
none behind it has the same instant or, like it, has none. -/
structure Newest (ctx : SnaptradeContext) (existingId : Option String)
    (before : List StAuthorization) (auth : StAuthorization) (after : List StAuthorization) :
    Prop where
  other : existingId ≠ some auth.id
  notLater : ∀ a ∈ before ++ after, existingId ≠ some a.id →
    ∀ t u, instantOf ctx a = some t → instantOf ctx auth = some u → t ≤ u
  dated : ∀ a ∈ before ++ after, existingId ≠ some a.id →
    instantOf ctx auth = none → instantOf ctx a = none
  lastOfTies : ∀ a ∈ after, existingId ≠ some a.id → instantOf ctx a ≠ instantOf ctx auth

/-- It is the last maximum of the candidates. -/
theorem newest_iff {ctx : SnaptradeContext} {existingId : Option String}
    {before after : List StAuthorization} {auth : StAuthorization} :
    Newest ctx existingId before auth after ↔ isCandidate existingId auth = true ∧
      Best.LastMax (rankOf ctx) (before.filter (isCandidate existingId)) auth
        (after.filter (isCandidate existingId)) := by
  constructor
  · intro h
    have hle : ∀ a ∈ before ++ after, existingId ≠ some a.id → rankOf ctx a ≤ rankOf ctx auth :=
      fun a ha hother => Best.rank_le_iff.mpr ⟨h.dated a ha hother, h.notLater a ha hother⟩
    refine ⟨isCandidate_iff.mpr h.other, ?_, ?_⟩
    · intro a ha
      obtain ⟨hmem, hcandidate⟩ := List.mem_filter.mp ha
      exact hle a (List.mem_append_left after hmem) (isCandidate_iff.mp hcandidate)
    · intro a ha
      obtain ⟨hmem, hcandidate⟩ := List.mem_filter.mp ha
      have hother := isCandidate_iff.mp hcandidate
      have hne := h.lastOfTies a hmem hother
      exact lt_of_le_of_ne (hle a (List.mem_append_right before hmem) hother)
        (mt rankOf_eq_iff.mp hne)
  · rintro ⟨hcandidate, hmax⟩
    have hafter : ∀ a ∈ after, existingId ≠ some a.id → rankOf ctx a < rankOf ctx auth :=
      fun a ha hother => hmax.after a (List.mem_filter.mpr ⟨ha, isCandidate_iff.mpr hother⟩)
    have hle : ∀ a ∈ before ++ after, existingId ≠ some a.id →
        rankOf ctx a ≤ rankOf ctx auth := by
      intro a ha hother
      rcases List.mem_append.mp ha with ha | ha
      · exact hmax.before a (List.mem_filter.mpr ⟨ha, isCandidate_iff.mpr hother⟩)
      · exact (hafter a ha hother).le
    exact
      { other := isCandidate_iff.mp hcandidate
        notLater := fun a ha hother => (Best.rank_le_iff.mp (hle a ha hother)).2
        dated := fun a ha hother => (Best.rank_le_iff.mp (hle a ha hother)).1
        lastOfTies := fun a ha hother htie =>
          (hafter a ha hother).ne (rankOf_eq_iff.mpr htie) }

/-! ### The theorem -/

/-- Nothing is picked exactly when every id is the existing one. Otherwise the
pick is the newest of the others, the last one of those with the same instant.
When no two of them have the same instant, the order of the list does not
matter. -/
theorem pick_newest_contract (ctx : SnaptradeContext) (authorizations : List StAuthorization)
    (existingId : Option String) :
    (pickNewestAuthorization ctx authorizations existingId = none ↔
      ∀ a ∈ authorizations, existingId = some a.id) ∧
    (∀ auth, pickNewestAuthorization ctx authorizations existingId = some auth ↔
      ∃ before after, authorizations = before ++ auth :: after ∧
        Newest ctx existingId before auth after) ∧
    ∀ shuffled, authorizations.Perm shuffled →
      ((authorizations.filter (isCandidate existingId)).map (instantOf ctx)).Nodup →
      pickNewestAuthorization ctx shuffled existingId =
        pickNewestAuthorization ctx authorizations existingId := by
  refine ⟨?_, ?_, ?_⟩
  · simp only [pickNewestAuthorization_eq_none_iff, isCandidate_eq_false_iff]
  · intro auth
    rw [pickNewestAuthorization_eq_best, Best.best_filter_eq_some_iff]
    simp only [newest_iff]
  · intro shuffled hperm hdistinct
    rw [pickNewestAuthorization_eq_best, pickNewestAuthorization_eq_best]
    refine Best.best_perm (hperm.filter _) ?_
    -- distinct instants have distinct ranks
    rw [List.Nodup, List.pairwise_map] at hdistinct ⊢
    exact hdistinct.imp fun hne => mt rankOf_eq_iff.mp hne

/-- The dates of the test, the later one also with another offset. -/
def dateContext : SnaptradeContext where
  decodeState _ := none
  decrypt _ := none
  parseRfc3339 s :=
    if s = "2025-12-01T00:00:00Z" then some 1764547200
    else if s = "2026-05-01T00:00:00Z" then some 1777593600
    else if s = "2026-05-01T02:00:00+02:00" then some 1777593600
    else none

/-- An authorization created at a date. -/
def createdOn (id createdDate : String) : StAuthorization :=
  ⟨id, none, none, false, some createdDate, some createdDate, none⟩

/-- Of two with one instant the later one on the list is picked. -/
example : (pickNewestAuthorization dateContext
    [createdOn "a" "2026-05-01T02:00:00+02:00", createdOn "b" "2026-05-01T00:00:00Z",
      createdOn "c" "soon"] none).map (·.id) = some "b" := by
  decide

/-- The stale and the fresh authorization, in both orders. -/
theorem pick_newest_contract_fresh :
    pickNewestAuthorization dateContext
      [createdOn "auth-fresh" "2026-05-01T00:00:00Z",
        createdOn "auth-stale" "2025-12-01T00:00:00Z"] none =
      some (createdOn "auth-fresh" "2026-05-01T00:00:00Z") := by
  obtain ⟨-, -, hperm⟩ := pick_newest_contract dateContext
    [createdOn "auth-stale" "2025-12-01T00:00:00Z",
      createdOn "auth-fresh" "2026-05-01T00:00:00Z"] none
  rw [hperm _ (List.Perm.swap _ _ _) (by decide)]
  rfl

end MizanConnect.Proofs.Snaptrade
