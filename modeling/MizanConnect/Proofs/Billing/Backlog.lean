import MizanConnect.Proofs.Billing.Inbox

/-!
# `MizanConnect.Proofs.Billing.Backlog`: how fast the reports are generated

A worker tick takes at most five pending rows, the oldest first. While nothing fails and
no other job moves, `backlog_drains` says what any number of ticks leaves: five rows fewer
after each tick, until none is left. So a backlog of 1000 reports takes 200 ticks.

`Generated` relates the tables around a list of generated rows. `generated_of_draining`
follows a tick through its rows, and `generated_of_quiet` is the whole tick.
-/

set_option autoImplicit false

namespace MizanConnect.Proofs.Billing.Inbox

open MizanConnect.Billing.Reports
open MizanConnect.Proofs.Billing.MonthlyReports (execute_update markSucceeded_ok)
open Sql (Table)
open Transition (run run_cons_eq_some)

/-! ### Quiet ticks -/

/-- A step of the job `i` whose statement runs and is answered. -/
def quietStep (i : Nat) (x : Timestamp × Uuid) : Action := .step i (.run x.1 x.2 true)

/-- A tick from its start to its end, while nothing fails and no other job moves. -/
def QuietTick (display : DbError → String) (s s' : State) : Prop :=
  ∃ steps : List (Timestamp × Uuid),
    run (next display) s (.spawn .tick :: steps.map (quietStep s.jobs.length)) = some s' ∧
      s'.jobs[s.jobs.length]? = some (.tick .finished)

/-- A number of quiet ticks, one after the other. -/
def QuietTicks (display : DbError → String) : Nat → State → State → Prop
  | 0, s, s' => s' = s
  | n + 1, s, s' => ∃ m, QuietTick display s m ∧ QuietTicks display n m s'

def pendingRows (t : Table monthlyReports) : List MonthlyReport :=
  t.rows.filter (·.status = "pending")

/-! ### Generated rows -/

/-- The row has been generated. -/
def GeneratedAs (r r' : MonthlyReport) : Prop :=
  ∃ now, r' = succeededRow now (ownText r) "placeholder-stub" 0 r

/-- The rows with these ids have been generated, and the others are as they were. -/
def Generated (ids : List Uuid) (t t' : Table monthlyReports) : Prop :=
  List.Forall₂ (fun r r' => (r.id ∈ ids ∧ GeneratedAs r r') ∨ (r.id ∉ ids ∧ r' = r))
    t.rows t'.rows

section
variable {display : DbError → String} {s s' : State} {i : Nat} {t t' t'' : Table monthlyReports}

theorem generated_nil (t : Table monthlyReports) : Generated [] t t :=
  List.forall₂_same.mpr fun _ _ => Or.inr ⟨List.not_mem_nil, rfl⟩

/-- One row, and then others. -/
theorem Generated.cons {row : MonthlyReport} {ids : List Uuid} (hrow : row ∈ t.rows)
    (hnew : row.id ∉ ids) {now : Timestamp}
    (hwrite : markSucceeded t now row.id (placeholderSummary (monthLabel row) row.userId)
      "placeholder-stub" 0 = .ok t')
    (h : Generated ids t' t'') : Generated (row.id :: ids) t t'' := by
  have hrows := updated_rows (f := succeededRow now _ "placeholder-stub" 0)
    (fun r => ⟨rfl, rfl, rfl, rfl⟩) hwrite
  unfold Generated at h
  rw [hrows, List.forall₂_map_left_iff] at h
  refine ((List.forall₂_and_left _ _).mpr ⟨fun r hr => hr, h⟩).imp ?_
  rintro r r'' ⟨hr, hgenerated⟩
  by_cases hid : r.id = row.id
  · -- The later rows are others, so the row stays as the first write has left it.
    cases t.eq_of_key hr hrow hid
    rw [if_pos rfl] at hgenerated
    rcases hgenerated with ⟨hmem, -⟩ | ⟨-, rfl⟩
    · exact absurd hmem hnew
    · exact Or.inl ⟨List.mem_cons_self, now, rfl⟩
  · rw [if_neg hid] at hgenerated
    rcases hgenerated with ⟨hmem, hdone⟩ | ⟨hmem, rfl⟩
    · exact Or.inl ⟨List.mem_cons_of_mem _ hmem, hdone⟩
    · exact Or.inr ⟨fun h => (List.mem_cons.mp h).elim hid hmem, rfl⟩

/-! ### One tick -/

theorem next_draining_nil (x : Timestamp × Uuid)
    (hi : s.jobs[i]? = some (.tick (.draining []))) :
    next display s (quietStep i x) = some (s.put i (.tick .finished) s.reports) := by
  simp [quietStep, next, hi, State.stepTick]

/-- The service with a row handed to `generate_one`. -/
def handOver (s : State) (i : Nat) (row : MonthlyReport) (rest : List MonthlyReport) : State :=
  { s.put i (.tick (.generating row rest)) s.reports with handed := s.handed ++ [row.id] }

theorem next_draining_cons (x : Timestamp × Uuid) {row : MonthlyReport}
    {rest : List MonthlyReport} (hi : s.jobs[i]? = some (.tick (.draining (row :: rest)))) :
    next display s (quietStep i x) = some (handOver s i row rest) := by
  simp [quietStep, next, hi, State.stepTick, handOver]

/-- A statement that runs and is answered takes effect. -/
theorem next_generating (display : DbError → String) (x : Timestamp × Uuid)
    {row : MonthlyReport} {rest : List MonthlyReport}
    (hi : s.jobs[i]? = some (.tick (.generating row rest))) :
    ∃ t', markSucceeded s.reports x.1 row.id (placeholderSummary (monthLabel row) row.userId)
        "placeholder-stub" 0 = .ok t' ∧
      next display s (quietStep i x) = some (s.put i (.tick (.draining rest)) t') := by
  obtain ⟨t', ht'⟩ := markSucceeded_ok s.reports x.1 row.id
    (placeholderSummary (monthLabel row) row.userId)
  refine ⟨t', ht', ?_⟩
  simp [quietStep, next, hi, State.stepTick, Attempt.execute, ht', Except.map]

theorem next_finished (x : Timestamp × Uuid) (hi : s.jobs[i]? = some (.tick .finished)) :
    next display s (quietStep i x) = none := by
  simp [quietStep, next, hi, State.stepTick]

theorem jobs_put {job : Job} (hi : i < s.jobs.length) : (s.put i job t).jobs[i]? = some job :=
  List.getElem?_set_self hi

theorem jobs_handOver {row : MonthlyReport} {rest : List MonthlyReport} (hi : i < s.jobs.length) :
    (handOver s i row rest).jobs[i]? = some (.tick (.generating row rest)) :=
  List.getElem?_set_self hi

/-- The two steps of a row: it is handed over, and generated. -/
theorem run_row (display : DbError → String) (x y : Timestamp × Uuid)
    {row : MonthlyReport} {rest : List MonthlyReport}
    (hi : s.jobs[i]? = some (.tick (.draining (row :: rest)))) :
    ∃ t', markSucceeded s.reports y.1 row.id (placeholderSummary (monthLabel row) row.userId)
        "placeholder-stub" 0 = .ok t' ∧
      run (next display) s [quietStep i x, quietStep i y] =
        some ((handOver s i row rest).put i (.tick (.draining rest)) t') := by
  have hlt := (List.getElem?_eq_some_iff.mp hi).1
  obtain ⟨t', hwrite, hstep⟩ := next_generating display y (jobs_handOver hlt)
  exact ⟨t', hwrite, run_cons_eq_some.mpr ⟨_, next_draining_cons x hi,
    run_cons_eq_some.mpr ⟨_, hstep, rfl⟩⟩⟩

/-- The rows that a tick has not come to stay as they are. -/
theorem mem_of_markSucceeded {row r : MonthlyReport} {now : Timestamp} {summary : String}
    (hwrite : markSucceeded t now row.id summary "placeholder-stub" 0 = .ok t') (hr : r ∈ t.rows)
    (hne : r.id ≠ row.id) : r ∈ t'.rows := by
  rw [updated_rows (f := succeededRow now summary "placeholder-stub" 0)
    (fun r => ⟨rfl, rfl, rfl, rfl⟩) hwrite]
  exact List.mem_map.mpr ⟨r, hr, if_neg hne⟩

/-- A tick from its rows to its end generates them. The induction is on the rows, and each
takes two steps. -/
theorem generated_of_draining (rows : List MonthlyReport) {steps : List (Timestamp × Uuid)}
    (hi : s.jobs[i]? = some (.tick (.draining rows))) (hrows : ∀ row ∈ rows, row ∈ s.reports.rows)
    (hnodup : (rows.map MonthlyReport.id).Nodup)
    (hrun : run (next display) s (steps.map (quietStep i)) = some s')
    (hend : s'.jobs[i]? = some (.tick .finished)) :
    Generated (rows.map MonthlyReport.id) s.reports s'.reports := by
  have hlt : i < s.jobs.length := (List.getElem?_eq_some_iff.mp hi).1
  induction rows generalizing s steps with
  | nil =>
    rcases steps with _ | ⟨x, steps⟩
    · cases hrun
      rw [hi] at hend
      cases hend
    · obtain ⟨m, hm, hrest⟩ := run_cons_eq_some.mp hrun
      rw [next_draining_nil x hi] at hm
      cases hm
      -- Nothing follows the end of the tick.
      rcases steps with _ | ⟨y, steps⟩
      · cases hrest
        exact generated_nil s.reports
      · obtain ⟨m, hm, -⟩ := run_cons_eq_some.mp hrest
        rw [next_finished y (jobs_put hlt)] at hm
        cases hm
  | cons row rest ih =>
    obtain ⟨hnew, hnodup⟩ := List.nodup_cons.mp hnodup
    rcases steps with _ | ⟨x, _ | ⟨y, steps⟩⟩
    · cases hrun
      rw [hi] at hend
      cases hend
    · obtain ⟨m, hm, hrest⟩ := run_cons_eq_some.mp hrun
      rw [next_draining_cons x hi] at hm
      cases hm
      cases hrest
      rw [jobs_handOver hlt] at hend
      cases hend
    · obtain ⟨t', hwrite, hboth⟩ := run_row display x y hi
      obtain ⟨m, hm, hrest⟩ := Transition.run_append.mp
        (show run (next display) s ([quietStep i x, quietStep i y] ++ steps.map (quietStep i))
          = some s' from hrun)
      cases hboth.symm.trans hm
      have hgenerated := ih (jobs_put (by simpa [handOver, State.put] using hlt))
        (fun r hr => mem_of_markSucceeded hwrite (hrows r (List.mem_cons_of_mem _ hr))
          fun heq => hnew (heq ▸ List.mem_map_of_mem hr)) hnodup hrest
        (by simpa [handOver, State.put] using hlt)
      exact hgenerated.cons (hrows row List.mem_cons_self) hnew hwrite

/-- Two steps for each row and a last one take a tick to its end. -/
theorem exists_finished (display : DbError → String) (x : Timestamp × Uuid)
    (rows : List MonthlyReport) (hi : s.jobs[i]? = some (.tick (.draining rows))) :
    ∃ (steps : List (Timestamp × Uuid)) (s' : State),
      run (next display) s (steps.map (quietStep i)) = some s' ∧
        s'.jobs[i]? = some (.tick .finished) := by
  have hlt : i < s.jobs.length := (List.getElem?_eq_some_iff.mp hi).1
  induction rows generalizing s with
  | nil => exact ⟨[x], _, run_cons_eq_some.mpr ⟨_, next_draining_nil x hi, rfl⟩, jobs_put hlt⟩
  | cons row rest ih =>
    obtain ⟨t', -, hboth⟩ := run_row display x x hi
    have hlt' : i < (handOver s i row rest).jobs.length := by
      simpa [handOver, State.put] using hlt
    obtain ⟨steps, s', hrun, hend⟩ := ih (jobs_put hlt')
      (by simpa [handOver, State.put] using hlt)
    exact ⟨x :: x :: steps, s', Transition.run_append.mpr ⟨_, hboth, hrun⟩, hend⟩

/-- The service when a new tick has read its rows. -/
def reading (s : State) : State :=
  { s with jobs := s.jobs ++ [.tick (.draining (fetchPending s.reports workerParallelism))] }

theorem next_fetching (display : DbError → String) (s : State) (x : Timestamp × Uuid) :
    next display { s with jobs := s.jobs ++ [Task.tick.start] } (quietStep s.jobs.length x) =
      some (reading s) := by
  simp [quietStep, next, Task.start, State.stepTick, Attempt.query, State.put, reading]

theorem jobs_reading (s : State) : (reading s).jobs[s.jobs.length]? =
    some (.tick (.draining (fetchPending s.reports workerParallelism))) := by
  simp [reading]

/-- A quiet tick generates the rows that it reads. -/
theorem generated_of_quiet (h : QuietTick display s s') :
    Generated ((fetchPending s.reports workerParallelism).map MonthlyReport.id) s.reports
      s'.reports := by
  obtain ⟨steps, hrun, hend⟩ := h
  obtain ⟨m, hm, hrest⟩ := run_cons_eq_some.mp hrun
  cases hm
  rcases steps with _ | ⟨x, steps⟩
  · cases hrest
    simp [Task.start] at hend
  · obtain ⟨m, hm, hrest⟩ := run_cons_eq_some.mp hrest
    rw [next_fetching] at hm
    cases hm
    have hnodup := MonthlyReports.nodup_fetched s (.run 0 ⟨0⟩ true)
    have hrows : ∀ row ∈ MonthlyReports.fetched s (.run 0 ⟨0⟩ true), row ∈ s.reports.rows :=
      fun row hrow => (MonthlyReports.mem_fetched hrow).1
    exact generated_of_draining (s := reading s) _ (jobs_reading s) hrows hnodup hrest hend

theorem exists_quietTick (display : DbError → String) (s : State) (x : Timestamp × Uuid) :
    ∃ s', QuietTick display s s' := by
  obtain ⟨steps, s', hrun, hend⟩ := exists_finished display x _ (jobs_reading s)
  exact ⟨s', x :: steps, run_cons_eq_some.mpr ⟨_, rfl, run_cons_eq_some.mpr
    ⟨_, next_fetching display s x, hrun⟩⟩, hend⟩

/-! ### What is left -/

/-- The pending rows, the oldest request first. -/
def backlog (t : Table monthlyReports) : List MonthlyReport :=
  (pendingRows t).insertionSort fun a b => a.requestedAt ≤ b.requestedAt

theorem backlog_oldest (t : Table monthlyReports) :
    (backlog t).Pairwise fun a b => a.requestedAt ≤ b.requestedAt := by
  have : Std.Total fun a b : MonthlyReport => a.requestedAt ≤ b.requestedAt :=
    ⟨fun a b => le_total a.requestedAt b.requestedAt⟩
  have : IsTrans MonthlyReport fun a b => a.requestedAt ≤ b.requestedAt :=
    ⟨fun _ _ _ => le_trans⟩
  exact List.pairwise_insertionSort _ _

theorem nodup_backlog (t : Table monthlyReports) :
    ((backlog t).map MonthlyReport.id).Nodup := by
  have hpending : ((pendingRows t).map MonthlyReport.id).Nodup :=
    List.Nodup.sublist (List.filter_sublist.map _) t.keys
  exact ((List.perm_insertionSort _ _).map _).nodup_iff.mpr hpending

/-- A generated row is not pending any more. -/
theorem pendingRows_generated {ids : List Uuid} (h : Generated ids t t') :
    pendingRows t' = (pendingRows t).filter (·.id ∉ ids) := by
  unfold Generated at h
  unfold pendingRows
  -- The induction is on the two lists of rows, which are in step.
  generalize t.rows = rows at h ⊢
  generalize t'.rows = rows' at h ⊢
  induction h with
  | nil => rfl
  | cons hrow _ ih =>
    rcases hrow with ⟨hmem, now, rfl⟩ | ⟨hmem, rfl⟩
    · rw [List.filter_cons_of_neg (by simp [succeededRow]), ih]
      simp only [List.filter_cons, List.filter_filter]
      split <;> simp [hmem]
    · simp only [List.filter_cons, ih]
      split <;> simp [hmem]

/-- The ids of the first rows are not those of the rest. -/
theorem filter_take_drop {rows : List MonthlyReport} (k : Nat)
    (h : (rows.map MonthlyReport.id).Nodup) :
    rows.filter (·.id ∉ (rows.take k).map MonthlyReport.id) = rows.drop k := by
  have happart : ∀ r ∈ rows.drop k, r.id ∉ (rows.take k).map MonthlyReport.id := by
    rw [← List.take_append_drop k rows, List.map_append] at h
    exact fun r hr hmem => List.disjoint_of_nodup_append h hmem (List.mem_map_of_mem hr)
  conv => lhs; rw [← List.take_append_drop k rows]
  rw [List.filter_append, List.filter_eq_nil_iff.mpr, List.filter_eq_self.mpr]
  · rfl
  · intro r hr
    rw [List.take_append_drop]
    simpa using happart r hr
  · intro r hr
    rw [List.take_append_drop, decide_eq_true_eq]
    exact not_not_intro (List.mem_map_of_mem hr)

/-- A tick takes the oldest rows of the backlog, and leaves the others. -/
theorem perm_left {k : Nat} (h : Generated ((fetchPending t k).map MonthlyReport.id) t t') :
    (pendingRows t').Perm ((backlog t).drop k) := by
  rw [pendingRows_generated h, ← filter_take_drop k (nodup_backlog t)]
  exact (List.perm_insertionSort _ _).symm.filter _

end

/-- The row is as it was, or it was pending and has been generated. -/
def Settled (r r' : MonthlyReport) : Prop := r' = r ∨ r.status = "pending" ∧ GeneratedAs r r'

/-- What a number of quiet ticks has done to the table. -/
structure Drained (n : Nat) (t t' : Table monthlyReports) : Prop where
  left : (pendingRows t').length = (pendingRows t).length - n * workerParallelism
  rows : List.Forall₂ Settled t.rows t'.rows
  still : ∀ r ∈ pendingRows t', r ∈ pendingRows t
  oldest : ∀ r ∈ pendingRows t, r ∉ pendingRows t' → ∀ r' ∈ pendingRows t',
    r.requestedAt ≤ r'.requestedAt

section
variable {t t' t'' : Table monthlyReports}

theorem Drained.refl (t : Table monthlyReports) : Drained 0 t t where
  left := by simp
  rows := List.forall₂_same.mpr fun _ _ => Or.inl rfl
  still := fun _ hr => hr
  oldest := fun _ hr hnot => absurd hr hnot

/-- One tick. -/
theorem drained_tick
    (h : Generated ((fetchPending t workerParallelism).map MonthlyReport.id) t t') :
    Drained 1 t t' := by
  have hleft := perm_left h
  have hsplit := List.take_append_drop workerParallelism (backlog t)
  refine ⟨?_, ?_, fun r hr => ?_, ?_⟩
  · rw [hleft.length_eq, List.length_drop, backlog, List.length_insertionSort, Nat.one_mul]
  · refine ((List.forall₂_and_left _ _).mpr ⟨fun r hr => hr, h⟩).imp ?_
    rintro r r' ⟨hr, ⟨hmem, hdone⟩ | ⟨-, hsame⟩⟩
    · -- The row with the id of a fetched row is that row.
      obtain ⟨row, hrow, hid⟩ := List.mem_map.mp hmem
      obtain ⟨hstored, hpending⟩ := List.mem_filter.mp
        ((List.mem_insertionSort _).mp (List.mem_of_mem_take hrow))
      cases t.eq_of_key hr hstored hid.symm
      exact Or.inr ⟨of_decide_eq_true hpending, hdone⟩
    · exact Or.inl hsame
  · rw [pendingRows_generated h] at hr
    exact List.mem_of_mem_filter hr
  · -- What is left comes after what was fetched in the order of the backlog.
    intro r hr hnot r' hr'
    have holdest := backlog_oldest t
    rw [← hsplit] at holdest
    refine (List.pairwise_append.mp holdest).2.2 r ?_ r' (hleft.mem_iff.mp hr')
    have hmem : r ∈ backlog t := (List.mem_insertionSort _).mpr hr
    rw [← hsplit] at hmem
    exact (List.mem_append.mp hmem).resolve_right fun hdrop => hnot (hleft.mem_iff.mpr hdrop)

/-- Two parts, one after the other. -/
theorem Settled.trans {rows rows' rows'' : List MonthlyReport}
    (h : List.Forall₂ Settled rows rows') (h' : List.Forall₂ Settled rows' rows'') :
    List.Forall₂ Settled rows rows'' := by
  induction h generalizing rows'' with
  | nil => exact h'
  | cons hrow _ ih =>
    cases h' with
    | cons hrow' hrest =>
      refine List.Forall₂.cons ?_ (ih hrest)
      rcases hrow with rfl | ⟨hpending, now, rfl⟩
      · exact hrow'
      · -- A generated row is not generated again.
        rcases hrow' with rfl | ⟨hagain, -⟩
        · exact Or.inr ⟨hpending, now, rfl⟩
        · simp [succeededRow] at hagain

theorem Drained.trans {k n : Nat} (h : Drained k t t') (h' : Drained n t' t'') :
    Drained (n + k) t t'' where
  left := by
    rw [h'.left, h.left, Nat.add_mul]
    omega
  rows := Settled.trans h.rows h'.rows
  still := fun r hr => h.still r (h'.still r hr)
  oldest := by
    intro r hr hnot r' hr'
    -- The row was generated in the second part or in the first.
    by_cases hfirst : r ∈ pendingRows t'
    · exact h'.oldest r hfirst hnot r' hr'
    · exact h.oldest r hr hfirst r' (h'.still r' hr')

/-- Quiet ticks can always be taken, and each of them makes the backlog five rows smaller,
until it is empty. They generate the rows that were requested first, each with the text of
its own user and month, and leave every other row as it was. -/
theorem backlog_drains (display : DbError → String) (n : Nat) (s : State) :
    (∃ s', QuietTicks display n s s') ∧
      ∀ s', QuietTicks display n s s' → Drained n s.reports s'.reports := by
  induction n generalizing s with
  | zero =>
    refine ⟨⟨s, rfl⟩, ?_⟩
    rintro s' rfl
    exact Drained.refl _
  | succ n ih =>
    constructor
    · obtain ⟨m, hm⟩ := exists_quietTick display s (0, ⟨0⟩)
      obtain ⟨s', hs'⟩ := (ih m).1
      exact ⟨s', m, hm, hs'⟩
    · rintro s' ⟨m, hm, hrest⟩
      exact (drained_tick (generated_of_quiet hm)).trans ((ih m).2 s' hrest)

end

end MizanConnect.Proofs.Billing.Inbox
