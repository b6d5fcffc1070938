import MizanConnect.Billing.ReportsCron

/-!
# `MizanConnect.Proofs.Billing.MonthlyReports`: a report is generated once

A tick reads the pending rows without claiming them, and `mark_failed` does
not look at the status it overwrites. So two ticks can generate one row, and
a report that succeeded can end as failed (`overlapping_ticks`).

`Orderly` is what keeps this from happening. A tick fetches no row that
another tick still has in its list or that was handed to `generate_one`
before, and `mark_failed` takes effect on no succeeded row. Under it, no two
ticks hold one row (`Inv.apart`), and a row that a tick has not written yet is
pending (`JobOk.pending`). `Moved` says once what each step does, and
`monthly_reports` follows by the induction over the run.

`orderly_of_undisturbed` says what makes a run orderly: no two ticks overlap
on a row, every status write is answered as it ends, and no tick dies in
`generate_one`.
-/

set_option autoImplicit false

namespace MizanConnect.Proofs.Billing.MonthlyReports

open MizanConnect.Billing.Reports
open Sql (Table)
open Transition (run Along getElem?_set_cases getElem?_concat_cases)

/-! ### What a tick holds -/

/-- The rows of a tick that `generate_one` was not called with yet. -/
def queued : Job → List Uuid
  | .tick (.draining rows) => rows.map (·.id)
  | .tick (.generating _ rest) => rest.map (·.id)
  | .tick (.failing _ _ rest) => rest.map (·.id)
  | _ => []

/-- The row in `generate_one`. -/
def current : Job → Option Uuid
  | .tick (.generating row _) => some row.id
  | .tick (.failing row _ _) => some row.id
  | _ => none

/-- The rows of a tick whose status it has not tried to write. -/
def unwritten : Job → List Uuid
  | .tick (.generating row rest) => row.id :: rest.map (·.id)
  | job => queued job

/-- The rows of a tick. -/
def held (job : Job) : List Uuid := (current job).toList ++ queued job

/-- The rows that a fetch answers with. -/
def fetched (s : State) (attempt : Attempt) : List MonthlyReport :=
  (attempt.query (fetchPending s.reports workerParallelism)).toOption.getD []

/-- The condition on a step of a job. -/
def OrderlyJob (s : State) (attempt : Attempt) : Option Job → Prop
  | some (.tick .fetching) =>
    ∀ row ∈ fetched s attempt, row.id ∉ s.handed ∧ ∀ job ∈ s.jobs, row.id ∉ queued job
  | some (.tick (.failing row _ _)) =>
    attempt ≠ .lost → ∀ r ∈ s.reports.rows, r.id = row.id → r.status ≠ "succeeded"
  | _ => True

/-- No fetch returns a row that is in the list of a tick or was handed to
`generate_one` before, and no `mark_failed` takes effect on a succeeded row. -/
def Orderly (s : State) : Action → Prop
  | .step i attempt => OrderlyJob s attempt s.jobs[i]?
  | _ => True

/-! ### What a step does -/

/-- The table, or the table with one new pending row. -/
def Grown (t t' : Table monthlyReports) : Prop :=
  t' = t ∨ ∃ r, t'.rows = t.rows ++ [r] ∧ r.status = "pending"

/-- What a step does. `idle` is every step after which the job holds no row:
those of the enqueue jobs and of the requests, the end of a tick, and a
drop. -/
inductive Moved (s : State) : Action → State → Prop where
  | spawn (task : Task) : Moved s (.spawn task) { s with jobs := s.jobs ++ [task.start] }
  | subscribe (subscriptions : Table Billing.Subscriptions.afterMigrations) :
    Moved s (.subscribe subscriptions) { s with subscriptions }
  | idle (a : Action) (i : Nat) (job job' : Job) (reports : Table monthlyReports)
    (hi : s.jobs[i]? = some job) (hcurrent : a = .drop i ∨ current job = none)
    (hheld : held job' = []) (hreports : Grown s.reports reports) :
    Moved s a (s.put i job' reports)
  | fetched (i : Nat) (attempt : Attempt) (hi : s.jobs[i]? = some (.tick .fetching)) :
    Moved s (.step i attempt) (s.put i (.tick (.draining (fetched s attempt))) s.reports)
  | handed (i : Nat) (attempt : Attempt) (row : MonthlyReport) (rest : List MonthlyReport)
    (hi : s.jobs[i]? = some (.tick (.draining (row :: rest)))) :
    Moved s (.step i attempt)
      { s.put i (.tick (.generating row rest)) s.reports with handed := s.handed ++ [row.id] }
  | succeeded (i : Nat) (attempt : Attempt) (row : MonthlyReport) (rest : List MonthlyReport)
    (reports : Table monthlyReports) (now : Timestamp) (summary : String)
    (hi : s.jobs[i]? = some (.tick (.generating row rest)))
    (hwrite : markSucceeded s.reports now row.id summary "placeholder-stub" 0 = .ok reports) :
    Moved s (.step i attempt) (s.put i (.tick (.draining rest)) reports)
  | unanswered (i : Nat) (attempt : Attempt) (row : MonthlyReport) (reason : String)
    (rest : List MonthlyReport) (reports : Table monthlyReports)
    (hi : s.jobs[i]? = some (.tick (.generating row rest)))
    (hreports : reports = s.reports ∨ ∃ now newId summary, attempt = .run now newId false ∧
      markSucceeded s.reports now row.id summary "placeholder-stub" 0 = .ok reports) :
    Moved s (.step i attempt) (s.put i (.tick (.failing row reason rest)) reports)
  | failed (i : Nat) (attempt : Attempt) (row : MonthlyReport) (reason : String)
    (rest : List MonthlyReport) (reports : Table monthlyReports)
    (hi : s.jobs[i]? = some (.tick (.failing row reason rest)))
    (hreports : attempt = .lost ∧ reports = s.reports ∨ attempt ≠ .lost ∧ ∃ now,
      markFailed s.reports now row.id reason = .ok reports) :
    Moved s (.step i attempt) (s.put i (.tick (.draining rest)) reports)

section
variable {display : DbError → String} {s s' : State} {a : Action} {i : Nat} {attempt : Attempt}

/-- `enqueue_pending` leaves the table or adds a pending row. -/
theorem enqueuePending_grown {t t' : Table monthlyReports} {now : Timestamp}
    {newId userId : Uuid} {periodStart periodEnd : Calendar.Date} {inserted : Bool}
    (h : enqueuePending t now newId userId periodStart periodEnd = .ok (t', inserted)) :
    Grown t t' := by
  unfold enqueuePending at h
  split at h
  · cases h
    exact Or.inl rfl
  · unfold Except.map at h
    split at h
    · cases h
    · rename_i hinsert
      cases h
      exact Or.inr ⟨_, (Table.insert_rows hinsert).1, rfl⟩

/-- So does the statement, whatever happens to it. -/
theorem execute_grown (attempt : Attempt) (t : Table monthlyReports) (userId : Uuid)
    (periodStart periodEnd : Calendar.Date) :
    Grown t (attempt.execute t fun now newId =>
      enqueuePending t now newId userId periodStart periodEnd).2 := by
  rcases Attempt.execute_cases attempt t fun now newId =>
      enqueuePending t now newId userId periodStart periodEnd with
    ⟨-, heq⟩ | ⟨now, newId, v, -, heq⟩ | ⟨now, newId, acknowledged, t', inserted, -, hok, heq⟩
  · exact Or.inl (congrArg Prod.snd heq)
  · exact Or.inl (congrArg Prod.snd heq)
  · rw [heq]
    exact enqueuePending_grown hok

/-- Two rows clash when they are of one user and one period. -/
theorem clash_iff {a b : MonthlyReport} : monthlyReports.clash a b = true ↔
    a.userId = b.userId ∧ a.periodStart = b.periodStart := by
  show Sql.uniqueOn (fun r : MonthlyReport => some (r.userId, r.periodStart)) a b = true ↔ _
  rw [Sql.uniqueOn_iff]
  simp [eq_comm]

/-- A new version of the rows with an id meets the constraints. -/
theorem update_ok {t : Table monthlyReports} {id : Uuid} {f : MonthlyReport → MonthlyReport}
    (hkey : ∀ r, (f r).id = r.id)
    (hperiod : ∀ r, (f r).userId = r.userId ∧ (f r).periodStart = r.periodStart)
    (hvalid : ∀ r ∈ t.rows, monthlyReports.violation (f r) = none) :
    ∃ t', t.updateWhere (·.id = id) f = .ok t' := by
  -- The UPDATE has one row, whose period it keeps, or none.
  by_cases hmem : ∃ r ∈ t.rows, r.id = id
  · obtain ⟨r, hr, rfl⟩ := hmem
    have hone : t.updated (fun x => x.id = r.id) f = [f r] := t.updated_key hr f
    rw [Table.updateWhere, hone]
    refine t.write_version_ok hr (hkey r).symm (hvalid r hr) ?_
    intro x hx
    rw [clash_iff] at hx ⊢
    rw [← (hperiod r).1, ← (hperiod r).2]
    exact hx
  · have hnone : t.updated (fun x => x.id = id) f = [] := by
      simp only [Table.updated, List.map_eq_nil_iff, List.filter_eq_nil_iff, decide_eq_true_eq]
      exact fun r hr hid => hmem ⟨r, hr, hid⟩
    rw [Table.updateWhere, hnone]
    exact ⟨t, t.write_nil⟩

/-- The credits of a stored row fit their column. -/
theorem credits_of_mem {t : Table monthlyReports} {r : MonthlyReport} (hr : r ∈ t.rows) :
    isI32 r.creditsCharged = true := by
  have hvalid := t.admitted r hr
  simp only [monthlyReports] at hvalid
  split at hvalid
  · cases hvalid
  · rename_i hcredits
    simpa using hcredits

/-- `mark_succeeded` breaks no constraint. -/
theorem markSucceeded_ok (t : Table monthlyReports) (now : Timestamp) (id : Uuid)
    (summary : String) : ∃ t', markSucceeded t now id summary "placeholder-stub" 0 = .ok t' :=
  update_ok (fun _ => rfl) (fun _ => ⟨rfl, rfl⟩) fun _ _ => rfl

/-- `mark_failed` breaks no constraint. -/
theorem markFailed_ok (t : Table monthlyReports) (now : Timestamp) (id : Uuid)
    (reason : String) : ∃ t', markFailed t now id reason = .ok t' := by
  refine update_ok (f := failedRow now reason) (fun _ => rfl) (fun _ => ⟨rfl, rfl⟩) fun r hr => ?_
  have hcredits := credits_of_mem hr
  simp [monthlyReports, failedRow, hcredits]

/-- An UPDATE that breaks no constraint is lost, or takes effect. -/
theorem execute_update (attempt : Attempt) (t : Table monthlyReports)
    (statement : Timestamp → Except Sql.Violation (Table monthlyReports))
    (hok : ∀ now, ∃ t', statement now = .ok t') :
    (attempt = .lost ∧ attempt.execute t (fun now _ => (statement now).map fun t => (t, ()))
      = (.error .connection, t)) ∨
    ∃ now newId acknowledged t', attempt = .run now newId acknowledged ∧
      statement now = .ok t' ∧ attempt.execute t (fun now _ => (statement now).map fun t => (t, ()))
        = (if acknowledged then .ok () else .error .connection, t') := by
  rcases Attempt.execute_cases attempt t fun now _ => (statement now).map fun t => (t, ()) with
    hlost | ⟨now, newId, v, hv, -⟩ | ⟨now, newId, acknowledged, t', answer, hrun, hstatement, heq⟩
  · exact Or.inl hlost
  · obtain ⟨t', ht'⟩ := hok now
    rw [ht'] at hv
    cases hv
  · exact Or.inr ⟨now, newId, acknowledged, t', hrun, map_unit_eq_ok hstatement, heq⟩

/-- A step of an enqueue job. -/
theorem moved_of_enqueue {today : Calendar.Date} {phase : EnqueuePhase}
    (hi : s.jobs[i]? = some (.enqueue today phase))
    (h : s.stepEnqueue i attempt today phase = some s') : Moved s (.step i attempt) s' := by
  cases phase with
  | starting =>
    simp only [State.stepEnqueue] at h
    split at h <;> cases h <;> exact .idle _ i _ _ _ hi (Or.inr rfl) rfl (Or.inl rfl)
  | enqueuing users =>
    -- One user after the other, until none is left.
    cases users with
    | nil =>
      cases h
      exact .idle _ i _ _ _ hi (Or.inr rfl) rfl (Or.inl rfl)
    | cons userId users =>
      cases h
      exact .idle _ i _ _ _ hi (Or.inr rfl) rfl (execute_grown attempt s.reports userId _ _)
  | finished => cases h

/-- A step of a request. -/
theorem moved_of_request {userId : Uuid} {today : Calendar.Date} {phase : RequestPhase}
    (hi : s.jobs[i]? = some (.request userId today phase))
    (h : s.stepRequest i attempt userId today phase = some s') :
    Moved s (.step i attempt) s' := by
  cases phase with
  | enqueuing =>
    simp only [State.stepRequest] at h
    split at h <;> cases h <;>
      exact .idle _ i _ _ _ hi (Or.inr rfl) rfl (execute_grown attempt s.reports userId _ _)
  | reading inserted =>
    cases h
    exact .idle _ i _ _ _ hi (Or.inr rfl) rfl (Or.inl rfl)
  | finished result => cases h

/-- A step of a tick. -/
theorem moved_of_tick {phase : TickPhase} (hi : s.jobs[i]? = some (.tick phase))
    (h : s.stepTick display i attempt phase = some s') : Moved s (.step i attempt) s' := by
  cases phase with
  | fetching =>
    simp only [State.stepTick] at h
    cases hquery : attempt.query (fetchPending s.reports workerParallelism) with
    | error e =>
      rw [hquery] at h
      cases h
      exact .idle _ i _ _ _ hi (Or.inr rfl) rfl (Or.inl rfl)
    | ok rows =>
      rw [hquery] at h
      cases h
      have hrows : rows = fetched s attempt := by rw [fetched, hquery]; rfl
      rw [hrows]
      exact .fetched i attempt hi
  | draining rows =>
    cases rows with
    | nil =>
      cases h
      exact .idle _ i _ _ _ hi (Or.inr rfl) rfl (Or.inl rfl)
    | cons row rest =>
      cases h
      exact .handed i attempt row rest hi
  | generating row rest =>
    simp only [State.stepTick] at h
    -- The tick goes on by the answer, and the table by the effect.
    rcases execute_update attempt s.reports _ fun now => markSucceeded_ok s.reports now row.id
        (placeholderSummary (monthLabel row) row.userId) with
      ⟨-, heq⟩ | ⟨now, newId, acknowledged, reports, hrun, hwrite, heq⟩
    · rw [heq] at h
      cases h
      exact .unanswered i attempt row _ rest _ hi (Or.inl rfl)
    · rw [heq] at h
      cases acknowledged with
      | true =>
        cases h
        exact .succeeded i attempt row rest reports now _ hi hwrite
      | false =>
        cases h
        exact .unanswered i attempt row _ rest reports hi
          (Or.inr ⟨now, newId, _, hrun, hwrite⟩)
  | failing row reason rest =>
    simp only [State.stepTick] at h
    rcases execute_update attempt s.reports _ fun now =>
        markFailed_ok s.reports now row.id reason with
      ⟨hlost, heq⟩ | ⟨now, newId, acknowledged, reports, hrun, hwrite, heq⟩
    · rw [heq] at h
      cases h
      exact .failed i attempt row reason rest _ hi (Or.inl ⟨hlost, rfl⟩)
    · rw [heq] at h
      cases h
      refine .failed i attempt row reason rest reports hi (Or.inr ⟨?_, now, hwrite⟩)
      rw [hrun]
      exact nofun
  | finished => cases h

/-- Every step is one of them. -/
theorem moved_of_next (h : next display s a = some s') : Moved s a s' := by
  cases a with
  | spawn task =>
    cases h
    exact .spawn task
  | step i attempt =>
    simp only [next, bind, Option.bind_eq_some_iff] at h
    obtain ⟨job, hi, h⟩ := h
    cases job with
    | enqueue today phase => exact moved_of_enqueue hi h
    | request userId today phase => exact moved_of_request hi h
    | tick phase => exact moved_of_tick hi h
  | drop i =>
    simp only [next, bind, Option.bind_eq_some_iff, pure, Option.some.injEq] at h
    obtain ⟨job, hi, rfl⟩ := h
    refine .idle _ i job _ _ hi (Or.inl rfl) ?_ (Or.inl rfl)
    cases job <;> rfl
  | subscribe subscriptions =>
    cases h
    exact .subscribe subscriptions

/-! ### The invariant -/

/-- A tick that holds each of its rows once. It has handed over its current
row and none of its queued ones, and the rows that it has not written are
pending. -/
structure JobOk (handed : List Uuid) (t : Table monthlyReports) (job : Job) : Prop where
  nodup : (held job).Nodup
  current : ∀ id, current job = some id → id ∈ handed
  queued : ∀ id ∈ queued job, id ∉ handed
  pending : ∀ id ∈ unwritten job, ∀ r ∈ t.rows, r.id = id → r.status = "pending"

/-- The invariant: no row was handed over twice, and no two ticks hold one. -/
structure Inv (s : State) : Prop where
  handed : s.handed.Nodup
  ok : ∀ job ∈ s.jobs, JobOk s.handed s.reports job
  apart : ∀ (i k : Nat) a b, i ≠ k → s.jobs[i]? = some a → s.jobs[k]? = some b →
    ∀ id ∈ held a, id ∉ held b

/-- The row `id` aside, the tables have the same rows. -/
def SameBeside (id : Uuid) (t t' : Table monthlyReports) : Prop :=
  ∀ r : MonthlyReport, r.id ≠ id → (r ∈ t'.rows ↔ r ∈ t.rows)

variable {job job' : Job} {t t' : Table monthlyReports} {handed : List Uuid} {id : Uuid}

theorem unwritten_subset (h : id ∈ unwritten job) : id ∈ held job := by
  unfold unwritten at h
  unfold held
  split at h
  · exact h
  · exact List.mem_append_right _ h

/-- An UPDATE of one row that keeps its id. -/
theorem sameBeside_update {f : MonthlyReport → MonthlyReport} (hf : ∀ r, (f r).id = r.id)
    (h : t.updateWhere (·.id = id) f = .ok t') : SameBeside id t t' := by
  intro r hr
  have hrows := Table.write_updated_rows (S := monthlyReports) hf h
  rw [hrows, List.mem_map]
  constructor
  · rintro ⟨x, hx, hxr⟩
    by_cases hid : x.id = id
    · rw [if_pos (by simpa using hid)] at hxr
      rw [← hxr, hf] at hr
      exact absurd hid hr
    · rw [if_neg (by simpa using hid)] at hxr
      exact hxr ▸ hx
  · intro hmem
    exact ⟨r, hmem, if_neg (by simpa using hr)⟩

/-- A job without rows. -/
theorem jobOk_of_idle (hheld : held job = []) : JobOk handed t job where
  nodup := by
    rw [hheld]
    exact List.nodup_nil
  current id hid := by
    rw [held, hid] at hheld
    cases hheld
  queued id hid := by
    have hmem : id ∈ held job := List.mem_append_right _ hid
    rw [hheld] at hmem
    cases hmem
  pending id hid := by
    have hmem := unwritten_subset hid
    rw [hheld] at hmem
    cases hmem

/-- A new row is pending. -/
theorem JobOk.grown (h : JobOk handed t job) (hgrown : Grown t t') : JobOk handed t' job := by
  rcases hgrown with rfl | ⟨new, hrows, hnew⟩
  · exact h
  · refine ⟨h.nodup, h.current, h.queued, ?_⟩
    intro id hid r hr hrid
    rw [hrows] at hr
    rcases List.mem_append.mp hr with hr | hr
    · exact h.pending id hid r hr hrid
    · rw [List.mem_singleton.mp hr]
      exact hnew

/-- The status of a row that the job does not wait for. -/
theorem JobOk.sameBeside (h : JobOk handed t job) (hsame : SameBeside id t t')
    (hid : id ∉ held job) : JobOk handed t' job := by
  refine ⟨h.nodup, h.current, h.queued, ?_⟩
  intro id' hid' r hr hrid
  -- The row that changed is of another job.
  have hne : r.id ≠ id := by
    rintro rfl
    exact hid (hrid ▸ unwritten_subset hid')
  exact h.pending id' hid' r ((hsame r hne).mp hr) hrid

/-- One job is replaced. -/
theorem Inv.put (h : Inv s) (hi : s.jobs[i]? = some job) (hhanded : handed.Nodup)
    (hok : JobOk handed t job')
    (hothers : ∀ (k : Nat) other, k ≠ i → s.jobs[k]? = some other →
      JobOk handed t other ∧ ∀ id ∈ held job', id ∉ held other) :
    Inv { s.put i job' t with handed } where
  handed := hhanded
  ok x hx := by
    obtain ⟨k, hk⟩ := List.mem_iff_getElem?.mp hx
    rcases getElem?_set_cases hi hk with ⟨-, rfl⟩ | ⟨hne, hk⟩
    · exact hok
    · exact (hothers k x hne hk).1
  apart j k a b hjk ha hb := by
    -- Of two jobs at most one is the new one.
    rcases getElem?_set_cases hi ha with ⟨rfl, rfl⟩ | ⟨hj, hold⟩
    · rcases getElem?_set_cases hi hb with ⟨rfl, -⟩ | ⟨hk, hb⟩
      · exact absurd rfl hjk
      · exact (hothers k b hk hb).2
    · rcases getElem?_set_cases hi hb with ⟨rfl, rfl⟩ | ⟨hk, hb⟩
      · exact fun id hid hid' => (hothers j a hj hold).2 id hid' hid
      · exact h.apart j k a b hjk hold hb

/-- The status of a row that the job `i` holds is written, and the job goes
on with rows that it held. -/
theorem Inv.write (h : Inv s) (hi : s.jobs[i]? = some job) (hid : id ∈ held job)
    (hsame : SameBeside id s.reports t) (hok : JobOk s.handed t job')
    (hsubset : ∀ id ∈ held job', id ∈ held job) : Inv (s.put i job' t) := by
  refine h.put hi h.handed hok ?_
  intro k other hne hk
  have hother := h.ok other (List.mem_of_getElem? hk)
  have hapart := h.apart i k job other (Ne.symm hne) hi hk
  exact ⟨hother.sameBeside hsame (hapart id hid), fun x hx => hapart x (hsubset x hx)⟩

/-- The rows of a table are what the table holds beside any row. -/
theorem sameBeside_refl (id : Uuid) (t : Table monthlyReports) : SameBeside id t t :=
  fun _ _ => Iff.rfl

theorem markSucceeded_sameBeside {now : Timestamp} {summary model : String} {credits : Int}
    (h : markSucceeded t now id summary model credits = .ok t') : SameBeside id t t' :=
  sameBeside_update (f := succeededRow now summary model credits) (fun _ => rfl) h

theorem markFailed_sameBeside {now : Timestamp} {reason : String}
    (h : markFailed t now id reason = .ok t') : SameBeside id t t' :=
  sameBeside_update (f := failedRow now reason) (fun _ => rfl) h

/-- A job starts. -/
theorem Inv.spawn (h : Inv s) (task : Task) : Inv { s with jobs := s.jobs ++ [task.start] } := by
  have hidle : held task.start = [] := by cases task <;> rfl
  refine ⟨h.handed, fun job hjob => ?_, fun j k a b hjk ha hb => ?_⟩
  · rcases List.mem_append.mp hjob with hjob | hjob
    · exact h.ok job hjob
    · rw [List.mem_singleton.mp hjob]
      exact jobOk_of_idle hidle
  · rcases getElem?_concat_cases ha with ha | ⟨hj, rfl⟩
    · rcases getElem?_concat_cases hb with hb | ⟨-, rfl⟩
      · exact h.apart j k a b hjk ha hb
      · simp [hidle]
    · simp [hidle]

/-- The rows that a fetch answers with are pending rows of the table. -/
theorem mem_fetched {row : MonthlyReport} (h : row ∈ fetched s attempt) :
    row ∈ s.reports.rows ∧ row.status = "pending" := by
  unfold fetched at h
  cases hquery : attempt.query (fetchPending s.reports workerParallelism) with
  | error e =>
    rw [hquery] at h
    cases h
  | ok rows =>
    rw [hquery, Attempt.query_eq_ok hquery] at h
    have hmem := (List.mem_insertionSort _).mp (List.mem_of_mem_take h)
    simpa using List.mem_filter.mp hmem

/-- They are different rows. -/
theorem nodup_fetched (s : State) (attempt : Attempt) :
    ((fetched s attempt).map (·.id)).Nodup := by
  unfold fetched
  cases hquery : attempt.query (fetchPending s.reports workerParallelism) with
  | error e => exact List.nodup_nil
  | ok rows =>
    have hkeys : (s.reports.rows.map (·.id)).Nodup := s.reports.keys
    have hpending : ((s.reports.rows.filter (·.status = "pending")).map (·.id)).Nodup :=
      hkeys.sublist (List.filter_sublist.map _)
    rw [Attempt.query_eq_ok hquery]
    have hsorted := ((List.perm_insertionSort (fun a b : MonthlyReport =>
      a.requestedAt ≤ b.requestedAt) _).map (·.id)).nodup_iff.mpr hpending
    exact hsorted.sublist ((List.take_sublist _ _).map _)

/-- A fetch of rows that nobody has. -/
theorem Inv.fetch (h : Inv s) (hi : s.jobs[i]? = some (.tick .fetching))
    (hfresh : ∀ row ∈ fetched s attempt, row.id ∉ s.handed ∧ ∀ job ∈ s.jobs, row.id ∉ queued job) :
    Inv (s.put i (.tick (.draining (fetched s attempt))) s.reports) := by
  refine h.put hi h.handed ⟨nodup_fetched s attempt, nofun, ?_, ?_⟩ ?_
  · intro id hid
    obtain ⟨row, hrow, rfl⟩ := List.mem_map.mp hid
    exact (hfresh row hrow).1
  · intro id hid r hr hrid
    obtain ⟨row, hrow, rfl⟩ := List.mem_map.mp hid
    obtain ⟨hmem, hpending⟩ := mem_fetched hrow
    rwa [s.reports.eq_of_key hr hmem hrid]
  · intro k other _ hk
    have hother := List.mem_of_getElem? hk
    refine ⟨h.ok other hother, ?_⟩
    intro id hid hheld
    obtain ⟨row, hrow, rfl⟩ := List.mem_map.mp hid
    obtain ⟨hnew, hqueues⟩ := hfresh row hrow
    -- Another job holds its current row, which was handed over, and its queue.
    rcases List.mem_append.mp hheld with hcurrent | hqueued
    · exact hnew ((h.ok other hother).current row.id (Option.mem_toList.mp hcurrent))
    · exact hqueues other hother hqueued

/-- The next row of a tick is handed over. -/
theorem Inv.hand {row : MonthlyReport} {rest : List MonthlyReport} (h : Inv s)
    (hi : s.jobs[i]? = some (.tick (.draining (row :: rest)))) :
    Inv { s.put i (.tick (.generating row rest)) s.reports with
      handed := s.handed ++ [row.id] } := by
  have hjob := h.ok _ (List.mem_of_getElem? hi)
  -- The row leaves the queue, so it is the first time.
  have hnew : row.id ∉ s.handed := hjob.queued row.id List.mem_cons_self
  have hrest : row.id ∉ rest.map (·.id) := (List.nodup_cons.mp hjob.nodup).1
  refine h.put hi ?_ ⟨hjob.nodup, ?_, ?_, hjob.pending⟩ ?_
  · refine List.nodup_append.mpr ⟨h.handed, List.nodup_singleton _, ?_⟩
    intro x hx y hy heq
    exact hnew (List.mem_singleton.mp hy ▸ heq ▸ hx)
  · intro id hid
    cases hid
    exact List.mem_append_right _ (List.mem_singleton.mpr rfl)
  · intro id hid hmem
    rcases List.mem_append.mp hmem with hmem | hmem
    · exact hjob.queued id (List.mem_cons_of_mem _ hid) hmem
    · exact hrest (List.mem_singleton.mp hmem ▸ hid)
  · intro k other hne hk
    have hother := h.ok other (List.mem_of_getElem? hk)
    have hapart := h.apart i k _ other (Ne.symm hne) hi hk
    refine ⟨⟨hother.nodup, ?_, ?_, hother.pending⟩, hapart⟩
    · exact fun id hid => List.mem_append_left _ (hother.current id hid)
    · intro id hid hmem
      rcases List.mem_append.mp hmem with hmem | hmem
      · exact hother.queued id hid hmem
      · refine hapart row.id List.mem_cons_self ?_
        exact List.mem_append_right _ (List.mem_singleton.mp hmem ▸ hid)

/-- The rows after the current one. -/
theorem jobOk_rest {row : MonthlyReport} {rest : List MonthlyReport} (h : JobOk handed t job)
    (hcurrent : current job = some row.id) (hqueued : queued job = rest.map (·.id))
    (hunwritten : ∀ id ∈ rest.map (·.id), id ∈ unwritten job)
    (hsame : SameBeside row.id t t') : JobOk handed t' (.tick (.draining rest)) := by
  have hnodup := h.nodup
  rw [held, hcurrent, hqueued] at hnodup
  obtain ⟨hrow, hrest⟩ := List.nodup_cons.mp hnodup
  refine ⟨hrest, nofun, fun id hid => h.queued id (hqueued ▸ hid), ?_⟩
  intro id hid r hr hrid
  have hne : r.id ≠ row.id := by
    rintro heq
    exact hrow (heq ▸ hrid ▸ hid)
  exact h.pending id (hunwritten id hid) r ((hsame r hne).mp hr) hrid

/-- Every orderly step keeps the invariant. -/
theorem inv_step (h : Inv s) (horderly : Orderly s a) (hnext : next display s a = some s') :
    Inv s' := by
  cases moved_of_next hnext with
  | spawn task => exact h.spawn task
  | subscribe subscriptions => exact ⟨h.handed, h.ok, h.apart⟩
  | idle _ i job job' reports hi hcurrent hheld hreports =>
    refine h.put hi h.handed (jobOk_of_idle hheld) ?_
    intro k other _ hk
    refine ⟨(h.ok other (List.mem_of_getElem? hk)).grown hreports, ?_⟩
    rw [hheld]
    exact nofun
  | fetched i attempt hi =>
    rw [Orderly, hi] at horderly
    exact h.fetch hi horderly
  | handed i attempt row rest hi => exact h.hand hi
  | succeeded i attempt row rest reports now summary hi hwrite =>
    have hok := h.ok _ (List.mem_of_getElem? hi)
    have hsame := markSucceeded_sameBeside hwrite
    have hrest := jobOk_rest hok rfl rfl (fun id hid => List.mem_cons_of_mem _ hid) hsame
    exact h.write hi List.mem_cons_self hsame hrest fun id hid => List.mem_cons_of_mem _ hid
  | unanswered i attempt row reason rest reports hi hreports =>
    have hok := h.ok _ (List.mem_of_getElem? hi)
    have hsame : SameBeside row.id s.reports reports := by
      rcases hreports with rfl | ⟨now, newId, summary, -, hwrite⟩
      · exact sameBeside_refl _ _
      · exact markSucceeded_sameBeside hwrite
    have hrest := jobOk_rest hok rfl rfl (fun id hid => List.mem_cons_of_mem _ hid) hsame
    exact h.write hi List.mem_cons_self hsame
      ⟨hok.nodup, hok.current, hok.queued, hrest.pending⟩ fun id hid => hid
  | failed i attempt row reason rest reports hi hreports =>
    have hok := h.ok _ (List.mem_of_getElem? hi)
    have hsame : SameBeside row.id s.reports reports := by
      rcases hreports with ⟨-, rfl⟩ | ⟨-, now, hwrite⟩
      · exact sameBeside_refl _ _
      · exact markFailed_sameBeside hwrite
    have hrest := jobOk_rest hok rfl rfl (fun id hid => hid) hsame
    exact h.write hi List.mem_cons_self hsame hrest fun id hid => List.mem_cons_of_mem _ hid

/-- The row that `generate_one` is about to write has not succeeded. -/
theorem not_current_of_succeeded {row r : MonthlyReport} {rest : List MonthlyReport} (h : Inv s)
    (hi : s.jobs[i]? = some (.tick (.generating row rest))) (hr : r ∈ s.reports.rows)
    (hstatus : r.status = "succeeded") : r.id ≠ row.id := by
  intro hid
  have hpending := (h.ok _ (List.mem_of_getElem? hi)).pending row.id List.mem_cons_self r hr hid
  exact absurd (hpending.symm.trans hstatus) (by decide)

/-- No orderly step changes a succeeded row. -/
theorem succeeded_step {r : MonthlyReport} (h : Inv s) (horderly : Orderly s a)
    (hnext : next display s a = some s') (hr : r ∈ s.reports.rows)
    (hstatus : r.status = "succeeded") : r ∈ s'.reports.rows := by
  cases moved_of_next hnext with
  | spawn task => exact hr
  | subscribe subscriptions => exact hr
  | idle _ i job job' reports hi hcurrent hheld hreports =>
    rcases hreports with rfl | ⟨new, hrows, -⟩
    · exact hr
    · show r ∈ reports.rows
      rw [hrows]
      exact List.mem_append_left _ hr
  | fetched i attempt hi => exact hr
  | handed i attempt row rest hi => exact hr
  | succeeded i attempt row rest reports now summary hi hwrite =>
    refine (markSucceeded_sameBeside hwrite r ?_).mpr hr
    exact not_current_of_succeeded h hi hr hstatus
  | unanswered i attempt row reason rest reports hi hreports =>
    rcases hreports with rfl | ⟨now, newId, summary, -, hwrite⟩
    · exact hr
    · refine (markSucceeded_sameBeside hwrite r ?_).mpr hr
      exact not_current_of_succeeded h hi hr hstatus
  | failed i attempt row reason rest reports hi hreports =>
    rcases hreports with ⟨-, rfl⟩ | ⟨hattempt, now, hwrite⟩
    · exact hr
    · rw [Orderly, hi] at horderly
      exact (markFailed_sameBeside hwrite r fun hid => horderly hattempt r hr hid hstatus).mpr hr

/-- No user has two reports for one period. -/
def OnePerPeriod (t : Table monthlyReports) : Prop :=
  ∀ a ∈ t.rows, ∀ b ∈ t.rows, a.userId = b.userId → a.periodStart = b.periodStart → a = b

theorem onePerPeriod (t : Table monthlyReports) : OnePerPeriod t := by
  intro a ha b hb huser hperiod
  exact t.eq_of_clash ha hb (clash_iff.mpr ⟨huser, hperiod⟩)

/-- Nothing is held at first. -/
theorem inv_init (reports : Table monthlyReports)
    (subscriptions : Table Billing.Subscriptions.afterMigrations) :
    Inv (State.init reports subscriptions) :=
  ⟨List.nodup_nil, by simp [State.init], by simp [State.init]⟩

/-- Every state after orderly steps has the invariant. -/
theorem inv_run {reports : Table monthlyReports}
    {subscriptions : Table Billing.Subscriptions.afterMigrations} {as : List Action}
    (horderly : Along (next display) Orderly (State.init reports subscriptions) as)
    (hrun : run (next display) (State.init reports subscriptions) as = some s) : Inv s :=
  Transition.run_invariant (fun _ _ _ hs hC hnext => inv_step hs hC hnext)
    (inv_init reports subscriptions) horderly hrun

/-! ### Ticks that are not disturbed -/

/-- The condition on a step of a job when nothing goes wrong. -/
def UndisturbedJob (s : State) (attempt : Attempt) : Option Job → Prop
  | some (.tick .fetching) => ∀ row ∈ fetched s attempt, ∀ job ∈ s.jobs, row.id ∉ held job
  | some (.tick (.generating _ _)) => ∀ now newId, attempt ≠ .run now newId false
  | some (.tick (.failing _ _ _)) => attempt ≠ .lost
  | _ => True

/-- No tick fetches a row that another tick holds, every `mark_succeeded` that
takes effect is answered, no `mark_failed` is lost, and no tick dies in
`generate_one`. -/
def Undisturbed (s : State) : Action → Prop
  | .step i attempt => UndisturbedJob s attempt s.jobs[i]?
  | .drop i => ∀ job, s.jobs[i]? = some job → current job = none
  | _ => True

/-- Rows stay, a status that was written is not taken back, and beside the rows
`ids` a row is as it was or new. -/
structure Advanced (ids : List Uuid) (t t' : Table monthlyReports) : Prop where
  kept : ∀ r ∈ t.rows, ∃ r' ∈ t'.rows, r'.id = r.id ∧ (r.status ≠ "pending" → r'.status ≠ "pending")
  beside : ∀ r ∈ t'.rows, r.id ∉ ids → r ∈ t.rows ∨ r.status = "pending"

/-- The rows of the ticks are stored, a row that waits for `mark_failed` is
pending, and a row that was handed over is in `generate_one` or has its
status. -/
structure Settled (s : State) : Prop where
  known : ∀ job ∈ s.jobs, ∀ id ∈ held job, ∃ r ∈ s.reports.rows, r.id = id
  failing : ∀ row reason rest, Job.tick (.failing row reason rest) ∈ s.jobs →
    ∀ r ∈ s.reports.rows, r.id = row.id → r.status = "pending"
  handed : ∀ id ∈ s.handed, (∃ job ∈ s.jobs, current job = some id) ∨
    ∃ r ∈ s.reports.rows, r.id = id ∧ r.status ≠ "pending"

theorem advanced_refl (ids : List Uuid) (t : Table monthlyReports) : Advanced ids t t :=
  ⟨fun r hr => ⟨r, hr, rfl, fun h => h⟩, fun _ hr _ => Or.inl hr⟩

theorem advanced_of_grown (ids : List Uuid) (h : Grown t t') : Advanced ids t t' := by
  rcases h with rfl | ⟨new, hrows, hnew⟩
  · exact advanced_refl ids t'
  · refine ⟨fun r hr => ⟨r, ?_, rfl, fun h => h⟩, fun r hr _ => ?_⟩
    · rw [hrows]
      exact List.mem_append_left _ hr
    · rw [hrows] at hr
      rcases List.mem_append.mp hr with hr | hr
      · exact Or.inl hr
      · rw [List.mem_singleton.mp hr]
        exact Or.inr hnew

/-- An UPDATE that writes a status. -/
theorem advanced_of_update {f : MonthlyReport → MonthlyReport} (hf : ∀ r, (f r).id = r.id)
    (hstatus : ∀ r, (f r).status ≠ "pending") (h : t.updateWhere (·.id = id) f = .ok t') :
    Advanced [id] t t' ∧ ∀ r ∈ t'.rows, r.id = id → r.status ≠ "pending" := by
  have hrows := Table.write_updated_rows (S := monthlyReports) hf h
  refine ⟨⟨fun r hr => ?_, fun r hr hother => ?_⟩, fun r hr hid => ?_⟩
  · by_cases hid : r.id = id
    · refine ⟨f r, ?_, hf r, fun _ => hstatus r⟩
      rw [hrows]
      exact List.mem_map.mpr ⟨r, hr, if_pos (by simpa using hid)⟩
    · refine ⟨r, ?_, rfl, fun h => h⟩
      exact (sameBeside_update hf h r hid).mpr hr
  · exact Or.inl ((sameBeside_update hf h r (by simpa using hother)).mp hr)
  · rw [hrows] at hr
    obtain ⟨x, -, rfl⟩ := List.mem_map.mp hr
    -- Every version with the id is a new one.
    split
    · exact hstatus x
    · rename_i hx
      rw [if_neg hx] at hid
      exact absurd hid (by simpa using hx)

/-- The table after `mark_succeeded`. -/
theorem advanced_of_succeeded {now : Timestamp} {summary model : String} {credits : Int}
    (h : markSucceeded t now id summary model credits = .ok t') :
    Advanced [id] t t' ∧ ∀ r ∈ t'.rows, r.id = id → r.status ≠ "pending" :=
  advanced_of_update (f := succeededRow now summary model credits) (fun _ => rfl)
    (fun _ => by simp [succeededRow]) h

/-- The table after `mark_failed`. -/
theorem advanced_of_failed {now : Timestamp} {reason : String}
    (h : markFailed t now id reason = .ok t') :
    Advanced [id] t t' ∧ ∀ r ∈ t'.rows, r.id = id → r.status ≠ "pending" :=
  advanced_of_update (f := failedRow now reason) (fun _ => rfl)
    (fun _ => by simp [failedRow]) h

/-- One job is replaced, and its current row stays current or has its
status. -/
theorem Settled.put (h : Settled s) (hinv : Inv s) (hi : s.jobs[i]? = some job)
    (hadvanced : Advanced (held job) s.reports t)
    (hheld : ∀ id ∈ held job', ∃ r ∈ s.reports.rows, r.id = id)
    (hcurrent : ∀ id, current job = some id → current job' = some id ∨
      ∃ r ∈ t.rows, r.id = id ∧ r.status ≠ "pending")
    (hfailing : ∀ row reason rest, job' = .tick (.failing row reason rest) →
      ∀ r ∈ t.rows, r.id = row.id → r.status = "pending") : Settled (s.put i job' t) where
  known x hx id hid := by
    have hstored : ∃ r ∈ s.reports.rows, r.id = id := by
      rcases List.mem_or_eq_of_mem_set hx with hx | rfl
      · exact h.known x hx id hid
      · exact hheld id hid
    obtain ⟨r, hr, rfl⟩ := hstored
    obtain ⟨r', hr', hid', -⟩ := hadvanced.kept r hr
    exact ⟨r', hr', hid'⟩
  failing row reason rest hmem r hr hid := by
    obtain ⟨k, hk⟩ := List.mem_iff_getElem?.mp hmem
    rcases getElem?_set_cases hi hk with ⟨-, heq⟩ | ⟨hne, hk⟩
    · exact hfailing row reason rest heq.symm r hr hid
    · -- The step does not touch the row of another tick.
      have hapart := hinv.apart k i _ job hne hk hi row.id List.mem_cons_self
      rcases hadvanced.beside r hr (hid ▸ hapart) with hr | hpending
      · exact h.failing row reason rest (List.mem_of_getElem? hk) r hr hid
      · exact hpending
  handed id hid := by
    -- Handed over before, it is current in a job or has its status.
    rcases h.handed id hid with ⟨x, hx, hxid⟩ | ⟨r, hr, rfl, hstatus⟩
    · obtain ⟨k, hk⟩ := List.mem_iff_getElem?.mp hx
      by_cases hki : k = i
      · subst hki
        cases hi.symm.trans hk
        refine (hcurrent id hxid).imp_left fun hkept => ⟨job', ?_, hkept⟩
        exact List.mem_of_getElem? (List.getElem?_set_self (List.getElem?_eq_some_iff.mp hi).1)
      · refine Or.inl ⟨x, List.mem_of_getElem? (i := k) ?_, hxid⟩
        exact (List.getElem?_set_ne (Ne.symm hki)).trans hk
    · obtain ⟨r', hr', hid', hstatus'⟩ := hadvanced.kept r hr
      exact Or.inr ⟨r', hr', hid', hstatus' hstatus⟩

/-- Without disturbance a step is orderly. -/
theorem Settled.orderly (h : Settled s) (hundisturbed : Undisturbed s a) : Orderly s a := by
  cases a with
  | step i attempt =>
    rw [Undisturbed] at hundisturbed
    rw [Orderly]
    cases hi : s.jobs[i]? with
    | none => exact True.intro
    | some job =>
      rw [hi] at hundisturbed
      unfold OrderlyJob
      split
      · rename_i heq
        cases heq
        intro row hrow
        have hfree := hundisturbed row hrow
        refine ⟨?_, fun job hjob hqueued => hfree job hjob (List.mem_append_right _ hqueued)⟩
        -- A row that was handed over is held by a tick, or not pending any more.
        intro hhanded
        obtain ⟨hmem, hpending⟩ := mem_fetched hrow
        rcases h.handed row.id hhanded with ⟨job, hjob, hcurrent⟩ | ⟨r, hr, hid, hstatus⟩
        · refine hfree job hjob (List.mem_append_left _ ?_)
          exact Option.mem_toList.mpr hcurrent
        · rw [s.reports.eq_of_key hr hmem hid] at hstatus
          exact hstatus hpending
      · rename_i row reason rest heq
        cases heq
        intro _ r hr hid
        rw [h.failing row reason rest (List.mem_of_getElem? hi) r hr hid]
        decide
      · exact True.intro
  | _ => exact True.intro

/-- The current row of a tick is stored. -/
theorem Settled.stored {row : MonthlyReport} (h : Settled s) (hi : s.jobs[i]? = some job)
    (hcurrent : current job = some row.id) : ∃ r ∈ s.reports.rows, r.id = row.id := by
  refine h.known job (List.mem_of_getElem? hi) row.id (List.mem_append_left _ ?_)
  exact Option.mem_toList.mpr hcurrent

/-- The status of the current row is written, and the tick goes on. -/
theorem Settled.written {row : MonthlyReport} {rest : List MonthlyReport} (h : Settled s)
    (hinv : Inv s) (hi : s.jobs[i]? = some job) (hcurrent : current job = some row.id)
    (hqueued : queued job = rest.map (·.id)) (hadvanced : Advanced [row.id] s.reports t)
    (hstatus : ∀ r ∈ t.rows, r.id = row.id → r.status ≠ "pending") :
    Settled (s.put i (.tick (.draining rest)) t) := by
  have hmem : row.id ∈ held job := List.mem_append_left _ (Option.mem_toList.mpr hcurrent)
  have hbeside : Advanced (held job) s.reports t :=
    ⟨hadvanced.kept, fun r hr hother => hadvanced.beside r hr fun hone =>
      hother (List.mem_singleton.mp hone ▸ hmem)⟩
  refine h.put hinv hi hbeside ?_ ?_ fun _ _ _ heq => nomatch heq
  · intro id hid
    refine h.known job (List.mem_of_getElem? hi) id (List.mem_append_right _ ?_)
    rw [hqueued]
    exact hid
  · intro id hid
    cases hcurrent.symm.trans hid
    obtain ⟨r, hr, hrid⟩ := h.stored hi hcurrent
    obtain ⟨r', hr', hrid', -⟩ := hadvanced.kept r hr
    exact Or.inr ⟨r', hr', hrid'.trans hrid, hstatus r' hr' (hrid'.trans hrid)⟩

/-- Every step without disturbance keeps it. -/
theorem settled_step (h : Settled s) (hinv : Inv s) (hundisturbed : Undisturbed s a)
    (hnext : next display s a = some s') : Settled s' := by
  cases moved_of_next hnext with
  | spawn task =>
    have hidle : held task.start = [] := by cases task <;> rfl
    refine ⟨fun job hjob id hid => ?_, fun row reason rest hmem => ?_, fun id hid => ?_⟩
    · rcases List.mem_append.mp hjob with hjob | hjob
      · exact h.known job hjob id hid
      · rw [List.mem_singleton.mp hjob, hidle] at hid
        cases hid
    · rcases List.mem_append.mp hmem with hmem | hmem
      · exact h.failing row reason rest hmem
      · rw [← List.mem_singleton.mp hmem] at hidle
        cases hidle
    · refine (h.handed id hid).imp_left fun ⟨job, hjob, hcurrent⟩ => ⟨job, ?_, hcurrent⟩
      exact List.mem_append_left _ hjob
  | subscribe subscriptions => exact ⟨h.known, h.failing, h.handed⟩
  | idle _ i job job' reports hi hcurrent hheld hreports =>
    -- No tick dies with a row in `generate_one`.
    have hnone : current job = none := by
      rcases hcurrent with rfl | hnone
      · exact hundisturbed job hi
      · exact hnone
    refine h.put hinv hi (advanced_of_grown _ hreports) ?_ ?_ ?_
    · rw [hheld]
      exact nofun
    · rw [hnone]
      exact nofun
    · rintro row reason rest rfl
      cases hheld
  | fetched i attempt hi =>
    refine h.put hinv hi (advanced_refl _ _) ?_ nofun fun _ _ _ heq => nomatch heq
    intro id hid
    obtain ⟨row, hrow, rfl⟩ := List.mem_map.mp hid
    exact ⟨row, (mem_fetched hrow).1, rfl⟩
  | handed i attempt row rest hi =>
    have hput : Settled (s.put i (.tick (.generating row rest)) s.reports) :=
      h.put hinv hi (advanced_refl _ _)
        (fun id hid => h.known _ (List.mem_of_getElem? hi) id hid) nofun
        fun _ _ _ heq => nomatch heq
    refine ⟨hput.known, hput.failing, fun id hid => ?_⟩
    rcases List.mem_append.mp hid with hid | hid
    · exact hput.handed id hid
    · rw [List.mem_singleton.mp hid]
      refine Or.inl ⟨.tick (.generating row rest), ?_, rfl⟩
      exact List.mem_of_getElem? (List.getElem?_set_self (List.getElem?_eq_some_iff.mp hi).1)
  | succeeded i attempt row rest reports now summary hi hwrite =>
    obtain ⟨hadvanced, hstatus⟩ := advanced_of_succeeded hwrite
    exact h.written hinv hi rfl rfl hadvanced hstatus
  | unanswered i attempt row reason rest reports hi hreports =>
    rw [Undisturbed, hi] at hundisturbed
    rcases hreports with rfl | ⟨now, newId, summary, hrun, -⟩
    · refine h.put hinv hi (advanced_refl _ _)
        (fun id hid => h.known _ (List.mem_of_getElem? hi) id hid) (fun id hid => Or.inl hid) ?_
      -- Nothing was written, so the row is still pending.
      rintro row' reason' rest' heq r hr hid
      cases heq
      exact (hinv.ok _ (List.mem_of_getElem? hi)).pending row.id List.mem_cons_self r hr hid
    -- A write that took effect is answered.
    · exact absurd hrun (hundisturbed now newId)
  | failed i attempt row reason rest reports hi hreports =>
    rw [Undisturbed, hi] at hundisturbed
    rcases hreports with ⟨hlost, -⟩ | ⟨-, now, hwrite⟩
    · exact absurd hlost hundisturbed
    · obtain ⟨hadvanced, hstatus⟩ := advanced_of_failed hwrite
      exact h.written hinv hi rfl rfl hadvanced hstatus

theorem settled_init (reports : Table monthlyReports)
    (subscriptions : Table Billing.Subscriptions.afterMigrations) :
    Settled (State.init reports subscriptions) :=
  ⟨by simp [State.init], by simp [State.init], by simp [State.init]⟩

/-- A run whose ticks are not disturbed is orderly. -/
theorem orderly_of_undisturbed {as : List Action} (hinv : Inv s) (h : Settled s)
    (hundisturbed : Along (next display) Undisturbed s as) :
    Along (next display) Orderly s as := by
  induction as generalizing s with
  | nil => exact True.intro
  | cons a as ih =>
    have horderly := h.orderly hundisturbed.1
    refine ⟨horderly, fun s' hnext => ?_⟩
    exact ih (inv_step hinv horderly hnext) (settled_step h hinv hundisturbed.1 hnext)
      (hundisturbed.2 s' hnext)

end

/-! ### The theorem -/

/-- In every run, each user has at most one report for a period. In every run
of orderly steps, each row is handed to `generate_one` at most once, and a row
that has succeeded stays as it is. A run is orderly when its ticks are not
disturbed. -/
theorem monthly_reports (display : DbError → String) (reports : Table monthlyReports)
    (subscriptions : Table Billing.Subscriptions.afterMigrations) (as : List Action) (s : State)
    (hrun : run (next display) (State.init reports subscriptions) as = some s) :
    OnePerPeriod s.reports ∧
      (Along (next display) Orderly (State.init reports subscriptions) as →
        s.handed.Nodup ∧ ∀ pre post m, as = pre ++ post →
          run (next display) (State.init reports subscriptions) pre = some m →
          ∀ r ∈ m.reports.rows, r.status = "succeeded" → r ∈ s.reports.rows) ∧
      (Along (next display) Undisturbed (State.init reports subscriptions) as →
        Along (next display) Orderly (State.init reports subscriptions) as) := by
  refine ⟨onePerPeriod s.reports, ?_, ?_⟩
  · intro horderly
    refine ⟨(inv_run horderly hrun).handed, ?_⟩
    rintro pre post m rfl hpre r hr hstatus
    obtain ⟨hbefore, hafter⟩ := Transition.along_append horderly
    obtain ⟨x, hx, hpost⟩ := Transition.run_append.mp hrun
    cases hpre.symm.trans hx
    -- The induction over the rest of the run carries the invariant and the row.
    exact (Transition.run_invariant (P := fun x => Inv x ∧ r ∈ x.reports.rows)
      (fun _ _ _ hs hC hnext =>
        ⟨inv_step hs.1 hC hnext, succeeded_step hs.1 hC hnext hs.2 hstatus⟩)
      ⟨inv_run hbefore hpre, hr⟩ (hafter m hpre) hpost).2
  · exact orderly_of_undisturbed (inv_init reports subscriptions)
      (settled_init reports subscriptions)

/-! ### One tick, and two that overlap -/

instance decidableLost : (attempt : Attempt) → Decidable (attempt = .lost)
  | .lost => isTrue rfl
  | .run _ _ _ => isFalse nofun

instance decidableOrderlyJob (s : State) (attempt : Attempt) :
    (job : Option Job) → Decidable (OrderlyJob s attempt job)
  | none => isTrue True.intro
  | some (.enqueue _ _) => isTrue True.intro
  | some (.request _ _ _) => isTrue True.intro
  | some (.tick .fetching) => inferInstanceAs (Decidable (∀ row ∈ fetched s attempt,
      row.id ∉ s.handed ∧ ∀ job ∈ s.jobs, row.id ∉ queued job))
  | some (.tick (.draining _)) => isTrue True.intro
  | some (.tick (.generating _ _)) => isTrue True.intro
  | some (.tick (.failing row _ _)) => inferInstanceAs (Decidable (attempt ≠ .lost →
      ∀ r ∈ s.reports.rows, r.id = row.id → r.status ≠ "succeeded"))
  | some (.tick .finished) => isTrue True.intro

instance decidableOrderly (s : State) : (a : Action) → Decidable (Orderly s a)
  | .spawn _ => isTrue True.intro
  | .step i attempt => decidableOrderlyJob s attempt s.jobs[i]?
  | .drop _ => isTrue True.intro
  | .subscribe _ => isTrue True.intro

/-- The text of a lost connection. -/
def brokenPipe (_ : DbError) : String :=
  "error communicating with database: Broken pipe (os error 32)"

/-- A user asks for a report on 2026-06-12. -/
def requested : List Action :=
  [.spawn (.request ⟨7⟩ ⟨2026, ⟨6, by decide⟩, 12, by decide⟩), .step 0 (.run 0 ⟨1⟩ true)]

/-- A tick generates it. -/
def oneTick : List Action :=
  requested ++ [.spawn .tick, .step 1 (.run 1 ⟨0⟩ true), .step 1 (.run 1 ⟨0⟩ true),
    .step 1 (.run 2 ⟨0⟩ true), .step 1 (.run 3 ⟨0⟩ true)]

/-- `monthly_reports` at that run, whose steps are orderly. -/
theorem monthly_reports_one_tick :
    ∃ s, run (next brokenPipe) (State.init Table.empty Table.empty) oneTick = some s ∧
      s.reports.rows.map (·.status) = ["succeeded"] ∧ s.handed.Nodup := by
  have hsome : (run (next brokenPipe) (State.init Table.empty Table.empty) oneTick).map
      (fun s => s.reports.rows.map (·.status)) = some ["succeeded"] := by decide +kernel
  have horderly : Along (next brokenPipe) Orderly (State.init Table.empty Table.empty) oneTick := by
    decide +kernel
  obtain ⟨s, hs, hstatus⟩ := Option.map_eq_some_iff.mp hsome
  exact ⟨s, hs, hstatus, ((monthly_reports _ _ _ _ s hs).2.1 horderly).1⟩

/-- Two ticks fetch the pending row, and the first one generates it. -/
def twoTicks : List Action :=
  requested ++ [.spawn .tick, .spawn .tick, .step 1 (.run 1 ⟨0⟩ true), .step 2 (.run 1 ⟨0⟩ true),
    .step 1 (.run 1 ⟨0⟩ true), .step 2 (.run 1 ⟨0⟩ true), .step 1 (.run 2 ⟨0⟩ true)]

/-- The row was handed over twice. The second tick cannot write its result and
marks the succeeded row as failed. -/
theorem overlapping_ticks :
    ∃ m s, run (next brokenPipe) (State.init Table.empty Table.empty) twoTicks = some m ∧
      run (next brokenPipe) m [.step 2 .lost, .step 2 (.run 3 ⟨0⟩ true)] = some s ∧
      m.reports.rows.map (fun r => (r.id, r.status)) = [(⟨1⟩, "succeeded")] ∧
      s.reports.rows.map (fun r => (r.id, r.status)) = [(⟨1⟩, "failed")] ∧
      s.handed = [⟨1⟩, ⟨1⟩] := by
  have hfirst : (run (next brokenPipe) (State.init Table.empty Table.empty) twoTicks).map
      (fun s => s.reports.rows.map fun r => (r.id, r.status)) = some [(⟨1⟩, "succeeded")] := by
    decide +kernel
  have hboth : (run (next brokenPipe) (State.init Table.empty Table.empty)
      (twoTicks ++ [.step 2 .lost, .step 2 (.run 3 ⟨0⟩ true)])).map
        (fun s => (s.reports.rows.map fun r => (r.id, r.status), s.handed))
      = some ([(⟨1⟩, "failed")], [⟨1⟩, ⟨1⟩]) := by decide +kernel
  obtain ⟨m, hm, hsucceeded⟩ := Option.map_eq_some_iff.mp hfirst
  obtain ⟨s, hs, hfailed⟩ := Option.map_eq_some_iff.mp hboth
  obtain ⟨x, hx, hrest⟩ := Transition.run_append.mp hs
  cases hm.symm.trans hx
  obtain ⟨hrows, hhanded⟩ := Prod.mk.inj hfailed
  exact ⟨m, s, hm, hrest, hsucceeded, hrows, hhanded⟩

end MizanConnect.Proofs.Billing.MonthlyReports
