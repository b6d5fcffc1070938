import MizanConnect.Billing.Inbox
import MizanConnect.Proofs.Billing.MonthlyReports

/-!
# `MizanConnect.Proofs.Billing.Inbox`: whose report it is

The reports are written by three kinds of jobs that run side by side, may overlap and may
die. A tick works on copies of the rows that it has fetched. `Filed` is what holds of every
row all the same: it was inserted by a request of its user, or by a cron job that its own
SELECT had given the user (`Asked`), it is for the month before, and its text is the one for
its own user and month.

`CopyOf` ties the copies of the ticks to the table. `InOrder` is the invariant, and
`inOrder_next` its step. `report_inbox` is what a user finds in the inbox.
-/

set_option autoImplicit false

namespace MizanConnect.Proofs.Billing.Inbox

open Calendar (Date)
open MizanConnect.Billing.Reports
open MizanConnect.Proofs.Billing.MonthlyReports (brokenPipe clash_iff execute_update
  markFailed_ok markSucceeded_ok oneTick)
open Sql (Table)
open Transition (run StepOf getElem?_set_cases getElem?_concat_cases)

/-! ### Copies -/

/-- Two versions of one row: the id, the user and the period never change. -/
structure CopyOf (row r : MonthlyReport) : Prop where
  id : r.id = row.id
  userId : r.userId = row.userId
  periodStart : r.periodStart = row.periodStart
  periodEnd : r.periodEnd = row.periodEnd

/-- No row goes away or changes its user or its period. -/
def Carried (t t' : Table monthlyReports) : Prop := ∀ r ∈ t.rows, ∃ r' ∈ t'.rows, CopyOf r r'

/-- The rows that a tick has fetched and not yet done with. -/
def fetchedRows : TickPhase → List MonthlyReport
  | .draining rows => rows
  | .generating row rest => row :: rest
  | .failing row _ rest => row :: rest
  | _ => []

/-! ### The rows -/

/-- The SELECT of the cron job `i` of the day was answered with the subscribers of the
moment, the user among them. -/
def Selected (display : DbError → String) (start : State) (as : List Action) (i : Nat)
    (userId : Uuid) (today : Date) : Prop :=
  ∃ attempt m m', StepOf (next display) start as m (.step i attempt) m' ∧
    m.jobs[i]? = some (.enqueue today .starting) ∧
    m'.jobs[i]? = some (.enqueue today (.enqueuing (subscribers m.subscriptions))) ∧
    userId ∈ subscribers m.subscriptions

/-- The job `i` is about to enqueue the report of the user: a request of the user, or a cron
job whose own SELECT found the user. -/
def Asks (display : DbError → String) (start : State) (as : List Action) (i : Nat)
    (userId : Uuid) (today : Date) : Job → Prop
  | .request owner day .enqueuing => owner = userId ∧ day = today
  | .enqueue day (.enqueuing users) =>
    day = today ∧ userId ∈ users ∧ Selected display start as i userId today
  | _ => False

/-- The row was inserted by the step of such a job. -/
def Asked (display : DbError → String) (start : State) (as : List Action) (r : MonthlyReport)
    (today : Date) : Prop :=
  ∃ i attempt job m m', StepOf (next display) start as m (.step i attempt) m' ∧
    m.jobs[i]? = some job ∧ Asks display start as i r.userId today job ∧
    (∀ x ∈ m.reports.rows, x.id ≠ r.id) ∧ ∃ x ∈ m'.reports.rows, CopyOf x r

/-- The text of the row's own month and user. -/
def ownText (r : MonthlyReport) : String := placeholderSummary (monthLabel r) r.userId

/-- What the columns of a row say, by its status. -/
structure Shape (r : MonthlyReport) : Prop where
  credits : r.creditsCharged = 0
  text : r.summaryMd = none ∨ r.summaryMd = some (ownText r)
  pending : r.status = "pending" →
    r.summaryMd = none ∧ r.model = none ∧ r.error = none ∧ r.generatedAt = none
  succeeded : r.status = "succeeded" → r.summaryMd = some (ownText r) ∧
    r.model = some "placeholder-stub" ∧ r.error = none ∧ r.generatedAt.isSome
  failed : r.status = "failed" → r.error.isSome ∧ r.generatedAt.isSome

/-- Where a row is from, and what it says. -/
structure Filed (display : DbError → String) (start : State) (as : List Action)
    (r : MonthlyReport) : Prop where
  origin : ∃ today, Asked display start as r today ∧
    (r.periodStart, r.periodEnd) = previousMonthWindow today
  shape : Shape r

section
variable {display : DbError → String} {start : State} {as : List Action} {userId : Uuid}
  {today : Date} {r : MonthlyReport} {i : Nat}

theorem CopyOf.trans {r' r'' : MonthlyReport} (h : CopyOf r r') (h' : CopyOf r' r'') :
    CopyOf r r'' where
  id := h'.id.trans h.id
  userId := h'.userId.trans h.userId
  periodStart := h'.periodStart.trans h.periodStart
  periodEnd := h'.periodEnd.trans h.periodEnd

theorem Selected.later (h : Selected display start as i userId today) (a : Action) :
    Selected display start (as ++ [a]) i userId today := by
  obtain ⟨attempt, m, m', hstep, hselected⟩ := h
  exact ⟨attempt, m, m', hstep.append [a], hselected⟩

theorem Asks.later {job : Job} (h : Asks display start as i userId today job) (a : Action) :
    Asks display start (as ++ [a]) i userId today job := by
  rcases job with ⟨day, _ | users | _⟩ | ⟨owner, day, _ | inserted | result⟩ | phase
  · exact h.elim
  · exact ⟨h.1, h.2.1, h.2.2.later a⟩
  · exact h.elim
  · exact h
  · exact h.elim
  · exact h.elim
  · exact h.elim

theorem Asked.later (h : Asked display start as r today) (a : Action) :
    Asked display start (as ++ [a]) r today := by
  obtain ⟨i, attempt, job, m, m', hstep, hi, hasks, hinserted⟩ := h
  exact ⟨i, attempt, job, m, m', hstep.append [a], hi, hasks.later a, hinserted⟩

/-- A later version of the row was asked for in the same way. -/
theorem Asked.copy {r' : MonthlyReport} (h : Asked display start as r today)
    (hcopy : CopyOf r r') : Asked display start as r' today := by
  obtain ⟨i, attempt, job, m, m', hstep, hi, hasks, hfresh, x, hx, hxr⟩ := h
  refine ⟨i, attempt, job, m, m', hstep, hi, hcopy.userId.symm ▸ hasks, ?_, x, hx,
    hxr.trans hcopy⟩
  rw [hcopy.id]
  exact hfresh

theorem Filed.later (h : Filed display start as r) (a : Action) :
    Filed display start (as ++ [a]) r := by
  obtain ⟨⟨today, hasked, hwindow⟩, hshape⟩ := h
  exact ⟨⟨today, hasked.later a, hwindow⟩, hshape⟩

theorem shape_succeededRow (now : Timestamp) {summary : String}
    (hsummary : summary = ownText r) :
    Shape (succeededRow now summary "placeholder-stub" 0 r) where
  credits := rfl
  text := Or.inr (congrArg some hsummary)
  pending := fun hstatus => absurd hstatus (by simp [succeededRow])
  succeeded := fun _ => ⟨congrArg some hsummary, rfl, rfl, rfl⟩
  failed := fun hstatus => absurd hstatus (by simp [succeededRow])

/-- A row that has failed keeps the text that it had. -/
theorem shape_failedRow (h : Shape r) (now : Timestamp) (reason : String) :
    Shape (failedRow now reason r) where
  credits := h.credits
  text := h.text
  pending := fun hstatus => absurd hstatus (by simp [failedRow])
  succeeded := fun hstatus => absurd hstatus (by simp [failedRow])
  failed := fun _ => ⟨rfl, rfl⟩

end

/-! ### Versions of a row -/

section
variable {row r : MonthlyReport} {t t' : Table monthlyReports}

theorem CopyOf.ownText_eq (h : CopyOf row r) :
    ownText r = placeholderSummary (monthLabel row) row.userId := by
  unfold ownText monthLabel
  rw [h.userId, h.periodStart]

theorem Carried.refl (t : Table monthlyReports) : Carried t t :=
  fun r hr => ⟨r, hr, rfl, rfl, rfl, rfl⟩

/-- The rows after an UPDATE by id. -/
theorem updated_rows {id : Uuid} {f : MonthlyReport → MonthlyReport} (hf : ∀ r, CopyOf r (f r))
    (h : t.updateWhere (·.id = id) f = .ok t') :
    t'.rows = t.rows.map fun r => if r.id = id then f r else r := by
  have hrows := Table.write_updated_rows (fun r => (hf r).id) h
  simpa using hrows

theorem carried_update {id : Uuid} {f : MonthlyReport → MonthlyReport} (hf : ∀ r, CopyOf r (f r))
    (h : t.updateWhere (·.id = id) f = .ok t') : Carried t t' := by
  intro r hr
  refine ⟨_, by rw [updated_rows hf h]; exact List.mem_map_of_mem hr, ?_⟩
  split
  · exact hf r
  · exact ⟨rfl, rfl, rfl, rfl⟩

end

/-! ### The invariant -/

/-- What the job `i` knows: whom its SELECT found, and of which rows it has copies. -/
def JobInOrder (display : DbError → String) (start : State) (as : List Action)
    (t : Table monthlyReports) (i : Nat) : Job → Prop
  | .enqueue today (.enqueuing users) =>
    ∀ userId ∈ users, Selected display start as i userId today
  | .enqueue _ _ => True
  | .request _ _ _ => True
  | .tick phase => ∀ row ∈ fetchedRows phase, ∃ r ∈ t.rows, CopyOf row r

structure InOrder (display : DbError → String) (start : State) (as : List Action) (s : State) :
    Prop where
  rows : ∀ r ∈ s.reports.rows, Filed display start as r
  jobs : ∀ (i : Nat) job, s.jobs[i]? = some job → JobInOrder display start as s.reports i job

/-- A row that `enqueue_pending` has added to the table. -/
structure NewReport (t : Table monthlyReports) (userId : Uuid) (today : Date)
    (r : MonthlyReport) : Prop where
  fresh : ∀ x ∈ t.rows, x.id ≠ r.id
  userId : r.userId = userId
  period : (r.periodStart, r.periodEnd) = previousMonthWindow today
  shape : Shape r

section
variable {display : DbError → String} {start s s' : State} {as : List Action} {a : Action}
  {t t' : Table monthlyReports} {job job' : Job} {i : Nat}

theorem JobInOrder.later (h : JobInOrder display start as t i job) (hcarried : Carried t t')
    (a : Action) : JobInOrder display start (as ++ [a]) t' i job := by
  rcases job with ⟨today, _ | users | _⟩ | ⟨userId, today, phase⟩ | phase
  · trivial
  · exact fun userId huser => (h userId huser).later a
  · trivial
  · trivial
  · intro row hrow
    obtain ⟨r, hr, hcopy⟩ := h row hrow
    obtain ⟨r', hr', hcopy'⟩ := hcarried r hr
    exact ⟨r', hr', hcopy.trans hcopy'⟩

/-- A step of the job `i`, and the table that it leaves. -/
theorem InOrder.put (h : InOrder display start as s) (hi : s.jobs[i]? = some job)
    (hcarried : Carried s.reports t') (hrows : ∀ r ∈ t'.rows, Filed display start (as ++ [a]) r)
    (hjob : JobInOrder display start (as ++ [a]) t' i job') :
    InOrder display start (as ++ [a]) (s.put i job' t') := by
  refine ⟨hrows, ?_⟩
  intro k x hk
  rcases getElem?_set_cases hi hk with ⟨rfl, rfl⟩ | ⟨-, hk⟩
  · exact hjob
  · exact (h.jobs k x hk).later hcarried a

/-- A step of the job `i` that leaves the table. -/
theorem InOrder.putSame (h : InOrder display start as s) (hi : s.jobs[i]? = some job)
    (hjob : JobInOrder display start (as ++ [a]) s.reports i job') :
    InOrder display start (as ++ [a]) (s.put i job' s.reports) :=
  h.put hi (Carried.refl _) (fun r hr => (h.rows r hr).later a) hjob

/-- The statement of `enqueue_pending`, whatever happens to it. -/
theorem enqueue_rows {userId : Uuid} {today : Date} (attempt : Attempt)
    (ht' : t' = (attempt.execute t fun now newId => enqueuePending t now newId userId
      (previousMonthWindow today).1 (previousMonthWindow today).2).2) :
    Carried t t' ∧ ∀ r ∈ t'.rows, r ∈ t.rows ∨ NewReport t userId today r := by
  rcases Attempt.execute_cases attempt t fun now newId => enqueuePending t now newId userId
      (previousMonthWindow today).1 (previousMonthWindow today).2 with
    ⟨-, heq⟩ | ⟨now, newId, v, -, heq⟩ | ⟨now, newId, acknowledged, t'', inserted, -, hok, heq⟩
  · rw [ht', heq]
    exact ⟨Carried.refl t, fun r hr => Or.inl hr⟩
  · rw [ht', heq]
    exact ⟨Carried.refl t, fun r hr => Or.inl hr⟩
  · rw [heq] at ht'
    subst ht'
    unfold enqueuePending at hok
    split at hok
    · cases hok
      exact ⟨Carried.refl t, fun r hr => Or.inl hr⟩
    · cases hinsert : t.insert
          { id := newId, userId, periodStart := (previousMonthWindow today).1,
            periodEnd := (previousMonthWindow today).2, summaryMd := none, model := none,
            creditsCharged := 0, status := "pending", error := none, requestedAt := now,
            generatedAt := none } with
      | error v =>
        rw [hinsert] at hok
        cases hok
      | ok t'' =>
        rw [hinsert] at hok
        cases hok
        obtain ⟨hrows, hkey⟩ := Table.insert_rows hinsert
        refine ⟨fun r hr => ?_, fun r hr => ?_⟩
        · rw [hrows]
          exact ⟨r, List.mem_append_left _ hr, rfl, rfl, rfl, rfl⟩
        · rw [hrows] at hr
          rcases List.mem_append.mp hr with hr | hr
          · exact Or.inl hr
          · rw [List.mem_singleton.mp hr]
            exact Or.inr ⟨hkey, rfl, rfl, rfl, Or.inl rfl, fun _ => ⟨rfl, rfl, rfl, rfl⟩,
              fun h => absurd h (by simp), fun h => absurd h (by simp)⟩

/-- The step of a job that asks: what it has added was asked for. -/
theorem enqueue_filed {userId : Uuid} {today : Date} {attempt : Attempt}
    (hs : InOrder display start as s) (hpre : run (next display) start as = some s)
    (hnext : next display s (.step i attempt) = some s') (hi : s.jobs[i]? = some job)
    (hasks : Asks display start as i userId today job)
    (hreports : s'.reports = (attempt.execute s.reports fun now newId =>
      enqueuePending s.reports now newId userId (previousMonthWindow today).1
        (previousMonthWindow today).2).2) :
    Carried s.reports s'.reports ∧
      ∀ r ∈ s'.reports.rows, Filed display start (as ++ [.step i attempt]) r := by
  obtain ⟨hcarried, hrows⟩ := enqueue_rows attempt hreports
  refine ⟨hcarried, fun r hr => ?_⟩
  rcases hrows r hr with hold | hnew
  · exact (hs.rows r hold).later _
  · obtain rfl := hnew.userId
    exact ⟨⟨today, ⟨i, attempt, job, s, s', Transition.stepOf_last hpre hnext, hi,
      hasks.later _, hnew.fresh, r, hr, rfl, rfl, rfl, rfl⟩, hnew.period⟩, hnew.shape⟩

/-- An UPDATE by id that keeps the shape of the row with the id. -/
theorem update_filed {id : Uuid} {f : MonthlyReport → MonthlyReport} (hf : ∀ r, CopyOf r (f r))
    (hrows : ∀ r ∈ t.rows, Filed display start as r)
    (hshape : ∀ r ∈ t.rows, r.id = id → Shape r → Shape (f r))
    (h : t.updateWhere (·.id = id) f = .ok t') :
    Carried t t' ∧ ∀ r ∈ t'.rows, Filed display start as r := by
  refine ⟨carried_update hf h, fun r' hr' => ?_⟩
  rw [updated_rows hf h] at hr'
  obtain ⟨r, hr, rfl⟩ := List.mem_map.mp hr'
  split
  · rename_i hid
    obtain ⟨⟨today, hasked, hwindow⟩, hold⟩ := hrows r hr
    refine ⟨⟨today, hasked.copy (hf r), ?_⟩, hshape r hr hid hold⟩
    rw [(hf r).periodStart, (hf r).periodEnd]
    exact hwindow
  · exact hrows r hr

/-- The statement of `mark_succeeded` for a copy of a row, whatever happens to it. -/
theorem succeeded_filed {row : MonthlyReport} (attempt : Attempt)
    (hrows : ∀ r ∈ t.rows, Filed display start as r) (hcopy : ∃ r ∈ t.rows, CopyOf row r)
    (ht' : t' = (attempt.execute t fun now _ => (markSucceeded t now row.id
      (placeholderSummary (monthLabel row) row.userId) "placeholder-stub" 0).map
        fun t => (t, ())).2) :
    Carried t t' ∧ ∀ r ∈ t'.rows, Filed display start as r := by
  rcases execute_update attempt t (fun now => markSucceeded t now row.id
      (placeholderSummary (monthLabel row) row.userId) "placeholder-stub" 0)
      (fun now => markSucceeded_ok t now row.id _) with
    ⟨-, heq⟩ | ⟨now, newId, acknowledged, t'', -, hwrite, heq⟩
  · rw [ht', heq]
    exact ⟨Carried.refl t, hrows⟩
  · rw [heq] at ht'
    subst ht'
    refine update_filed (f := succeededRow now _ "placeholder-stub" 0)
      (fun r => ⟨rfl, rfl, rfl, rfl⟩) hrows (fun r hr hid _ => ?_) hwrite
    -- The row with the id is the one that the tick has copied.
    obtain ⟨r₀, hr₀, hsame⟩ := hcopy
    cases t.eq_of_key hr hr₀ (hid.trans hsame.id.symm)
    exact shape_succeededRow now hsame.ownText_eq.symm

/-- So does the statement of `mark_failed`. -/
theorem failed_filed {id : Uuid} {reason : String} (attempt : Attempt)
    (hrows : ∀ r ∈ t.rows, Filed display start as r)
    (ht' : t' = (attempt.execute t fun now _ => (markFailed t now id reason).map
      fun t => (t, ())).2) :
    Carried t t' ∧ ∀ r ∈ t'.rows, Filed display start as r := by
  rcases execute_update attempt t (fun now => markFailed t now id reason)
      (fun now => markFailed_ok t now id reason) with
    ⟨-, heq⟩ | ⟨now, newId, acknowledged, t'', -, hwrite, heq⟩
  · rw [ht', heq]
    exact ⟨Carried.refl t, hrows⟩
  · rw [heq] at ht'
    subst ht'
    exact update_filed (f := failedRow now reason) (fun r => ⟨rfl, rfl, rfl, rfl⟩) hrows
      (fun r _ _ hold => shape_failedRow hold now reason) hwrite

/-! ### Steps -/

/-- A step of `run_enqueue`. -/
theorem inOrder_enqueue {attempt : Attempt} {today : Date} {phase : EnqueuePhase}
    (hs : InOrder display start as s) (hpre : run (next display) start as = some s)
    (hi : s.jobs[i]? = some (.enqueue today phase))
    (hnext : next display s (.step i attempt) = some s')
    (h : s.stepEnqueue i attempt today phase = some s') :
    InOrder display start (as ++ [.step i attempt]) s' := by
  have hjob := hs.jobs i _ hi
  rcases phase with _ | (_ | ⟨userId, users⟩) | _
  · simp only [State.stepEnqueue] at h
    cases hquery : attempt.query (subscribers s.subscriptions) with
    | error e =>
      rw [hquery] at h
      cases h
      exact hs.putSame hi trivial
    | ok users =>
      rw [hquery, Attempt.query_eq_ok hquery] at h
      cases h
      -- This step is the SELECT.
      refine hs.putSame hi fun userId huser => ⟨attempt, s, _, Transition.stepOf_last hpre hnext,
        hi, ?_, huser⟩
      exact List.getElem?_set_self (List.getElem?_eq_some_iff.mp hi).1
  · cases h
    exact hs.putSame hi trivial
  · simp only [State.stepEnqueue] at h
    cases h
    obtain ⟨hcarried, hrows⟩ := enqueue_filed hs hpre hnext hi
      ⟨rfl, List.mem_cons_self, hjob userId List.mem_cons_self⟩ rfl
    exact hs.put hi hcarried hrows fun u hu => (hjob u (List.mem_cons_of_mem _ hu)).later _
  · cases h

/-- A step of `request_monthly_report`. -/
theorem inOrder_request {attempt : Attempt} {userId : Uuid} {today : Date} {phase : RequestPhase}
    (hs : InOrder display start as s) (hpre : run (next display) start as = some s)
    (hi : s.jobs[i]? = some (.request userId today phase))
    (hnext : next display s (.step i attempt) = some s')
    (h : s.stepRequest i attempt userId today phase = some s') :
    InOrder display start (as ++ [.step i attempt]) s' := by
  rcases phase with _ | inserted | result
  · have hasks : Asks display start as i userId today (.request userId today .enqueuing) :=
      ⟨rfl, rfl⟩
    simp only [State.stepRequest] at h
    split at h
    · cases h
      obtain ⟨hcarried, hrows⟩ := enqueue_filed hs hpre hnext hi hasks rfl
      exact hs.put hi hcarried hrows trivial
    · cases h
      obtain ⟨hcarried, hrows⟩ := enqueue_filed hs hpre hnext hi hasks rfl
      exact hs.put hi hcarried hrows trivial
  · cases h
    exact hs.putSame hi trivial
  · cases h

/-- A step of `run_worker_tick`. -/
theorem inOrder_tick {attempt : Attempt} {phase : TickPhase}
    (hs : InOrder display start as s) (hi : s.jobs[i]? = some (.tick phase))
    (h : s.stepTick display i attempt phase = some s') :
    InOrder display start (as ++ [a]) s' := by
  have hjob := hs.jobs i _ hi
  have hlater : ∀ r ∈ s.reports.rows, Filed display start (as ++ [a]) r :=
    fun r hr => (hs.rows r hr).later a
  rcases phase with _ | (_ | ⟨row, rest⟩) | ⟨row, rest⟩ | ⟨row, reason, rest⟩ | _
  · simp only [State.stepTick] at h
    cases hquery : attempt.query (fetchPending s.reports workerParallelism) with
    | error e =>
      rw [hquery] at h
      cases h
      exact hs.putSame hi fun row hrow => absurd hrow List.not_mem_nil
    | ok rows =>
      rw [hquery, Attempt.query_eq_ok hquery] at h
      cases h
      refine hs.putSame hi fun row hrow => ⟨row, ?_, rfl, rfl, rfl, rfl⟩
      have hmem := (List.mem_insertionSort _).mp (List.mem_of_mem_take hrow)
      exact (List.mem_filter.mp hmem).1
  · cases h
    exact hs.putSame hi fun row hrow => absurd hrow List.not_mem_nil
  · cases h
    have hsame : InOrder display start (as ++ [a])
        (s.put i (.tick (.generating row rest)) s.reports) := hs.putSame hi hjob
    exact ⟨hsame.rows, hsame.jobs⟩
  · simp only [State.stepTick] at h
    obtain ⟨hcarried, hrows⟩ := succeeded_filed attempt hlater (hjob row List.mem_cons_self) rfl
    have hcopies := fun row' hrow' => (JobInOrder.later hjob hcarried a) row' hrow'
    split at h
    · cases h
      exact hs.put hi hcarried hrows hcopies
    · cases h
      exact hs.put hi hcarried hrows fun row' hrow' => hcopies row' (List.mem_cons_of_mem _ hrow')
  · simp only [State.stepTick] at h
    cases h
    obtain ⟨hcarried, hrows⟩ := failed_filed attempt hlater rfl
    exact hs.put hi hcarried hrows fun row' hrow' =>
      (JobInOrder.later hjob hcarried a) row' (List.mem_cons_of_mem _ hrow')
  · cases h

/-- A step of the service. -/
theorem inOrder_next (hs : InOrder display start as s)
    (hpre : run (next display) start as = some s) (h : next display s a = some s') :
    InOrder display start (as ++ [a]) s' := by
  cases a with
  | spawn task =>
    cases h
    refine ⟨fun r hr => (hs.rows r hr).later _, ?_⟩
    intro k job hk
    rcases getElem?_concat_cases hk with hk | ⟨-, rfl⟩
    · exact (hs.jobs k job hk).later (Carried.refl _) _
    · cases task with
      | enqueue today => trivial
      | request userId today => trivial
      | tick => exact fun row hrow => absurd hrow List.not_mem_nil
  | step i attempt =>
    obtain ⟨job, hi, hstep⟩ := Option.bind_eq_some_iff.mp h
    cases job with
    | enqueue today phase => exact inOrder_enqueue hs hpre hi h hstep
    | request userId today phase => exact inOrder_request hs hpre hi h hstep
    | tick phase => exact inOrder_tick hs hi hstep
  | drop i =>
    obtain ⟨job, hi, hstep⟩ := Option.bind_eq_some_iff.mp h
    cases hstep
    refine hs.putSame hi ?_
    cases job with
    | enqueue today phase => trivial
    | request userId today phase => trivial
    | tick phase => exact fun row hrow => absurd hrow List.not_mem_nil
  | subscribe subscriptions =>
    cases h
    exact ⟨fun r hr => (hs.rows r hr).later _,
      fun k job hk => (hs.jobs k job hk).later (Carried.refl _) _⟩

/-- Every state of a run that starts without a report. -/
theorem inOrder_run {subscriptions : Table Billing.Subscriptions.afterMigrations}
    (hrun : run (next display) (State.init Table.empty subscriptions) as = some s) :
    InOrder display (State.init Table.empty subscriptions) as s :=
  Transition.run_history
    ⟨by simp [State.init, Table.empty], by simp [State.init]⟩
    (fun _ _ _ _ hpre hs hnext => inOrder_next hs hpre hnext) hrun

end

/-! ### What the user finds -/

section
variable {t : Table monthlyReports} {userId : Uuid}

/-- The reports of a user, all of them, as `list_for_user` orders them. -/
def ordered (t : Table monthlyReports) (userId : Uuid) : List MonthlyReport :=
  (t.rows.filter (·.userId = userId)).insertionSort fun a b => b.periodStart ≤ a.periodStart

theorem mem_ordered {r : MonthlyReport} :
    r ∈ ordered t userId ↔ r ∈ t.rows ∧ r.userId = userId := by
  rw [ordered, List.mem_insertionSort, List.mem_filter, decide_eq_true_eq]

/-- No two reports of a user are for one period, so the order is strict. -/
theorem ordered_newest (t : Table monthlyReports) (userId : Uuid) :
    (ordered t userId).Pairwise fun a b => b.periodStart < a.periodStart := by
  have : Std.Total fun a b : MonthlyReport => b.periodStart ≤ a.periodStart :=
    ⟨fun a b => Date.le_total b.periodStart a.periodStart⟩
  have : IsTrans MonthlyReport fun a b => b.periodStart ≤ a.periodStart :=
    ⟨fun _ _ _ hab hbc => Date.le_trans hbc hab⟩
  have hsorted : (ordered t userId).Pairwise fun a b => b.periodStart ≤ a.periodStart :=
    List.pairwise_insertionSort _ _
  have hperiods : (ordered t userId).Pairwise fun a b => a.periodStart ≠ b.periodStart := by
    refine ((List.perm_insertionSort _ _).pairwise_iff fun h => Ne.symm h).mpr ?_
    refine List.Pairwise.imp_of_mem (fun ha hb hclash heq => ?_) (t.unique.filter _)
    have hsame := clash_iff.mpr ⟨(of_decide_eq_true (List.mem_filter.mp ha).2).trans
      (of_decide_eq_true (List.mem_filter.mp hb).2).symm, heq⟩
    rw [hclash] at hsame
    cases hsame
  exact hsorted.imp₂ (fun a b hle hne => Date.lt_of_le_of_ne hle (Ne.symm hne)) hperiods

end

/-- The answer to the list of a user: the newest reports, at most `pageSize` of them, each
of the user and asked for, with the user's own text. -/
structure InboxOf (display : DbError → String) (start : State) (as : List Action) (s : State)
    (userId : Uuid) (limit : Option Int) (inbox : List MonthlyReport) : Prop where
  size : inbox.length ≤ pageSize (limit.getD 12) ∧ pageSize (limit.getD 12) ≤ 24
  own : ∀ r ∈ inbox, r ∈ s.reports.rows ∧ r.userId = userId ∧ Filed display start as r
  newest : inbox.Pairwise fun a b => b.periodStart < a.periodStart
  complete : ∀ r ∈ s.reports.rows, r.userId = userId → r ∉ inbox →
    inbox.length = pageSize (limit.getD 12) ∧ ∀ x ∈ inbox, r.periodStart < x.periodStart

/-- In every run since the migration that created the table, with cron jobs, requests and
overlapping ticks that may fail or die at any step: the inbox of a user has the user's
newest reports and nothing else. Each report was inserted by a request of the user, or by a
cron job whose own SELECT had found the user subscribed, and is for the month before. A text
in it is the one for the user and the month, and a report that has succeeded has it. -/
theorem report_inbox {display : DbError → String} {s : State} {as : List Action}
    {subscriptions : Table Billing.Subscriptions.afterMigrations} {attempt : Attempt}
    {userId : Uuid} {limit : Option Int} {inbox : List MonthlyReport}
    (hrun : run (next display) (State.init Table.empty subscriptions) as = some s)
    (h : listMonthlyReports s.reports attempt userId limit = .ok inbox) :
    InboxOf display (State.init Table.empty subscriptions) as s userId limit inbox := by
  have hinbox : inbox = (ordered s.reports userId).take (pageSize (limit.getD 12)) :=
    Attempt.query_eq_ok h
  have hsplit := List.take_append_drop (pageSize (limit.getD 12)) (ordered s.reports userId)
  rw [← hinbox] at hsplit
  refine ⟨⟨?_, ?_⟩, ?_, ?_, ?_⟩
  · rw [hinbox]
    exact List.length_take_le _ _
  · unfold pageSize
    omega
  · intro r hr
    obtain ⟨hmem, huser⟩ := mem_ordered.mp (List.mem_of_mem_take (hinbox ▸ hr))
    exact ⟨hmem, huser, (inOrder_run hrun).rows r hmem⟩
  · rw [hinbox]
    exact (ordered_newest _ _).sublist (List.take_sublist _ _)
  · intro r hr huser hout
    have hmem : r ∈ ordered s.reports userId := mem_ordered.mpr ⟨hr, huser⟩
    rw [← hsplit] at hmem
    have hdrop : r ∈ (ordered s.reports userId).drop (pageSize (limit.getD 12)) :=
      (List.mem_append.mp hmem).resolve_left hout
    constructor
    · have hlt : pageSize (limit.getD 12) < (ordered s.reports userId).length := by
        by_contra hle
        rw [List.drop_eq_nil_of_le (Nat.le_of_not_lt hle)] at hdrop
        cases hdrop
      rw [hinbox, List.length_take]
      exact Nat.min_eq_left (Nat.le_of_lt hlt)
    · have hnewest := ordered_newest s.reports userId
      rw [← hsplit] at hnewest
      exact fun x hx => (List.pairwise_append.mp hnewest).2.2 x hx r hdrop

/-- `report_inbox` once a tick has generated the report. -/
theorem report_inbox_one_tick :
    ∃ s inbox, run (next brokenPipe) (State.init Table.empty Table.empty) oneTick = some s ∧
      inbox.map (·.status) = ["succeeded"] ∧
      InboxOf brokenPipe (State.init Table.empty Table.empty) oneTick s ⟨7⟩ none inbox := by
  have hsome : (run (next brokenPipe) (State.init Table.empty Table.empty) oneTick).map
      (fun s => (listForUser s.reports ⟨7⟩ 12).map (·.status)) = some ["succeeded"] := by
    decide +kernel
  obtain ⟨s, hs, hstatus⟩ := Option.map_eq_some_iff.mp hsome
  have hanswer : listMonthlyReports s.reports (.run 4 ⟨0⟩ true) ⟨7⟩ none
      = .ok (listForUser s.reports ⟨7⟩ 12) := rfl
  exact ⟨s, _, hs, hstatus, report_inbox hs hanswer⟩

end MizanConnect.Proofs.Billing.Inbox
