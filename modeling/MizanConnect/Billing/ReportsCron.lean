import MizanConnect.Billing.Reports
import MizanConnect.Billing.Repository
import MizanConnect.Lib.Run
import MizanConnect.Statement

/-!
# `MizanConnect.Billing.ReportsCron`: the scheduler of the monthly reports

`src/billing/reports_cron.rs` and the POST handler of `src/billing/reports.rs`,
cut at their statements. Any number of enqueue jobs, requests and worker ticks
run at once over one table, on one instance or several. Every statement has an
`Attempt`.

`run_worker_tick` maps its rows lazily to spawned tasks and awaits each one
before it takes the next, so a tick generates its rows one after the other.

`State.handed` records the rows that `generate_one` was called with. No job
reads it.
-/

set_option autoImplicit false

namespace MizanConnect.Billing.Reports

open Calendar (Date)
open Sql (Table)

/-! ### The text of a report -/

/-- `month_name`. -/
def monthName : Nat → String
  | 1 => "January"
  | 2 => "February"
  | 3 => "March"
  | 4 => "April"
  | 5 => "May"
  | 6 => "June"
  | 7 => "July"
  | 8 => "August"
  | 9 => "September"
  | 10 => "October"
  | 11 => "November"
  | 12 => "December"
  | _ => "Unknown"

/-- The month label of `generate_one`. -/
def monthLabel (row : MonthlyReport) : String :=
  monthName row.periodStart.month.1 ++ " " ++ toString row.periodStart.year

/-- `placeholder_summary`. -/
def placeholderSummary (monthLabel : String) (userId : Uuid) : String :=
  "## Your " ++ monthLabel ++ " wealth summary\n\n" ++
    "_Coming soon._ The Mizan Connect cloud is wiring up the live AI-driven " ++
    "monthly report generator — once that lands, this card will show your " ++
    "net-worth delta, top movers, income received, goal progress, and " ++
    "liability trend for the month, generated from your own data.\n\n" ++
    "For now this is a placeholder so the report inbox and the rendering " ++
    "path can be exercised end-to-end.\n\n" ++
    "(Internal: user `" ++ userId.toString ++ "`.)\n\n" ++
    "*This summary is generated from your own data — not investment advice.*"

/-- The users that `run_enqueue` selects. -/
def subscribers (t : Table Subscriptions.afterMigrations) : List Uuid :=
  (t.rows.filter fun r => r.status = .active ∨ r.status = .trialing).map (·.userId)

/-- `WORKER_PARALLELISM`. -/
def workerParallelism : Nat := 5

/-! ### Jobs -/

/-- `run_enqueue`: before the query for the users, and in the loop over
them. -/
inductive EnqueuePhase where
  | starting
  | enqueuing (users : List Uuid)
  | finished

/-- `request_monthly_report`: before the INSERT, before the read of the row,
and answered. -/
inductive RequestPhase where
  | enqueuing
  | reading (inserted : Bool)
  | finished (result : Except AppError (Nat × MonthlyReport))

/-- `run_worker_tick`: before the fetch, between two rows, in `generate_one`
before `mark_succeeded`, and in it before `mark_failed`. -/
inductive TickPhase where
  | fetching
  | draining (rows : List MonthlyReport)
  | generating (row : MonthlyReport) (rest : List MonthlyReport)
  | failing (row : MonthlyReport) (reason : String) (rest : List MonthlyReport)
  | finished

/-- A job and where it is. `today` is the clock when it started. -/
inductive Job where
  | enqueue (today : Date) (phase : EnqueuePhase)
  | request (userId : Uuid) (today : Date) (phase : RequestPhase)
  | tick (phase : TickPhase)

/-- A new job. -/
inductive Task where
  | enqueue (today : Date)
  | request (userId : Uuid) (today : Date)
  | tick

/-- The job of a task. -/
def Task.start : Task → Job
  | .enqueue today => .enqueue today .starting
  | .request userId today => .request userId today .enqueuing
  | .tick => .tick .fetching

/-- The job after its process has died. -/
def Job.dropped : Job → Job
  | .enqueue today _ => .enqueue today .finished
  | .request userId today _ => .request userId today (.finished (.error connectionError))
  | .tick _ => .tick .finished

/-! ### Steps -/

/-- The tables, the jobs, and the rows that `generate_one` was called with. -/
structure State where
  reports : Table monthlyReports
  subscriptions : Table Subscriptions.afterMigrations
  jobs : List Job
  handed : List Uuid

/-- The service before its first job. -/
def State.init (reports : Table monthlyReports)
    (subscriptions : Table Subscriptions.afterMigrations) : State :=
  ⟨reports, subscriptions, [], []⟩

/-- The job `i` and the table of the reports after a step. -/
def State.put (s : State) (i : Nat) (job : Job) (reports : Table monthlyReports) : State :=
  { s with jobs := s.jobs.set i job, reports }

/-- A step of `run_enqueue`. The result of an INSERT is only logged. -/
def State.stepEnqueue (s : State) (i : Nat) (attempt : Attempt) (today : Date) :
    EnqueuePhase → Option State
  | .starting =>
    match attempt.query (subscribers s.subscriptions) with
    | .error _ => some (s.put i (.enqueue today .finished) s.reports)
    | .ok users => some (s.put i (.enqueue today (.enqueuing users)) s.reports)
  | .enqueuing [] => some (s.put i (.enqueue today .finished) s.reports)
  | .enqueuing (userId :: users) =>
    let window := previousMonthWindow today
    let outcome := attempt.execute s.reports fun now newId =>
      enqueuePending s.reports now newId userId window.1 window.2
    some (s.put i (.enqueue today (.enqueuing users)) outcome.2)
  | .finished => none

/-- A step of `request_monthly_report`. -/
def State.stepRequest (s : State) (i : Nat) (attempt : Attempt) (userId : Uuid) (today : Date) :
    RequestPhase → Option State
  | .enqueuing =>
    let window := previousMonthWindow today
    let outcome := attempt.execute s.reports fun now newId =>
      enqueuePending s.reports now newId userId window.1 window.2
    match outcome.1 with
    | .error e =>
      some (s.put i (.request userId today (.finished (.error (AppError.ofDb e)))) outcome.2)
    | .ok inserted => some (s.put i (.request userId today (.reading inserted)) outcome.2)
  | .reading inserted =>
    let row := fetchOneByPeriod s.reports userId (previousMonthWindow today).1
    let result := do
      match ← attempt.query row with
      | none => .error (.internal "report row vanished after enqueue")
      | some row => return (if inserted then 202 else 200, row)
    some (s.put i (.request userId today (.finished result)) s.reports)
  | .finished _ => none

/-- A step of `run_worker_tick`. `display` is the text of an error. -/
def State.stepTick (display : DbError → String) (s : State) (i : Nat) (attempt : Attempt) :
    TickPhase → Option State
  | .fetching =>
    -- The pending rows are read, and nothing marks them as taken.
    match attempt.query (fetchPending s.reports workerParallelism) with
    | .error _ => some (s.put i (.tick .finished) s.reports)
    | .ok rows => some (s.put i (.tick (.draining rows)) s.reports)
  | .draining [] => some (s.put i (.tick .finished) s.reports)
  | .draining (row :: rest) =>
    some { s.put i (.tick (.generating row rest)) s.reports with handed := s.handed ++ [row.id] }
  | .generating row rest =>
    let summary := placeholderSummary (monthLabel row) row.userId
    let outcome := attempt.execute s.reports fun now _ =>
      (markSucceeded s.reports now row.id summary "placeholder-stub" 0).map fun t => (t, ())
    -- An UPDATE that took effect and lost its answer is an error too.
    match outcome.1 with
    | .error e => some (s.put i (.tick (.failing row (display e) rest)) outcome.2)
    | .ok () => some (s.put i (.tick (.draining rest)) outcome.2)
  | .failing row reason rest =>
    let outcome := attempt.execute s.reports fun now _ =>
      (markFailed s.reports now row.id reason).map fun t => (t, ())
    some (s.put i (.tick (.draining rest)) outcome.2)
  | .finished => none

/-- What happens next: a job starts, a job takes its next step, the process of
a job dies, or the other handlers change the subscriptions. -/
inductive Action where
  | spawn (task : Task)
  | step (i : Nat) (attempt : Attempt)
  | drop (i : Nat)
  | subscribe (subscriptions : Table Subscriptions.afterMigrations)

/-- One step of the service. -/
def next (display : DbError → String) (s : State) : Action → Option State
  | .spawn task => some { s with jobs := s.jobs ++ [task.start] }
  | .step i attempt => do
    match ← s.jobs[i]? with
    | .enqueue today phase => s.stepEnqueue i attempt today phase
    | .request userId today phase => s.stepRequest i attempt userId today phase
    | .tick phase => s.stepTick display i attempt phase
  | .drop i => do
    let job ← s.jobs[i]?
    return s.put i job.dropped s.reports
  | .subscribe subscriptions => some { s with subscriptions }

end MizanConnect.Billing.Reports
