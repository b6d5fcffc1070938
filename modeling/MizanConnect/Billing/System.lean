import MizanConnect.Billing.AiProxy
import MizanConnect.Billing.Webhook
import MizanConnect.Lib.Run

/-!
# `MizanConnect.Billing.System`: the billing handlers side by side

`receive_webhook`, `chat` with its streaming task, and `record_usage`, cut at
their database statements. Any number of them run at once over the tables
of the six migrations. A job holds what its handler knows at a point, and an
open transaction holds the row versions it wrote.

The isolation is that of PostgreSQL at READ COMMITTED. A statement reads the
committed tables. A row that another transaction has written, or a
`stripe_events` key that it has inserted, blocks the statement until that
transaction is over. A commit lays the row versions over the tables, and a
transaction that is dropped leaves nothing. `fail` is a database error, a
lost upstream or a dropped task at any point before the commit. The
connection can also break after the COMMIT took effect: `unanswered` is that
step, and the handler then sees an error, as in `MizanConnect.Statement`.

`Sys.log` records the commits in order. No handler reads it.
-/

set_option autoImplicit false

namespace MizanConnect.Billing

open Repository
open Sql (Table)
open Subscriptions (Row afterMigrations)

/-- What the handlers use from outside. -/
structure SysContext where
  webhook : WebhookContext
  stream : StreamContext
  ai : AiConfig
  quotient : Nat → Rat

/-! ### `POST /v1/usage` -/

/-- `UsageRequest`. -/
structure UsageRequest where
  metric : String
  units : Int
  model : Option String
  kind : Option String

/-- `record_usage` of `src/billing/handlers.rs` up to the transaction. -/
def UsageRequest.check (req : UsageRequest) : Except AppError Unit :=
  if req.metric ∉ ["ai_reply", "broker_poll", "csv_intel", "market_refresh"] then
    .error (.badRequest "unknown metric")
  else if req.units < 0 then .error (.badRequest "units must be non-negative")
  else .ok ()

/-- The INSERT of `record_usage`, with no cost. -/
def UsageRequest.insert (userId : Uuid) (req : UsageRequest) : Except AppError LedgerRow := do
  req.check
  ofStatement (recordUsage userId req.metric req.units 0 req.model req.kind)

/-! ### Jobs -/

/-- A delivery: before the checks, in its transaction, or answered. -/
inductive WebhookPhase where
  | received
  | begun (billing : BillingConfig) (env : Envelope)
  | replay (billing : BillingConfig) (env : Envelope)
  | recorded (billing : BillingConfig) (env : Envelope)
  | resolved (billing : BillingConfig) (env : Envelope) (sub : SubscriptionObject)
      (userId : Uuid)
  | written (billing : BillingConfig) (env : Envelope) (rows : List Row)
  | finished (result : Except AppError Unit)

/-- A chat request of an authenticated user. `txTime` is the `NOW()` of its
ledger transaction. -/
structure ChatTask where
  userId : Uuid
  request : AiChatRequest
  txTime : Timestamp

/-- A chat: before the row is read, before the cap check, while the reply
streams, and in its ledger transaction. -/
inductive ChatPhase where
  | received
  | fetched (sub : Option SubscriptionRow)
  | streaming
  | charging (usage : TokenUsage)
  | ledgerWritten (row : LedgerRow)
  | bumped (row : LedgerRow) (rows : List Row)
  | finished

/-- A usage report: before the checks, in its transaction, or answered. -/
inductive UsagePhase where
  | received
  | written (row : LedgerRow)
  | finished

/-- A request and where its handler is. -/
inductive Job where
  | webhook (req : WebhookRequest) (phase : WebhookPhase)
  | chat (task : ChatTask) (phase : ChatPhase)
  | usage (userId : Uuid) (req : UsageRequest) (phase : UsagePhase)

/-- A new request. -/
inductive Task where
  | webhook (req : WebhookRequest)
  | chat (task : ChatTask)
  | usage (userId : Uuid) (req : UsageRequest)

/-- The job of a new request. -/
def Task.start : Task → Job
  | .webhook req => .webhook req .received
  | .chat task => .chat task .received
  | .usage userId req => .usage userId req .received

/-- The versions of `subscriptions` rows that the open transaction wrote. -/
def Job.rows : Job → List Row
  | .webhook _ (.written _ _ rows) => rows
  | .chat _ (.bumped _ rows) => rows
  | _ => []

/-- The `stripe_events` key that the open transaction inserted. -/
def Job.eventId : Job → Option String
  | .webhook _ (.recorded _ env) => some env.id
  | .webhook _ (.resolved _ env _ _) => some env.id
  | .webhook _ (.written _ env _) => some env.id
  | _ => none

/-- The job after an error. A finished job has none. -/
def Job.failed : Job → Option Job
  | .webhook _ (.finished _) => none
  | .webhook req _ => some (.webhook req (.finished (.error (AppError.ofDb .connection))))
  | .chat _ .finished => none
  | .chat task _ => some (.chat task .finished)
  | .usage _ _ .finished => none
  | .usage userId req _ => some (.usage userId req .finished)

/-! ### Commits -/

/-- A committed transaction. -/
inductive Commit where
  | delivery (billing : BillingConfig) (env : Envelope) (req : WebhookRequest)
  | charge (userId : Uuid) (txTime : Timestamp) (row : LedgerRow)
  | usage (row : LedgerRow)

/-- The ledger transaction of `run_stream` on its own: the ledger row, then
the counter. -/
def chargeTx (userId : Uuid) (txTime : Timestamp) (row : LedgerRow)
    (db : BillingDb afterMigrations) : Except DbError (BillingDb afterMigrations) := do
  let rows ← addAiCreditsUsed db.subscriptions txTime userId row.costCredits
  let subscriptions ← (db.subscriptions.write rows).mapError .violation
  return { db with subscriptions, ledger := db.ledger ++ [row] }

/-- The transaction run on its own. -/
def Commit.run (ctx : SysContext) (db : BillingDb afterMigrations) :
    Commit → Option (BillingDb afterMigrations)
  | .delivery billing env req => (webhookTx ctx.webhook billing env req db).toOption
  | .charge userId txTime row => (chargeTx userId txTime row db).toOption
  | .usage row => some { db with ledger := db.ledger ++ [row] }

/-! ### Steps -/

/-- What a step of a job does: it goes on, or it commits. -/
inductive Effect where
  | keep (job : Job)
  | commit (job : Job) (db : BillingDb afterMigrations) (c : Commit)

/-- No other transaction has written one of the rows. -/
def rowsFree (others : List Job) (rows : List Row) : Bool :=
  others.all fun job => job.rows.all fun r => rows.all fun w => r.id ≠ w.id

/-- A check: the job goes on with its result. -/
def goOn {ε α : Type} (result : Except ε α) (onError : ε → Job) (onOk : α → Job) : Effect :=
  match result with
  | .error e => .keep (onError e)
  | .ok a => .keep (onOk a)

/-- A statement that writes rows: it waits for their locks, and its error
ends the transaction. -/
def execRows {ε : Type} (others : List Job) (result : Except ε (List Row))
    (onError : ε → Job) (onRows : List Row → Job) : Option Effect :=
  match result with
  | .error e => some (.keep (onError e))
  | .ok rows => if rowsFree others rows then some (.keep (onRows rows)) else none

/-- The next step of a delivery. -/
def advanceWebhook (ctx : WebhookContext) (db : BillingDb afterMigrations) (others : List Job)
    (req : WebhookRequest) : WebhookPhase → Option Effect
  | .received =>
    some (goOn (admitWebhook ctx req) (fun e => .webhook req (.finished (.error e)))
      fun admitted => .webhook req (.begun admitted.1 admitted.2))
  | .begun billing env =>
    -- A concurrent inserter of the same key is waited for.
    if others.any fun job => job.eventId = some env.id then none
    else
      match tryRecordStripeEvent db.events env.id env.eventType with
      | (_, false) => some (.keep (.webhook req (.replay billing env)))
      | (_, true) => some (.keep (.webhook req (.recorded billing env)))
  | .replay billing env =>
    some (.commit (.webhook req (.finished (.ok ()))) db (.delivery billing env req))
  | .recorded billing env =>
    if isSubscriptionEvent env.eventType then
      match decodeObject "subscription" ctx.decodeSubscription env.object with
      | .error e => some (.keep (.webhook req (.finished (.error e))))
      | .ok sub =>
        -- The query for the user and the upsert are two statements.
        match resolveUserId db.subscriptions sub with
        | none => some (.keep (.webhook req (.written billing env [])))
        | some userId => some (.keep (.webhook req (.resolved billing env sub userId)))
    else if env.eventType = "invoice.paid" then
      match decodeObject "invoice" ctx.decodeInvoice env.object with
      | .error e => some (.keep (.webhook req (.finished (.error e))))
      | .ok invoice =>
        match invoice.subscription, ts invoice.periodStart with
        | some subId, some periodStart =>
          execRows others (ofStatement (resetAiCredits db.subscriptions req.txTime subId
            periodStart)) (fun e => .webhook req (.finished (.error e)))
            fun rows => .webhook req (.written billing env rows)
        | _, _ => some (.keep (.webhook req (.written billing env [])))
    else some (.keep (.webhook req (.written billing env [])))
  | .resolved billing env sub userId =>
    execRows others (ofStatement (upsertFromWebhook db.subscriptions req.txTime req.newId
      (upsertPayload billing.prices sub userId))) (fun e => .webhook req (.finished (.error e)))
      fun rows => .webhook req (.written billing env rows)
  | .written billing env rows =>
    match db.events.write [⟨env.id, env.eventType⟩], db.subscriptions.write rows with
    | .ok events, .ok subscriptions =>
      some (.commit (.webhook req (.finished (.ok ()))) { db with events, subscriptions }
        (.delivery billing env req))
    | _, _ => some (.keep (.webhook req (.finished (.error (AppError.ofDb .connection)))))
  | .finished _ => none

/-- The next step of a chat. The streaming phase ends by `Action.stream`. -/
def advanceChat (ctx : SysContext) (db : BillingDb afterMigrations) (others : List Job)
    (task : ChatTask) : ChatPhase → Option Effect
  | .received =>
    some (goOn (checkAiConfig ctx.ai) (fun _ => .chat task .finished)
      fun _ => .chat task (.fetched (fetchActive db.subscriptions task.userId)))
  | .fetched sub =>
    some (goOn (admitChat sub task.request.requestKind) (fun _ => .chat task .finished)
      fun _ => .chat task .streaming)
  | .streaming => none
  | .charging usage =>
    -- The errors of the ledger transaction are only logged.
    some (goOn (chargeLedgerRow task.userId (task.request.model.getD defaultModel)
        task.request.requestKind usage (usage.credits ctx.quotient))
      (fun _ => .chat task .finished) fun row => .chat task (.ledgerWritten row))
  | .ledgerWritten row =>
    execRows others (addAiCreditsUsed db.subscriptions task.txTime task.userId row.costCredits)
      (fun _ => .chat task .finished) fun rows => .chat task (.bumped row rows)
  | .bumped row rows =>
    match db.subscriptions.write rows with
    | .ok subscriptions =>
      some (.commit (.chat task .finished)
        { db with subscriptions, ledger := db.ledger ++ [row] }
        (.charge task.userId task.txTime row))
    | .error _ => some (.keep (.chat task .finished))
  | .finished => none

/-- The next step of a usage report. -/
def advanceUsage (db : BillingDb afterMigrations) (userId : Uuid) (req : UsageRequest) :
    UsagePhase → Option Effect
  | .received =>
    some (goOn (req.insert userId) (fun _ => .usage userId req .finished)
      fun row => .usage userId req (.written row))
  | .written row =>
    some (.commit (.usage userId req .finished) { db with ledger := db.ledger ++ [row] }
      (.usage row))
  | .finished => none

/-- The next step of a job beside the others. -/
def advance (ctx : SysContext) (db : BillingDb afterMigrations) (others : List Job) :
    Job → Option Effect
  | .webhook req phase => advanceWebhook ctx.webhook db others req phase
  | .chat task phase => advanceChat ctx db others task phase
  | .usage userId req phase => advanceUsage db userId req phase

/-- The end of the upstream stream of a chat. -/
def endStream (ctx : SysContext) (chunks : List Chunk) (connected : Nat → Bool) :
    Job → Option Job
  | .chat task .streaming =>
    match (runStream ctx.stream connected chunks).charged with
    | some usage => some (.chat task (.charging usage))
    | none => some (.chat task .finished)
  | _ => none

/-- The service: the committed tables, the jobs, and the commits so far, each
with the number of its job. -/
structure Sys where
  db : BillingDb afterMigrations
  jobs : List Job
  log : List (Nat × Commit)

/-- What happens next: a request comes in, a job takes its next step, a job
fails, a job commits and the answer to its COMMIT is lost, or the upstream
stream of a chat ends. -/
inductive Action where
  | spawn (task : Task)
  | advance (i : Nat)
  | fail (i : Nat)
  | unanswered (i : Nat)
  | stream (i : Nat) (chunks : List Chunk) (connected : Nat → Bool)

/-- A commit of the job without its answer: the tables are those after it, and
the job has failed. A step that does not commit has no such effect, since a lost
answer drops its transaction. -/
def Effect.unanswered (job : Job) : Effect → Option Effect
  | .keep _ => none
  | .commit _ db c => job.failed.map fun failed => .commit failed db c

/-- The job `i` after an effect. -/
def Sys.apply (s : Sys) (i : Nat) : Effect → Sys
  | .keep job => { s with jobs := s.jobs.set i job }
  | .commit job db c => { db, jobs := s.jobs.set i job, log := s.log ++ [(i, c)] }

/-- One step of the service. -/
def next (ctx : SysContext) (s : Sys) : Action → Option Sys
  | .spawn task => some { s with jobs := s.jobs ++ [task.start] }
  | .advance i => do
    let job ← s.jobs[i]?
    let effect ← advance ctx s.db (s.jobs.eraseIdx i) job
    return s.apply i effect
  | .fail i => do
    let job ← s.jobs[i]?
    let failed ← job.failed
    return s.apply i (.keep failed)
  | .unanswered i => do
    let job ← s.jobs[i]?
    let effect ← advance ctx s.db (s.jobs.eraseIdx i) job
    let lost ← effect.unanswered job
    return s.apply i lost
  | .stream i chunks connected => do
    let job ← s.jobs[i]?
    let ended ← endStream ctx chunks connected job
    return s.apply i (.keep ended)

/-- The service before its first request. -/
def Sys.init (db : BillingDb afterMigrations) : Sys := ⟨db, [], []⟩

end MizanConnect.Billing
