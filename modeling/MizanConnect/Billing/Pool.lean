import MizanConnect.Billing.System

/-!
# `MizanConnect.Billing.Pool`: webhook deliveries on the connection pool

`receive_webhook` of `src/billing/webhook.rs` again, now with the connections
that it takes from the pool of `src/db/pool.rs`. The pool has
`database_max_connections` of them. `begin` takes one, which the transaction
keeps until its commit or its drop. `resolve_user_id` is given the pool and
not the transaction, so its query takes a second one while the first is held.

Between these points a delivery does what `advanceWebhook` says. A `Stage`
adds to its `WebhookPhase` the two points where the handler waits for a
connection, and `Stage.phase` forgets them. The deliveries of a run are given
from the start, and a delivery that has not come in yet is `received`.

`fail` is an error at any point: a failed statement, the acquire timeout of
the pool, or a client that went away. It drops the transaction. `unanswered` is a
COMMIT that takes effect and whose answer is lost, as in
`MizanConnect.Billing.System`.
-/

set_option autoImplicit false

namespace MizanConnect.Billing.Pool

open Sql (Table)
open Subscriptions (afterMigrations)

/-- Where a delivery is: before its checks, waiting in `begin`, in its
transaction, waiting in `resolve_user_id`, in the query of
`resolve_user_id`, or answered. -/
inductive Stage where
  | received
  | beginning (billing : BillingConfig) (env : Envelope)
  | transaction (phase : WebhookPhase)
  | acquiring (billing : BillingConfig) (env : Envelope) (sub : SubscriptionObject)
  | querying (billing : BillingConfig) (env : Envelope) (sub : SubscriptionObject)
  | finished (result : Except AppError Unit)

/-- The phase of the handler without the pool. -/
def Stage.phase : Stage → WebhookPhase
  | .received => .received
  | .beginning billing env => .begun billing env
  | .transaction phase => phase
  | .acquiring billing env _ => .recorded billing env
  | .querying billing env _ => .recorded billing env
  | .finished result => .finished result

/-- The connections that a delivery holds. -/
def Stage.connections : Stage → Nat
  | .received => 0
  | .beginning _ _ => 0
  | .transaction _ => 1
  | .acquiring _ _ _ => 1
  | .querying _ _ _ => 2
  | .finished _ => 0

/-- The delivery waits for a connection while it holds one. -/
def Stage.isAcquiring : Stage → Bool
  | .acquiring _ _ _ => true
  | _ => false

/-- A request to the webhook and where its handler is. -/
structure Delivery where
  request : WebhookRequest
  stage : Stage

/-- The delivery as a job of the service. -/
def Delivery.job (d : Delivery) : Job := .webhook d.request d.stage.phase

/-- The delivery after a statement of its transaction. The answer gives the
connection back. -/
def Delivery.after (d : Delivery) : Job → Delivery
  | .webhook _ (.finished result) => { d with stage := .finished result }
  | .webhook _ phase => { d with stage := .transaction phase }
  | _ => d

/-- The committed tables and the deliveries. -/
structure State where
  db : BillingDb afterMigrations
  deliveries : List Delivery

/-- The service before the requests come in. -/
def State.init (db : BillingDb afterMigrations) (requests : List WebhookRequest) : State :=
  ⟨db, requests.map fun request => ⟨request, .received⟩⟩

/-- The connections in use. -/
def State.held (s : State) : Nat := (s.deliveries.map fun d => d.stage.connections).sum

/-- The deliveries as jobs of the service. -/
def State.jobs (s : State) : List Job := s.deliveries.map Delivery.job

/-- The delivery `i` becomes `d`. -/
def State.put (s : State) (i : Nat) (d : Delivery) : State :=
  { s with deliveries := s.deliveries.set i d }

/-- A statement on the connection of the transaction, or its commit. -/
def State.statement (s : State) (ctx : SysContext) (i : Nat) (d : Delivery)
    (phase : WebhookPhase) : Option State :=
  match advanceWebhook ctx.webhook s.db (s.jobs.eraseIdx i) d.request phase with
  | none => none
  | some (.keep job) => some (s.put i (d.after job))
  | some (.commit job db _) => some { s.put i (d.after job) with db }

/-- The next step of the delivery `i` with a pool of `n` connections. -/
def State.advance (s : State) (n : Nat) (ctx : SysContext) (i : Nat) (d : Delivery) :
    Option State :=
  match d.stage with
  | .received =>
    match admitWebhook ctx.webhook d.request with
    | .error e => some (s.put i { d with stage := .finished (.error e) })
    | .ok (billing, env) => some (s.put i { d with stage := .beginning billing env })
  | .beginning billing env =>
    -- `begin` takes a connection until the commit or the drop.
    if s.held < n then some (s.put i { d with stage := .transaction (.begun billing env) })
    else none
  | .transaction (.recorded billing env) =>
    -- A subscription event looks its user up on the pool. Every other statement
    -- runs on the connection of the transaction.
    if isSubscriptionEvent env.eventType then
      match decodeObject "subscription" ctx.webhook.decodeSubscription env.object with
      | .error e => some (s.put i { d with stage := .finished (.error e) })
      | .ok sub => some (s.put i { d with stage := .acquiring billing env sub })
    else s.statement ctx i d (.recorded billing env)
  | .transaction phase => s.statement ctx i d phase
  | .acquiring billing env sub =>
    if s.held < n then some (s.put i { d with stage := .querying billing env sub }) else none
  | .querying billing env sub =>
    match resolveUserId s.db.subscriptions sub with
    | none => some (s.put i { d with stage := .transaction (.written billing env []) })
    | some userId =>
      some (s.put i { d with stage := .transaction (.resolved billing env sub userId) })
  | .finished _ => none

/-- The commit of the delivery `i` without its answer: the tables are those after
it, and the delivery has failed. -/
def State.unanswered (s : State) (ctx : SysContext) (i : Nat) (d : Delivery) : Option State :=
  match Billing.advance ctx s.db (s.jobs.eraseIdx i) d.job, d.job.failed with
  | some (.commit _ db _), some failed => some { s.put i (d.after failed) with db }
  | _, _ => none

/-- What happens next: a delivery takes its next step, it fails, or it commits and
the answer to its COMMIT is lost. -/
inductive Action where
  | advance (i : Nat)
  | fail (i : Nat)
  | unanswered (i : Nat)
deriving DecidableEq

/-- One step. -/
def next (n : Nat) (ctx : SysContext) (s : State) : Action → Option State
  | .advance i => do
    let d ← s.deliveries[i]?
    s.advance n ctx i d
  | .fail i => do
    let d ← s.deliveries[i]?
    let failed ← d.job.failed
    return s.put i (d.after failed)
  | .unanswered i => do
    let d ← s.deliveries[i]?
    s.unanswered ctx i d

end MizanConnect.Billing.Pool
