import MizanConnect.Error
import MizanConnect.Lib.Best
import MizanConnect.Types

/-!
# `MizanConnect.Billing.Repository`: SQL for subscriptions, ledger and events

`src/billing/repository.rs`, over the tables of `migrations/`.

`Subscriptions.beforeTeams` is the schema of `subscriptions` after the
migrations 0001 to 0004, and `Subscriptions.afterMigrations` the one after
all six: 0005 adds the NOT NULL column `team_id` and its partial unique
index. The queries take the schema as a parameter. The foreign keys to
`users` and `teams` are left out, because no query here can break them.

A query that writes inside a transaction returns the row versions it
writes. The commit of the transaction lays them over the table
(`Sql.Table.write`).
-/

set_option autoImplicit false

namespace MizanConnect.Billing

open Sql (Schema Table Violation uniqueOn)

/-! ### The tables -/

/-- The enum type `subscription_status`. -/
inductive SubscriptionStatus where
  | active
  | pastDue
  | canceled
  | trialing
  | incomplete
  | incompleteExpired
  | unpaid
deriving DecidableEq, Repr

/-- The enum label, `status::TEXT`. -/
def SubscriptionStatus.asStr : SubscriptionStatus → String
  | .active => "active"
  | .pastDue => "past_due"
  | .canceled => "canceled"
  | .trialing => "trialing"
  | .incomplete => "incomplete"
  | .incompleteExpired => "incomplete_expired"
  | .unpaid => "unpaid"

/-- The cast `$5::subscription_status`. -/
def SubscriptionStatus.ofStr? (s : String) : Option SubscriptionStatus :=
  [.active, .pastDue, .canceled, .trialing, .incomplete, .incompleteExpired, .unpaid].find?
    fun status => status.asStr = s

theorem SubscriptionStatus.ofStr?_asStr (status : SubscriptionStatus) :
    ofStr? status.asStr = some status := by
  cases status <;> decide

/-- `status IN ('active', 'trialing', 'past_due')`. -/
def SubscriptionStatus.billable : SubscriptionStatus → Bool
  | .active | .trialing | .pastDue => true
  | _ => false

namespace Subscriptions

/-- A row of `subscriptions`. -/
structure Row where
  id : Uuid
  userId : Uuid
  stripeCustomerId : Option String
  stripeSubscriptionId : Option String
  tier : String
  status : SubscriptionStatus
  currentPeriodStart : Option Timestamp
  currentPeriodEnd : Option Timestamp
  cancelAtPeriodEnd : Bool
  createdAt : Timestamp
  updatedAt : Timestamp
  aiCreditsUsed : Int
  aiCreditsPeriodStart : Option Timestamp
  teamId : Option Uuid
deriving DecidableEq, Repr

/-- The slugs of the constraint `subscriptions_tier_check`. -/
def tierSlugs : List String := ["basic", "essentials", "duo", "plus", "pro", "enterprise"]

/-- The row-local constraints of the migrations 0001 to 0004. -/
def baseViolation (r : Row) : Option Violation :=
  if isI32 r.aiCreditsUsed = false then some (.outOfRange "ai_credits_used")
  else if r.tier ∉ tierSlugs then some (.check "subscriptions_tier_check")
  else none

/-- The unique indexes of the migrations 0001 to 0004. -/
def baseClash (a b : Row) : Bool :=
  uniqueOn Row.stripeCustomerId a b || uniqueOn Row.stripeSubscriptionId a b ||
    uniqueOn (fun r => if r.status.billable then some r.userId else none) a b

theorem baseClash_comm (a b : Row) : baseClash a b = baseClash b a := by
  unfold baseClash
  rw [Sql.uniqueOn_comm Row.stripeCustomerId a b,
    Sql.uniqueOn_comm Row.stripeSubscriptionId a b, Sql.uniqueOn_comm _ a b]

/-- `subscriptions` after the migrations 0001 to 0004. -/
def beforeTeams : Schema Row Uuid where
  key := Row.id
  violation := baseViolation
  clash := baseClash
  clash_comm := baseClash_comm

/-- The unique index `idx_subscriptions_team_active` of the migration 0005. -/
def teamClash (a b : Row) : Bool :=
  uniqueOn (fun r : Row => if r.status.billable then r.teamId else none) a b

/-- `subscriptions` after all six migrations. `team_id` has no default. -/
def afterMigrations : Schema Row Uuid where
  key := Row.id
  violation r :=
    if r.teamId = none then some (.notNull "team_id") else baseViolation r
  clash a b := baseClash a b || teamClash a b
  clash_comm a b := by
    rw [baseClash_comm, teamClash, Sql.uniqueOn_comm]
    rfl

end Subscriptions

/-- The enum type `usage_metric`. -/
inductive UsageMetric where
  | aiReply
  | brokerPoll
  | csvIntel
  | marketRefresh
deriving DecidableEq, Repr

/-- The cast `$2::usage_metric`. -/
def UsageMetric.ofStr? (s : String) : Option UsageMetric :=
  if s = "ai_reply" then some .aiReply
  else if s = "broker_poll" then some .brokerPoll
  else if s = "csv_intel" then some .csvIntel
  else if s = "market_refresh" then some .marketRefresh
  else none

/-- A row of `usage_ledger`. The two CHECK constraints are fields, so no
ledger holds a negative amount. -/
structure LedgerRow where
  userId : Uuid
  metric : UsageMetric
  units : Int
  costCredits : Int
  model : Option String
  kind : Option String
  units_nonneg : 0 ≤ units
  cost_nonneg : 0 ≤ costCredits

/-- A row of `stripe_events`. -/
structure StripeEvent where
  stripeEventId : String
  eventType : String
deriving DecidableEq, Repr

/-- `stripe_events`: its only constraint is the primary key. -/
def stripeEvents : Schema StripeEvent String where
  key := StripeEvent.stripeEventId
  violation _ := none
  clash _ _ := false
  clash_comm _ _ := rfl

/-- The billing tables. -/
structure BillingDb (S : Schema Subscriptions.Row Uuid) where
  subscriptions : Table S
  events : Table stripeEvents
  ledger : List LedgerRow

/-! ### The queries -/

namespace Repository

open Subscriptions (Row)

variable {S : Schema Row Uuid}

/-- `SubscriptionRow`: the columns `fetch_active` selects. -/
structure SubscriptionRow where
  userId : Uuid
  stripeCustomerId : Option String
  stripeSubscriptionId : Option String
  tier : String
  status : String
  currentPeriodEnd : Option Timestamp
  cancelAtPeriodEnd : Bool
  aiCreditsUsed : Int
  aiCreditsPeriodStart : Option Timestamp
deriving DecidableEq, Repr

/-- The columns of a row that `fetch_active` selects. -/
def SubscriptionRow.ofRow (r : Row) : SubscriptionRow where
  userId := r.userId
  stripeCustomerId := r.stripeCustomerId
  stripeSubscriptionId := r.stripeSubscriptionId
  tier := r.tier
  status := r.status.asStr
  currentPeriodEnd := r.currentPeriodEnd
  cancelAtPeriodEnd := r.cancelAtPeriodEnd
  aiCreditsUsed := r.aiCreditsUsed
  aiCreditsPeriodStart := r.aiCreditsPeriodStart

/-- `WHERE user_id = $1 AND status IN ('active', 'trialing', 'past_due')`. -/
def billableFor (userId : Uuid) (r : Row) : Bool :=
  r.userId = userId && r.status.billable

/-- `ORDER BY updated_at DESC LIMIT 1`. Rows that tie keep the table order. -/
def latest (rows : List Row) : Option Row :=
  Best.best (fun new old => decide (old.updatedAt < new.updatedAt)) rows

/-- `fetch_active`: the row under the partial unique index on `user_id`. -/
def fetchActive (t : Table S) (userId : Uuid) : Option SubscriptionRow :=
  (latest (t.rows.filter (billableFor userId))).map SubscriptionRow.ofRow

/-- `upsert_customer_stub`. `newId` is the generated primary key. -/
def upsertCustomerStub (t : Table S) (now : Timestamp) (newId userId : Uuid)
    (stripeCustomerId : String) : Except DbError (Table S) :=
  (t.upsert
    { id := newId, userId, stripeCustomerId := some stripeCustomerId,
      stripeSubscriptionId := none, tier := "basic", status := .incomplete,
      currentPeriodStart := none, currentPeriodEnd := none, cancelAtPeriodEnd := false,
      createdAt := now, updatedAt := now, aiCreditsUsed := 0, aiCreditsPeriodStart := none,
      teamId := none }
    (fun r => r.stripeCustomerId = some stripeCustomerId)
    (fun r => { r with updatedAt := now })).mapError .violation

/-- `WHERE user_id = $1 AND stripe_customer_id IS NOT NULL`. -/
def hasCustomer (userId : Uuid) (r : Row) : Bool :=
  r.userId = userId && r.stripeCustomerId.isSome

/-- `fetch_customer_id`. -/
def fetchCustomerId (t : Table S) (userId : Uuid) : Option String :=
  (latest (t.rows.filter (hasCustomer userId))).bind (·.stripeCustomerId)

/-- `WebhookSubscriptionUpsert`. -/
structure WebhookSubscriptionUpsert where
  userId : Uuid
  stripeCustomerId : String
  stripeSubscriptionId : String
  tier : String
  status : String
  currentPeriodStart : Option Timestamp
  currentPeriodEnd : Option Timestamp
  cancelAtPeriodEnd : Bool

/-- The row `upsert_from_webhook` proposes. The column list of the INSERT
does not name `team_id`, so it is NULL. -/
def proposedRow (now : Timestamp) (newId : Uuid) (p : WebhookSubscriptionUpsert)
    (status : SubscriptionStatus) : Row where
  id := newId
  userId := p.userId
  stripeCustomerId := some p.stripeCustomerId
  stripeSubscriptionId := some p.stripeSubscriptionId
  tier := p.tier
  status := status
  currentPeriodStart := p.currentPeriodStart
  currentPeriodEnd := p.currentPeriodEnd
  cancelAtPeriodEnd := p.cancelAtPeriodEnd
  createdAt := now
  updatedAt := now
  aiCreditsUsed := 0
  aiCreditsPeriodStart := none
  teamId := none

/-- `DO UPDATE SET` of `upsert_from_webhook`. -/
def mergeRow (now : Timestamp) (p : WebhookSubscriptionUpsert) (status : SubscriptionStatus)
    (r : Row) : Row :=
  { r with
    status := status
    tier := p.tier
    currentPeriodStart := p.currentPeriodStart
    currentPeriodEnd := p.currentPeriodEnd
    cancelAtPeriodEnd := p.cancelAtPeriodEnd
    updatedAt := now }

/-- The row versions of `upsert_from_webhook`. -/
def upsertFromWebhookRows (t : Table S) (now : Timestamp) (newId : Uuid)
    (p : WebhookSubscriptionUpsert) : Except Violation (List Row) :=
  match SubscriptionStatus.ofStr? p.status with
  | none => .error (.badEnum "subscription_status")
  | some status =>
    t.upserted (proposedRow now newId p status)
      (fun r => r.stripeSubscriptionId = some p.stripeSubscriptionId)
      (mergeRow now p status)

/-- `upsert_from_webhook`. -/
def upsertFromWebhook (t : Table S) (now : Timestamp) (newId : Uuid)
    (p : WebhookSubscriptionUpsert) : Except Violation (List Row) := do
  t.exec (← upsertFromWebhookRows t now newId p)

/-- `SET ai_credits_used = 0, ai_credits_period_start = $2, updated_at = NOW()`. -/
def resetRow (now periodStart : Timestamp) (r : Row) : Row :=
  { r with aiCreditsUsed := 0, aiCreditsPeriodStart := some periodStart, updatedAt := now }

/-- `WHERE stripe_subscription_id = $1`. -/
def hasSubscriptionId (stripeSubscriptionId : String) (r : Row) : Bool :=
  r.stripeSubscriptionId = some stripeSubscriptionId

/-- The row versions of `reset_ai_credits`. -/
def resetAiCreditsRows (t : Table S) (now : Timestamp) (stripeSubscriptionId : String)
    (periodStart : Timestamp) : List Row :=
  t.updated (hasSubscriptionId stripeSubscriptionId) (resetRow now periodStart)

/-- `reset_ai_credits`. -/
def resetAiCredits (t : Table S) (now : Timestamp) (stripeSubscriptionId : String)
    (periodStart : Timestamp) : Except Violation (List Row) :=
  t.exec (resetAiCreditsRows t now stripeSubscriptionId periodStart)

/-- `record_usage`: the appended row, when the metric is one of the enum and
the two CHECK constraints hold. -/
def recordUsage (userId : Uuid) (metric : String) (units costCredits : Int)
    (model kind : Option String) : Except Violation LedgerRow :=
  match UsageMetric.ofStr? metric with
  | none => .error (.badEnum "usage_metric")
  | some m =>
    if hu : 0 ≤ units then
      if hc : 0 ≤ costCredits then
        .ok ⟨userId, m, units, costCredits, model, kind, hu, hc⟩
      else .error (.check "usage_ledger_cost_credits_check")
    else .error (.check "usage_ledger_units_check")

/-- `SET ai_credits_used = ai_credits_used + $2, updated_at = NOW()`. -/
def chargeRow (now : Timestamp) (credits : Int) (r : Row) : Row :=
  { r with aiCreditsUsed := r.aiCreditsUsed + credits, updatedAt := now }

/-- The row versions of `add_ai_credits_used`. -/
def addAiCreditsUsedRows (t : Table S) (now : Timestamp) (userId : Uuid) (credits : Int) :
    List Row :=
  t.updated (billableFor userId) (chargeRow now credits)

/-- `add_ai_credits_used`. `fetch_one` fails when the UPDATE returns no
row. -/
def addAiCreditsUsed (t : Table S) (now : Timestamp) (userId : Uuid) (credits : Int) :
    Except DbError (List Row) :=
  match t.exec (addAiCreditsUsedRows t now userId credits) with
  | .error v => .error (.violation v)
  | .ok [] => .error .rowNotFound
  | .ok rows => .ok rows

/-- `try_record_stripe_event`: the row that `INSERT … ON CONFLICT DO NOTHING`
writes, and whether it wrote one. -/
def tryRecordStripeEvent (t : Table stripeEvents) (eventId eventType : String) :
    List StripeEvent × Bool :=
  if t.rows.any fun e => e.stripeEventId = eventId then ([], false)
  else ([⟨eventId, eventType⟩], true)

end Repository

end MizanConnect.Billing
