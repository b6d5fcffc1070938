import MizanConnect.Billing.Prices
import MizanConnect.Billing.Repository
import MizanConnect.Billing.StripeClient

/-!
# `MizanConnect.Billing.Webhook`: the Stripe webhook handler

`src/billing/webhook.rs`. The handler has three parts.

* `admitWebhook`: the checks before the transaction (billing configured,
  signature, envelope).
* `webhookWrites`: what the transaction writes to `subscriptions` for an
  event that is not recorded yet. `resolve_user_id` reads the pool, so it
  takes the committed table.
* `webhookTx`: the whole transaction, from `begin` to `commit`.

`receiveWebhook` puts them together. A `?` inside the transaction drops it,
so an error leaves the tables as they were. The deserializers that
`#[derive(Deserialize)]` generates are parameters (`WebhookContext`).
-/

set_option autoImplicit false

namespace MizanConnect.Billing

open Sql (Schema Table)
open Repository

/-! ### Payload shapes -/

/-- `Envelope`. -/
structure Envelope where
  id : String
  eventType : String
  object : Json

/-- `SubscriptionItem`, with its `Price` and `PriceMetadata`. -/
structure SubscriptionItem where
  priceId : String
  metadataPlan : Option String

/-- `SubscriptionObject`. -/
structure SubscriptionObject where
  id : String
  customer : String
  status : String
  cancelAtPeriodEnd : Bool
  currentPeriodStart : Option Int
  currentPeriodEnd : Option Int
  items : List SubscriptionItem

/-- `InvoiceObject`. -/
structure InvoiceObject where
  subscription : Option String
  periodStart : Option Int

/-- The part of `BillingInner` that the webhook reads. -/
structure BillingConfig where
  prices : StripePrices
  webhookSecret : String

/-- What the handler uses from outside: the configuration, HMAC-SHA256 and
the deserializers. A deserializer fails with the text of its error. -/
structure WebhookContext where
  billing : Option BillingConfig
  hmac : String → Bytes → Bytes
  decodeEnvelope : Bytes → Except String Envelope
  decodeSubscription : Json → Except String SubscriptionObject
  decodeInvoice : Json → Except String InvoiceObject

/-- A request to `POST /v1/stripe/webhook`. `receivedAt` is the clock of
the server, `txTime` the `NOW()` of the transaction, and `newId` the primary
key an INSERT would generate. -/
structure WebhookRequest where
  signature : Option String
  body : Bytes
  receivedAt : Int
  txTime : Timestamp
  newId : Uuid

/-! ### Helpers -/

/-- `ts`. -/
def ts (unix : Option Int) : Option Timestamp := unix.bind fromUnixTimestamp

/-- `resolve_user_id`: the user of the first row with the customer. -/
def resolveUserId {S : Schema Subscriptions.Row Uuid} (t : Table S)
    (sub : SubscriptionObject) : Option Uuid :=
  (t.rows.find? fun r => r.stripeCustomerId = some sub.customer).map (·.userId)

/-- `resolve_tier`. -/
def resolveTier (sub : SubscriptionObject) (prices : StripePrices) : Option CheckoutPlan :=
  let byMetadata :=
    match (sub.items.filterMap (·.metadataPlan)).head? with
    | some plan => (CheckoutPlan.fromStr plan).toOption
    | none => none
  -- A plan in the metadata that is not known is no error: the prices are tried
  -- next.
  match byMetadata with
  | some p => some p
  | none => sub.items.findSome? fun item => prices.planFor item.priceId

/-- The tier slug that the handler stores. -/
def tierSlug (sub : SubscriptionObject) (prices : StripePrices) : String :=
  ((resolveTier sub prices).map CheckoutPlan.slug).getD "basic"

/-- The payload of `upsert_from_webhook`. -/
def upsertPayload (prices : StripePrices) (sub : SubscriptionObject) (userId : Uuid) :
    WebhookSubscriptionUpsert where
  userId := userId
  stripeCustomerId := sub.customer
  stripeSubscriptionId := sub.id
  tier := tierSlug sub prices
  status := sub.status
  currentPeriodStart := ts sub.currentPeriodStart
  currentPeriodEnd := ts sub.currentPeriodEnd
  cancelAtPeriodEnd := sub.cancelAtPeriodEnd

/-- The three event types that carry a subscription snapshot. -/
def isSubscriptionEvent (eventType : String) : Bool :=
  eventType = "customer.subscription.created" ||
    eventType = "customer.subscription.updated" ||
    eventType = "customer.subscription.deleted"

/-- `serde_json::from_value` on the event object, with the handler's error. -/
def decodeObject {α : Type} (what : String) (decode : Json → Except String α)
    (object : Json) : Except AppError α :=
  (decode object).mapError fun e => .badRequest (what ++ " payload: " ++ e)

/-! ### The handler -/

/-- `receive_webhook` up to the envelope: billing is configured, the
signature header is there and matches, and the body is an envelope. -/
def admitWebhook (ctx : WebhookContext) (req : WebhookRequest) :
    Except AppError (BillingConfig × Envelope) := do
  let billing ← match ctx.billing with
    | none => .error (.notImplemented "billing not configured")
    | some b => .ok b
  let sig ← match req.signature with
    | none => .error (.badRequest "missing Stripe-Signature header")
    | some s => .ok s
  let _ ← (verifyWebhook ctx.hmac billing.webhookSecret sig req.body req.receivedAt).mapError
    fun _ => AppError.unauthorized "invalid webhook signature"
  let envelope ← (ctx.decodeEnvelope req.body).mapError
    fun e => AppError.badRequest ("malformed webhook payload: " ++ e)
  return (billing, envelope)

section
variable {S : Schema Subscriptions.Row Uuid}

/-- The `match` of `receive_webhook` on an event that was not recorded: the
row versions the transaction writes to `subscriptions`. An unknown customer,
an invoice without subscription or period, and every other event type write
none. -/
def webhookWrites (ctx : WebhookContext) (billing : BillingConfig) (env : Envelope)
    (req : WebhookRequest) (t : Table S) : Except AppError (List Subscriptions.Row) :=
  if isSubscriptionEvent env.eventType then do
    let sub ← decodeObject "subscription" ctx.decodeSubscription env.object
    match resolveUserId t sub with
    -- A customer without a row is logged and skipped.
    | none => return []
    | some userId =>
      ofStatement (upsertFromWebhook t req.txTime req.newId
        (upsertPayload billing.prices sub userId))
  else if env.eventType = "invoice.paid" then do
    let invoice ← decodeObject "invoice" ctx.decodeInvoice env.object
    match invoice.subscription, ts invoice.periodStart with
    | some subId, some periodStart =>
      ofStatement (resetAiCredits t req.txTime subId periodStart)
    | _, _ => return []
  else return []

/-- The transaction of `receive_webhook`: record the event id, then write,
then commit. A recorded event commits with no write. -/
def webhookTx (ctx : WebhookContext) (billing : BillingConfig) (env : Envelope)
    (req : WebhookRequest) (db : BillingDb S) : Except AppError (BillingDb S) :=
  match tryRecordStripeEvent db.events env.id env.eventType with
  -- A replay: the handler answers `OK` and writes nothing.
  | (_, false) => .ok db
  | (recorded, true) => do
    let written ← webhookWrites ctx billing env req db.subscriptions
    let events ← ofStatement (db.events.write recorded)
    let subscriptions ← ofStatement (db.subscriptions.write written)
    return { db with events, subscriptions }

/-- `receive_webhook`: the response (`true` for `200 OK`) and the tables
after it. -/
def receiveWebhook (ctx : WebhookContext) (req : WebhookRequest) (db : BillingDb S) :
    Except AppError Unit × BillingDb S :=
  match admitWebhook ctx req with
  | .error e => (.error e, db)
  | .ok (billing, env) =>
    match webhookTx ctx billing env req db with
    | .error e => (.error e, db)
    | .ok db' => (.ok (), db')

end

end MizanConnect.Billing
