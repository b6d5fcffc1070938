import MizanConnect.Billing.Webhook

/-!
# `MizanConnect.Proofs.Billing.SnapshotUpsert`: subscription snapshots after 0005

A `customer.subscription.*` event reaches `upsert_from_webhook`, whose
INSERT names neither `team_id` nor a default for it. The migration 0005 made
the column NOT NULL, and PostgreSQL checks the NOT NULL columns of the
proposed row before it looks for a conflicting one. So the statement fails
whether or not a row with the subscription id exists
(`upsertFromWebhook_afterMigrations`), and the whole delivery fails with it:
`receiveWebhook_snapshot_fails` is the response and the state for every
table with a row of the customer.

`upsertCustomerStub_afterMigrations` is the same fact about the checkout
stub, so no code path adds a row to `subscriptions` after 0005.
-/

set_option autoImplicit false

namespace MizanConnect.Proofs.Billing

open MizanConnect.Billing
open MizanConnect.Billing.Repository
open MizanConnect.Billing.Subscriptions (Row afterMigrations)
open Sql (Table Violation)

/-- The proposed row of every webhook upsert misses `team_id`. -/
@[simp] theorem violation_proposedRow (now : Timestamp) (newId : Uuid)
    (p : WebhookSubscriptionUpsert) (status : SubscriptionStatus) :
    afterMigrations.violation (proposedRow now newId p status)
      = some (.notNull "team_id") := rfl

/-- `upsert_from_webhook` fails on every table, before it looks for the row
of the subscription. -/
theorem upsertFromWebhook_afterMigrations (t : Table afterMigrations) (now : Timestamp)
    (newId : Uuid) (p : WebhookSubscriptionUpsert) :
    ∃ v, upsertFromWebhook t now newId p = .error v ∧ v ≠ .unique := by
  unfold upsertFromWebhook upsertFromWebhookRows
  cases SubscriptionStatus.ofStr? p.status with
  | none => exact ⟨_, rfl, by simp⟩
  | some status =>
    refine ⟨.notNull "team_id", ?_, by simp⟩
    simp only [Table.upserted, violation_proposedRow]
    rfl

/-- `upsert_customer_stub` fails on every table for the same reason. -/
theorem upsertCustomerStub_afterMigrations (t : Table afterMigrations) (now : Timestamp)
    (newId userId : Uuid) (customer : String) :
    upsertCustomerStub t now newId userId customer
      = .error (.violation (.notNull "team_id")) := rfl

/-- The customer lookup finds a row when the table has one. -/
theorem resolveUserId_isSome {S : Sql.Schema Row Uuid} {t : Table S}
    {sub : SubscriptionObject} {r : Row} (hr : r ∈ t.rows)
    (hcustomer : r.stripeCustomerId = some sub.customer) :
    ∃ userId, resolveUserId t sub = some userId := by
  unfold resolveUserId
  rw [← Option.isSome_iff_exists, Option.isSome_map, List.find?_isSome]
  exact ⟨r, hr, by simpa using hcustomer⟩

/-- A snapshot of a known customer writes nothing and fails. -/
theorem webhookWrites_snapshot_fails (ctx : WebhookContext) (billing : BillingConfig)
    (env : Envelope) (req : WebhookRequest) (t : Table afterMigrations)
    (sub : SubscriptionObject) (userId : Uuid)
    (htype : isSubscriptionEvent env.eventType = true)
    (hdecode : ctx.decodeSubscription env.object = .ok sub)
    (huser : resolveUserId t sub = some userId) :
    webhookWrites ctx billing env req t = .error (.internal "database error") := by
  obtain ⟨v, hv, hne⟩ := upsertFromWebhook_afterMigrations t req.txTime req.newId
    (upsertPayload billing.prices sub userId)
  simp only [webhookWrites, htype, if_true, decodeObject, hdecode, Except.mapError,
    bind, Except.bind, huser, hv, ofStatement]
  -- Every violation but `.unique` is the internal error.
  cases v <;> first | rfl | exact absurd rfl hne

/-- What a delivered snapshot should leave: one row under its subscription
id, owned by the customer's user and equal to the payload, and every row of
another subscription id as it was. -/
structure SnapshotApplied (prices : StripePrices) (userId : Uuid) (sub : SubscriptionObject)
    (before after : BillingDb afterMigrations) : Prop where
  one : (after.subscriptions.rows.filter (hasSubscriptionId sub.id)).length = 1
  payload : ∀ r ∈ after.subscriptions.rows, r.stripeSubscriptionId = some sub.id →
    r.userId = userId ∧ r.status.asStr = sub.status ∧ r.tier = tierSlug sub prices ∧
      r.cancelAtPeriodEnd = sub.cancelAtPeriodEnd ∧
      r.currentPeriodStart = ts sub.currentPeriodStart ∧
      r.currentPeriodEnd = ts sub.currentPeriodEnd
  others : ∀ r ∈ before.subscriptions.rows, ∀ other, r.stripeSubscriptionId = some other →
    other ≠ sub.id → ∃ r' ∈ after.subscriptions.rows,
      r'.id = r.id ∧ r'.stripeSubscriptionId = some other ∧ r'.status = r.status ∧
        r'.tier = r.tier

/-- Every well-signed snapshot of a known customer fails with the internal
error and leaves the tables as they were, so it is never applied. Any row of
the customer will do: the stub, an old subscription, or a row from before
0005. -/
theorem receiveWebhook_snapshot_fails (ctx : WebhookContext) (req : WebhookRequest)
    (db : BillingDb afterMigrations) (billing : BillingConfig) (env : Envelope)
    (sub : SubscriptionObject) (r : Row)
    (hchecked : admitWebhook ctx req = .ok (billing, env))
    (htype : isSubscriptionEvent env.eventType = true)
    (hnew : ∀ e ∈ db.events.rows, e.stripeEventId ≠ env.id)
    (hdecode : ctx.decodeSubscription env.object = .ok sub)
    (hr : r ∈ db.subscriptions.rows)
    (hcustomer : r.stripeCustomerId = some sub.customer) :
    receiveWebhook ctx req db = (.error (.internal "database error"), db) ∧
      ¬ ((receiveWebhook ctx req db).1 = .ok () ∧
        SnapshotApplied billing.prices r.userId sub db (receiveWebhook ctx req db).2) := by
  obtain ⟨userId, huser⟩ := resolveUserId_isSome hr hcustomer
  have hwrites := webhookWrites_snapshot_fails ctx billing env req db.subscriptions sub
    userId htype hdecode huser
  have hrecord : tryRecordStripeEvent db.events env.id env.eventType
      = ([⟨env.id, env.eventType⟩], true) := by
    unfold tryRecordStripeEvent
    rw [if_neg]
    simpa using hnew
  have hrun : receiveWebhook ctx req db = (.error (.internal "database error"), db) := by
    simp only [receiveWebhook, hchecked, webhookTx, hrecord, hwrites, bind, Except.bind]
  refine ⟨hrun, ?_⟩
  rintro ⟨hok, -⟩
  rw [hrun] at hok
  cases hok

/-! ### The checkout stub, then `customer.subscription.created` -/

/-- The user and team of the fixed input. -/
def alice : Uuid := ⟨7⟩

/-- The row of the checkout stub, carried through the migration 0005. -/
def stubRow : Row where
  id := ⟨1⟩
  userId := alice
  stripeCustomerId := some "cus_1"
  stripeSubscriptionId := none
  tier := "basic"
  status := .incomplete
  currentPeriodStart := none
  currentPeriodEnd := none
  cancelAtPeriodEnd := false
  createdAt := 0
  updatedAt := 0
  aiCreditsUsed := 0
  aiCreditsPeriodStart := none
  teamId := some alice

/-- The tables with the stub row alone. -/
def stubDb : BillingDb afterMigrations where
  subscriptions := ⟨[stubRow], by decide, by decide, by decide⟩
  events := Table.empty
  ledger := []

/-- No Price id is configured. -/
def noPrices : StripePrices := ⟨"", "", "", "", "", ""⟩

/-- A signed body: the hexadecimal HMAC-SHA256 tag under `whsec` of
`1700000000.` and the body, and the envelope that the body parses to. -/
structure Sample where
  body : String
  tag : String
  envelope : Except String Envelope

/-- The delivery of a sample. -/
def Sample.request (x : Sample) : WebhookRequest where
  signature := some ("t=1700000000,v1=" ++ x.tag)
  body := asBytes x.body
  receivedAt := 1700000000
  txTime := 1700000000
  newId := ⟨2⟩

/-- The integer under a key. -/
def readInt (object : Json) (key : String) : Option Int :=
  match object.get? key with
  | some (.num literal) => parseI64 literal
  | _ => none

/-- An entry of `items.data`. -/
def readItem (item : Json) : Option SubscriptionItem :=
  match item.get? "price" with
  | some price =>
    match (price.get? "id").bind Json.asStr? with
    | some id => some ⟨id, ((price.get? "metadata").bind (·.get? "plan")).bind Json.asStr?⟩
    | none => none
  | none => none

/-- The entries of `items.data`. -/
def readItems (object : Json) : List SubscriptionItem :=
  match (object.get? "items").bind (·.get? "data") with
  | some (.arr items) => items.filterMap readItem
  | _ => []

/-- A subscription object. -/
def readSubscription (object : Json) : Except String SubscriptionObject :=
  match (object.get? "id").bind Json.asStr?, (object.get? "customer").bind Json.asStr?,
    (object.get? "status").bind Json.asStr?, object.get? "cancel_at_period_end" with
  | some id, some customer, some status, some (.bool cancelAtPeriodEnd) =>
    .ok ⟨id, customer, status, cancelAtPeriodEnd, readInt object "current_period_start",
      readInt object "current_period_end", readItems object⟩
  | _, _, _, _ => .error "missing field"

/-- A server that receives the samples. -/
def sampleWebhook (samples : List Sample) : WebhookContext where
  billing := some ⟨noPrices, "whsec"⟩
  hmac _ message :=
    match samples.find? fun x => message = asBytes ("1700000000." ++ x.body) with
    | some x => (hexDecode x.tag.toList).getD []
    | none => []
  decodeEnvelope body :=
    match samples.find? fun x => body = asBytes x.body with
    | some x => x.envelope
    | none => .error "expected value at line 1 column 1"
  decodeSubscription := readSubscription
  decodeInvoice object :=
    .ok ⟨(object.get? "subscription").bind Json.asStr?, readInt object "period_start"⟩

/-- A sample with a right tag is let through. -/
theorem admit_sample {samples : List Sample} {x : Sample} {env : Envelope}
    (hfind : (samples.find? fun y => asBytes x.body = asBytes y.body) = some x)
    (hsignature : (verifyWebhook (sampleWebhook samples).hmac "whsec"
      ("t=1700000000,v1=" ++ x.tag) (asBytes x.body) 1700000000).isOk = true)
    (henv : x.envelope = .ok env) :
    admitWebhook (sampleWebhook samples) x.request = .ok (⟨noPrices, "whsec"⟩, env) := by
  cases hverify : verifyWebhook (sampleWebhook samples).hmac "whsec"
      ("t=1700000000,v1=" ++ x.tag) (asBytes x.body) 1700000000 with
  | error e =>
    rw [hverify] at hsignature
    cases hsignature
  | ok ts =>
    simp only [sampleWebhook] at hverify
    simp only [admitWebhook, sampleWebhook, Sample.request, hverify, hfind, henv, bind,
      Except.bind, Except.mapError]
    rfl

/-- The snapshot of the first subscription of `cus_1`. -/
def createdSub : SubscriptionObject where
  id := "sub_1"
  customer := "cus_1"
  status := "active"
  cancelAtPeriodEnd := false
  currentPeriodStart := some 1700000000
  currentPeriodEnd := some 1702592000
  items := [⟨"price_basic", some "basic"⟩]

/-- Its event. -/
def createdEnvelope : Envelope where
  id := "evt_1"
  eventType := "customer.subscription.created"
  object := .obj [("id", .str "sub_1"), ("customer", .str "cus_1"), ("status", .str "active"),
    ("cancel_at_period_end", .bool false), ("current_period_start", .num "1700000000"),
    ("current_period_end", .num "1702592000"),
    ("items", .obj [("data", .arr [.obj [("price", .obj [("id", .str "price_basic"),
      ("metadata", .obj [("plan", .str "basic")])])]])])]

/-- The signed event. -/
def createdSample : Sample where
  body := "\x7b\"id\":\"evt_1\",\"type\":\"customer.subscription.created\"," ++
    "\"data\":\x7b\"object\":\x7b\"id\":\"sub_1\",\"customer\":\"cus_1\"," ++
    "\"status\":\"active\",\"cancel_at_period_end\":false," ++
    "\"current_period_start\":1700000000,\"current_period_end\":1702592000," ++
    "\"items\":\x7b\"data\":[\x7b\"price\":\x7b\"id\":\"price_basic\"," ++
    "\"metadata\":\x7b\"plan\":\"basic\"\x7d\x7d\x7d]\x7d\x7d\x7d\x7d"
  tag := "0c55b050a1af50bf49964bf57aaadeaddc3e660b2165118cb6cfa43ba710b2ae"
  envelope := .ok createdEnvelope

/-- A server that receives the event. -/
def createdContext : WebhookContext := sampleWebhook [createdSample]

/-- The signed delivery. -/
def createdRequest : WebhookRequest := createdSample.request

theorem createdRequest_admitted :
    admitWebhook createdContext createdRequest = .ok (⟨noPrices, "whsec"⟩, createdEnvelope) :=
  admit_sample (List.find?_cons_of_pos (by simp)) (by decide +kernel) rfl

/-- The hypotheses of `receiveWebhook_snapshot_fails` at the stub. -/
theorem receiveWebhook_snapshot_fails_stub :
    receiveWebhook createdContext createdRequest stubDb
      = (.error (.internal "database error"), stubDb) ∧
      ¬ ((receiveWebhook createdContext createdRequest stubDb).1 = .ok () ∧
        SnapshotApplied noPrices alice createdSub stubDb
          (receiveWebhook createdContext createdRequest stubDb).2) :=
  receiveWebhook_snapshot_fails createdContext createdRequest stubDb ⟨noPrices, "whsec"⟩
    createdEnvelope createdSub stubRow createdRequest_admitted rfl
    (by simp [stubDb, Table.empty]) rfl (by simp [stubDb]) rfl

/-- The stub links `cus_1` to the user, who has no billable row, and the event
is new, well signed and of a valid status. Its delivery is not applied. -/
theorem snapshot_of_stub_not_applied :
    (∃ r ∈ stubDb.subscriptions.rows,
        r.stripeCustomerId = some createdSub.customer ∧ r.userId = alice) ∧
      (∀ r ∈ stubDb.subscriptions.rows, r.userId = alice → r.status.billable = false) ∧
      (admitWebhook createdContext createdRequest).isOk = true ∧
      stubDb.events.rows = [] ∧
      (SubscriptionStatus.ofStr? createdSub.status).isSome = true ∧
      ¬ ((receiveWebhook createdContext createdRequest stubDb).1 = .ok () ∧
        SnapshotApplied noPrices alice createdSub stubDb
          (receiveWebhook createdContext createdRequest stubDb).2) := by
  refine ⟨?_, ?_, ?_, rfl, rfl, ?_⟩
  · simp [stubDb, stubRow, createdSub]
  · simp [stubDb, stubRow, SubscriptionStatus.billable]
  · rw [createdRequest_admitted]
    rfl
  · rintro ⟨hok, -⟩
    unfold receiveWebhook at hok
    rw [createdRequest_admitted] at hok
    cases hok

end MizanConnect.Proofs.Billing
