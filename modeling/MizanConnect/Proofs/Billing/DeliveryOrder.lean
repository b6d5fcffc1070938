import MizanConnect.Proofs.Billing.WebhookAtomic

/-!
# `MizanConnect.Proofs.Billing.DeliveryOrder`: events in any order

No column of `subscriptions` says how old the last snapshot is, and the
handler compares nothing: a snapshot overwrites the row, and an invoice resets
it when it is there. So the row of a subscription is that of its last
snapshot, with the credits of the last invoice that found a row.

`SubView` and `SubEvent.apply` say this of one subscription, apart from the
tables. `subView_deliver` shows that a delivery is one step of it, for every
schema in which the delivery succeeds: after the migration 0005 none does
(`upsertFromWebhook_afterMigrations`). `delivery_order` compares two
orders of the same deliveries, and `late_snapshot_revives` has two orders
that end differently.
-/

set_option autoImplicit false

namespace MizanConnect.Proofs.Billing

open MizanConnect.Billing
open MizanConnect.Billing.Repository
open MizanConnect.Billing.Subscriptions (Row)
open Sql (Schema Table)
open Transition (run)

/-! ### One subscription -/

/-- What a snapshot says of a subscription. -/
structure Snapshot where
  status : String
  tier : String
  currentPeriodStart : Option Timestamp
  currentPeriodEnd : Option Timestamp
  cancelAtPeriodEnd : Bool
deriving DecidableEq

/-- The AI credits of a subscription. -/
structure CreditState where
  used : Int
  periodStart : Option Timestamp
deriving DecidableEq

/-- A subscription that was created. -/
structure SubView where
  snapshot : Snapshot
  credits : CreditState
deriving DecidableEq

/-- A snapshot, or an invoice and the start of its period. -/
inductive SubEvent where
  | snapshot (x : Snapshot)
  | paid (periodStart : Option Timestamp)

/-- The subscription after an event. -/
def SubEvent.apply (v : Option SubView) : SubEvent → Option SubView
  | .snapshot x => some ⟨x, (v.map (·.credits)).getD ⟨0, none⟩⟩
  | .paid none => v
  | .paid (some p) => v.map fun x => { x with credits := ⟨0, some p⟩ }

/-- The last snapshot of the events. -/
def lastSnapshot : List SubEvent → Option Snapshot
  | [] => none
  | .snapshot x :: es => (lastSnapshot es).or (some x)
  | .paid _ :: es => lastSnapshot es

/-- The period of the last invoice that finds the subscription. `created` says
whether it is there before the events. -/
def lastPaid (created : Bool) : List SubEvent → Option Timestamp
  | [] => none
  | .snapshot _ :: es => lastPaid true es
  | .paid p :: es => (lastPaid created es).or (if created then p else none)

/-- The snapshot after the events is the last one. -/
theorem foldl_snapshot (es : List SubEvent) (v : Option SubView) :
    (es.foldl SubEvent.apply v).map (·.snapshot)
      = (lastSnapshot es).or (v.map (·.snapshot)) := by
  induction es generalizing v with
  | nil => rfl
  | cons e es ih =>
    rw [List.foldl_cons, ih]
    cases e with
    | snapshot x =>
      rw [lastSnapshot, Option.or_assoc]
      rfl
    | paid p =>
      rw [lastSnapshot]
      cases p with
      | none => rfl
      | some p => cases v <;> rfl

/-- The credits after the events are those of the last invoice that found the
subscription, or the ones that were there, or those of a new row. -/
theorem foldl_credits (es : List SubEvent) (v : Option SubView) :
    (es.foldl SubEvent.apply v).map (·.credits)
      = ((lastPaid v.isSome es).map fun p => ⟨0, some p⟩).or
        ((v.map (·.credits)).or ((lastSnapshot es).map fun _ => ⟨0, none⟩)) := by
  induction es generalizing v with
  | nil => cases v <;> rfl
  | cons e es ih =>
    rw [List.foldl_cons, ih]
    cases e with
    | snapshot x =>
      rw [lastPaid, lastSnapshot]
      -- A snapshot creates the row, whose credits an earlier invoice has not
      -- set.
      cases v with
      | none =>
        cases lastSnapshot es <;> rfl
      | some v => rfl
    | paid p =>
      rw [lastPaid, lastSnapshot]
      cases v with
      | none =>
        cases p with
        | none => simp [SubEvent.apply]
        | some p => simp [SubEvent.apply]
      | some v =>
        cases p with
        | none => simp [SubEvent.apply]
        | some p => cases lastPaid true es <;> simp [SubEvent.apply]

/-- There is a last snapshot when there is one. -/
theorem lastSnapshot_isSome_iff (es : List SubEvent) :
    (lastSnapshot es).isSome = true ↔ ∃ x, SubEvent.snapshot x ∈ es := by
  induction es with
  | nil => simp [lastSnapshot]
  | cons e es ih =>
    cases e with
    | snapshot x => simp [lastSnapshot]
    | paid p => simp [lastSnapshot, ih]

/-! ### Deliveries -/

/-- The schema has the key and the unique index that `ON CONFLICT
(stripe_subscription_id)` needs. -/
structure Keyed (S : Schema Row Uuid) : Prop where
  key : ∀ r, S.key r = r.id
  unique : ∀ a b id, a.stripeSubscriptionId = some id → b.stripeSubscriptionId = some id →
    S.clash a b = true

/-- The snapshot in a payload. -/
def Snapshot.of (prices : StripePrices) (sub : SubscriptionObject) : Snapshot where
  status := sub.status
  tier := tierSlug sub prices
  currentPeriodStart := ts sub.currentPeriodStart
  currentPeriodEnd := ts sub.currentPeriodEnd
  cancelAtPeriodEnd := sub.cancelAtPeriodEnd

/-- The snapshot in a row. -/
def Snapshot.ofRow (r : Row) : Snapshot where
  status := r.status.asStr
  tier := r.tier
  currentPeriodStart := r.currentPeriodStart
  currentPeriodEnd := r.currentPeriodEnd
  cancelAtPeriodEnd := r.cancelAtPeriodEnd

/-- The subscription in a row. -/
def SubView.ofRow (r : Row) : SubView :=
  ⟨Snapshot.ofRow r, ⟨r.aiCreditsUsed, r.aiCreditsPeriodStart⟩⟩

/-- The subscription in a table. -/
def subView {S : Schema Row Uuid} (t : Table S) (subscriptionId : String) : Option SubView :=
  (t.rows.find? (hasSubscriptionId subscriptionId)).map SubView.ofRow

/-- The event is about a subscription of a customer. -/
inductive Carries (ctx : WebhookContext) (billing : BillingConfig)
    (customer subscriptionId : String) (env : Envelope) : SubEvent → Prop where
  | snapshot (sub : SubscriptionObject) (htype : isSubscriptionEvent env.eventType = true)
    (hdecode : ctx.decodeSubscription env.object = .ok sub) (hid : sub.id = subscriptionId)
    (hcustomer : sub.customer = customer) :
    Carries ctx billing customer subscriptionId env (.snapshot (Snapshot.of billing.prices sub))
  | paid (invoice : InvoiceObject) (htype : env.eventType = "invoice.paid")
    (hdecode : ctx.decodeInvoice env.object = .ok invoice)
    (hsub : invoice.subscription = some subscriptionId) :
    Carries ctx billing customer subscriptionId env (.paid (ts invoice.periodStart))

/-- A signed delivery about a subscription of a customer. -/
structure Delivery (ctx : WebhookContext) (customer subscriptionId : String) where
  req : WebhookRequest
  billing : BillingConfig
  env : Envelope
  event : SubEvent
  admitted : admitWebhook ctx req = .ok (billing, env)
  carries : Carries ctx billing customer subscriptionId env event

/-- The tables after a delivery that is answered with `Ok`. -/
def deliver {S : Schema Row Uuid} (ctx : WebhookContext) (db : BillingDb S)
    (req : WebhookRequest) : Option (BillingDb S) :=
  match receiveWebhook ctx req db with
  | (.ok (), db') => some db'
  | (.error _, _) => none

section
variable {ctx : WebhookContext} {customer subscriptionId : String} {S : Schema Row Uuid}
  {db db' : BillingDb S} {t t' : Table S}

/-- A delivery that is let through is its transaction. -/
theorem deliver_eq (d : Delivery ctx customer subscriptionId) :
    deliver ctx db d.req = (webhookTx ctx d.billing d.env d.req db).toOption := by
  unfold deliver receiveWebhook
  rw [d.admitted]
  dsimp only
  cases webhookTx ctx d.billing d.env d.req db with
  | error e => rfl
  | ok x => rfl

/-- The row of a subscription. -/
theorem subView_of_mem (hS : Keyed S) {r : Row} (hr : r ∈ t.rows)
    (hsub : r.stripeSubscriptionId = some subscriptionId) :
    subView t subscriptionId = some (SubView.ofRow r) := by
  unfold subView
  cases hfind : t.rows.find? (hasSubscriptionId subscriptionId) with
  | none =>
    rw [List.find?_eq_none] at hfind
    exact absurd (decide_eq_true hsub) (hfind r hr)
  | some x =>
    have hhas : hasSubscriptionId subscriptionId x = true := List.find?_some hfind
    have hx : x.stripeSubscriptionId = some subscriptionId := of_decide_eq_true hhas
    -- The unique index leaves one row for the subscription.
    obtain rfl := t.eq_of_clash (List.mem_of_find?_eq_some hfind) hr
      (hS.unique x r subscriptionId hx hsub)
    rfl

theorem subView_eq_none (h : ∀ r ∈ t.rows, hasSubscriptionId subscriptionId r = false) :
    subView t subscriptionId = none := by
  rw [subView, List.find?_eq_none.mpr fun r hr => by simp [h r hr]]
  rfl

/-- A snapshot writes one row: the row of its subscription merged with it, or a
new one when there is none. -/
theorem upsertFromWebhook_cases {now : Timestamp} {newId : Uuid} {p : WebhookSubscriptionUpsert}
    {rows : List Row} (h : upsertFromWebhook t now newId p = .ok rows) :
    ∃ status : SubscriptionStatus, status.asStr = p.status ∧
      ((∃ old ∈ t.rows, old.stripeSubscriptionId = some p.stripeSubscriptionId ∧
          rows = [mergeRow now p status old]) ∨
        ((∀ r ∈ t.rows, hasSubscriptionId p.stripeSubscriptionId r = false) ∧
          rows = [proposedRow now newId p status] ∧
          ∀ r ∈ t.rows, S.key r ≠ S.key (proposedRow now newId p status))) := by
  obtain ⟨ws, hws, hexec⟩ := except_bind_eq_ok.mp h
  obtain ⟨rfl, -⟩ := Table.exec_ok_iff.mp hexec
  unfold upsertFromWebhookRows at hws
  split at hws
  · cases hws
  · rename_i status hstatus
    have hlabel : status.asStr = p.status := by
      have hfound := List.find?_some hstatus
      simpa using hfound
    rcases Table.upserted_cases hws with ⟨-, ⟨old, hold, harb, hrows⟩ | ⟨hnone, hrows, hkey⟩⟩
    · exact ⟨status, hlabel, Or.inl ⟨old, hold, of_decide_eq_true harb, hrows⟩⟩
    · exact ⟨status, hlabel, Or.inr ⟨hnone, hrows, hkey⟩⟩

/-- The key is the id of a row, and a reset keeps it. -/
theorem key_resetRow (hS : Keyed S) (now periodStart : Timestamp) (r : Row) :
    S.key (resetRow now periodStart r) = S.key r := by
  rw [hS.key, hS.key]
  rfl

/-- A snapshot writes the row of its subscription. -/
theorem subView_upsert (hS : Keyed S) {now : Timestamp} {newId : Uuid}
    {p : WebhookSubscriptionUpsert} {rows : List Row}
    (h : upsertFromWebhook t now newId p = .ok rows) (hwrite : t.write rows = .ok t') :
    subView t' p.stripeSubscriptionId = some
      ⟨⟨p.status, p.tier, p.currentPeriodStart, p.currentPeriodEnd, p.cancelAtPeriodEnd⟩,
        ((subView t p.stripeSubscriptionId).map (·.credits)).getD ⟨0, none⟩⟩ := by
  obtain ⟨status, hlabel, ⟨old, hold, hsub, rfl⟩ | ⟨hnone, rfl, -⟩⟩ := upsertFromWebhook_cases h
  · rw [subView_of_mem hS hold hsub,
      subView_of_mem hS ((Table.mem_write_singleton hwrite).mpr (Or.inl rfl)) hsub]
    simp [SubView.ofRow, Snapshot.ofRow, mergeRow, hlabel]
  · rw [subView_eq_none hnone,
      subView_of_mem hS ((Table.mem_write_singleton hwrite).mpr (Or.inl rfl)) rfl]
    simp [SubView.ofRow, Snapshot.ofRow, proposedRow, hlabel]

/-- An invoice resets the row of its subscription. -/
theorem subView_reset (hS : Keyed S) {now periodStart : Timestamp}
    (h : t.write (resetAiCreditsRows t now subscriptionId periodStart) = .ok t') :
    subView t' subscriptionId = (subView t subscriptionId).map fun x =>
      { x with credits := ⟨0, some periodStart⟩ } := by
  rw [subView, Table.write_updated_rows (key_resetRow hS now periodStart) h, List.find?_map]
  -- A reset does not change which row is found.
  have hsame : (hasSubscriptionId subscriptionId ∘ fun r =>
      if hasSubscriptionId subscriptionId r then resetRow now periodStart r else r)
      = hasSubscriptionId subscriptionId := by
    funext r
    rw [Function.comp_apply]
    split <;> rfl
  rw [hsame, subView]
  cases hfind : t.rows.find? (hasSubscriptionId subscriptionId) with
  | none => rfl
  | some r =>
    have hr : hasSubscriptionId subscriptionId r = true := List.find?_some hfind
    simp only [Option.map_some, if_pos hr]
    rfl

/-- The customer is known: it has a row. -/
def Known (t : Table S) (customer : String) : Prop :=
  ∃ r ∈ t.rows, r.stripeCustomerId = some customer

/-- A snapshot forgets no customer. -/
theorem known_upsert (hS : Keyed S) {now : Timestamp} {newId : Uuid} {p : WebhookSubscriptionUpsert}
    {rows : List Row} (h : upsertFromWebhook t now newId p = .ok rows)
    (hwrite : t.write rows = .ok t') (hknown : Known t customer) : Known t' customer := by
  obtain ⟨x, hx, hcustomer⟩ := hknown
  obtain ⟨status, -, ⟨old, hold, -, rfl⟩ | ⟨-, rfl, hkey⟩⟩ := upsertFromWebhook_cases h
  -- The customer's row is the merged one, which keeps its customer, or
  -- another one.
  · by_cases hsame : S.key x = S.key (mergeRow now p status old)
    · have hid : S.key x = S.key old := by
        rw [hsame, hS.key, hS.key]
        rfl
      obtain rfl := t.eq_of_key hx hold hid
      exact ⟨_, (Table.mem_write_singleton hwrite).mpr (Or.inl rfl), hcustomer⟩
    · exact ⟨x, (Table.mem_write_singleton hwrite).mpr (Or.inr ⟨hx, hsame⟩), hcustomer⟩
  · exact ⟨x, (Table.mem_write_singleton hwrite).mpr (Or.inr ⟨hx, hkey x hx⟩), hcustomer⟩

/-- A reset forgets no customer. -/
theorem known_reset (hS : Keyed S) {now periodStart : Timestamp}
    (h : t.write (resetAiCreditsRows t now subscriptionId periodStart) = .ok t')
    (hknown : Known t customer) : Known t' customer := by
  obtain ⟨x, hx, hcustomer⟩ := hknown
  rw [Known, Table.write_updated_rows (key_resetRow hS now periodStart) h]
  refine ⟨_, List.mem_map_of_mem hx, ?_⟩
  split
  · exact hcustomer
  · exact hcustomer

/-- What an event writes is one step of the subscription, and keeps the
customer. -/
theorem subView_writes (hS : Keyed S) {billing : BillingConfig} {env : Envelope}
    {event : SubEvent} {req : WebhookRequest} {rows : List Row}
    (hcarries : Carries ctx billing customer subscriptionId env event)
    (hknown : Known t customer) (hwrites : webhookWrites ctx billing env req t = .ok rows)
    (hwrite : t.write rows = .ok t') :
    subView t' subscriptionId = event.apply (subView t subscriptionId) ∧ Known t' customer := by
  unfold webhookWrites at hwrites
  cases hcarries with
  | snapshot sub htype hdecode hid hcustomer =>
    obtain ⟨x, hx, hxcustomer⟩ := hknown
    -- The customer has a row, so the snapshot has a user.
    obtain ⟨userId, huser⟩ := resolveUserId_isSome hx (hcustomer ▸ hxcustomer)
    rw [if_pos htype] at hwrites
    obtain ⟨sub', hsub', hwrites⟩ := except_bind_eq_ok.mp hwrites
    cases hdecode.symm.trans (mapError_eq_ok.mp hsub')
    rw [huser] at hwrites
    have hupsert := ofStatement_eq_ok.mp hwrites
    subst hid
    exact ⟨subView_upsert hS hupsert hwrite, known_upsert hS hupsert hwrite ⟨x, hx, hxcustomer⟩⟩
  | paid invoice htype hdecode hsub =>
    -- An invoice is no subscription event, so the other branch is taken.
    have hother : ¬ isSubscriptionEvent env.eventType = true := by
      rw [htype]
      decide
    rw [if_neg hother, if_pos htype] at hwrites
    obtain ⟨invoice', hinvoice', hwrites⟩ := except_bind_eq_ok.mp hwrites
    cases hdecode.symm.trans (mapError_eq_ok.mp hinvoice')
    rw [hsub] at hwrites
    cases hperiod : ts invoice.periodStart with
    | none =>
      rw [hperiod] at hwrites
      cases hwrites
      cases (Table.write_nil _).symm.trans hwrite
      exact ⟨rfl, hknown⟩
    | some periodStart =>
      rw [hperiod] at hwrites
      obtain ⟨hrows, -⟩ := Table.exec_ok_iff.mp (ofStatement_eq_ok.mp hwrites)
      rw [hrows] at hwrite
      exact ⟨subView_reset hS hwrite, known_reset hS hwrite hknown⟩

/-- A delivery is one step of the subscription, keeps the customer, and
records its event. -/
theorem subView_deliver (hS : Keyed S) (d : Delivery ctx customer subscriptionId)
    (hknown : Known db.subscriptions customer) (hnew : ¬ Recorded db d.env.id)
    (h : deliver ctx db d.req = some db') :
    subView db'.subscriptions subscriptionId
        = d.event.apply (subView db.subscriptions subscriptionId) ∧
      Known db'.subscriptions customer ∧
      ∀ id, Recorded db' id ↔ Recorded db id ∨ d.env.id = id := by
  obtain ⟨rows, events, subscriptions, hwrites, hevents, hsubs, rfl⟩ :=
    (webhookTx_new hnew).mp (toOption_eq_some.mp ((deliver_eq d).symm.trans h))
  obtain ⟨hview, hknown'⟩ := subView_writes hS d.carries hknown hwrites hsubs
  exact ⟨hview, hknown', recorded_write hevents⟩

/-- A run of deliveries is the run of their transactions. -/
theorem run_deliver (ds : List (Delivery ctx customer subscriptionId)) :
    run (deliver ctx) db (ds.map (·.req))
      = run (fun db d => (webhookTx ctx d.billing d.env d.req db).toOption) db ds := by
  induction ds generalizing db with
  | nil => rfl
  | cons d ds ih =>
    rw [List.map_cons, run, run, deliver_eq]
    exact Option.bind_congr fun m _ => ih

/-- Deliveries of distinct events are steps of the subscription. -/
theorem subView_run (hS : Keyed S) {ds : List (Delivery ctx customer subscriptionId)}
    (hknown : Known db.subscriptions customer) (hnew : ∀ d ∈ ds, ¬ Recorded db d.env.id)
    (hdistinct : (ds.map fun d => d.env.id).Nodup)
    (h : run (deliver ctx) db (ds.map (·.req)) = some db') :
    subView db'.subscriptions subscriptionId
      = (ds.map (·.event)).foldl SubEvent.apply (subView db.subscriptions subscriptionId) := by
  induction ds generalizing db with
  | nil =>
    cases h
    rfl
  | cons d ds ih =>
    obtain ⟨m, hm, hrest⟩ := Transition.run_cons_eq_some.mp h
    obtain ⟨hview, hknown', hrecorded⟩ :=
      subView_deliver hS d hknown (hnew d List.mem_cons_self) hm
    rw [List.map_cons, List.nodup_cons] at hdistinct
    rw [List.map_cons, List.foldl_cons, ← hview]
    refine ih hknown' (fun x hx hrec => ?_) hdistinct.2 hrest
    -- The events behind `d` are not recorded by it, since their ids differ.
    rcases (hrecorded x.env.id).mp hrec with hrec | hid
    · exact hnew x (List.mem_cons_of_mem d hx) hrec
    · exact hdistinct.1 (List.mem_map.mpr ⟨x, hx, hid.symm⟩)

end

/-- Two orders of the same events, delivered at any times, leave the same
status, tier, period and cancellation exactly when they end in the same
snapshot, and the same AI credits when the last invoice that finds the row is
of the same period. -/
theorem delivery_order (ctx : WebhookContext) (customer subscriptionId : String)
    (S : Schema Row Uuid) (hS : Keyed S) (db dbx dby : BillingDb S)
    (xs ys : List (Delivery ctx customer subscriptionId))
    (hknown : Known db.subscriptions customer)
    (hperm : (xs.map fun d => (d.env.id, d.event)).Perm (ys.map fun d => (d.env.id, d.event)))
    (hdistinct : (xs.map fun d => d.env.id).Nodup) (hnew : ∀ d ∈ xs, ¬ Recorded db d.env.id)
    (hx : run (deliver ctx) db (xs.map (·.req)) = some dbx)
    (hy : run (deliver ctx) db (ys.map (·.req)) = some dby) :
    (lastSnapshot (xs.map (·.event)) = lastSnapshot (ys.map (·.event)) ↔
      (subView dbx.subscriptions subscriptionId).map (·.snapshot)
        = (subView dby.subscriptions subscriptionId).map (·.snapshot)) ∧
    (lastPaid (subView db.subscriptions subscriptionId).isSome (xs.map (·.event))
        = lastPaid (subView db.subscriptions subscriptionId).isSome (ys.map (·.event)) →
      (subView dbx.subscriptions subscriptionId).map (·.credits)
        = (subView dby.subscriptions subscriptionId).map (·.credits)) := by
  have hids : (xs.map fun d => d.env.id).Perm (ys.map fun d => d.env.id) := by
    simpa [Function.comp_def] using hperm.map Prod.fst
  have hevents : (xs.map (·.event)).Perm (ys.map (·.event)) := by
    simpa [Function.comp_def] using hperm.map Prod.snd
  have hnewy : ∀ d ∈ ys, ¬ Recorded db d.env.id := fun d hd => by
    obtain ⟨x, hx, hid⟩ := List.mem_map.mp (hids.mem_iff.mpr (List.mem_map_of_mem hd))
    exact hid ▸ hnew x hx
  have hviewx := subView_run hS hknown hnew hdistinct hx
  have hviewy := subView_run hS hknown hnewy (hids.nodup_iff.mp hdistinct) hy
  -- Both orders have the same events, so both or neither have a snapshot.
  have hisSome : (lastSnapshot (xs.map (·.event))).isSome
      = (lastSnapshot (ys.map (·.event))).isSome := by
    rw [Bool.eq_iff_iff, lastSnapshot_isSome_iff, lastSnapshot_isSome_iff]
    exact exists_congr fun x => hevents.mem_iff
  constructor
  · rw [hviewx, hviewy, foldl_snapshot, foldl_snapshot]
    constructor
    · intro hlast
      rw [hlast]
    -- Two last snapshots are compared when there are any. Both orders have one,
    -- or neither has.
    · intro hsame
      cases hlx : lastSnapshot (xs.map (·.event)) with
      | none =>
        rw [hlx, Option.isSome_none] at hisSome
        exact (Option.isNone_iff_eq_none.mp (Option.isSome_eq_false_iff.mp hisSome.symm)).symm
      | some x =>
        rw [hlx, Option.isSome_some] at hisSome
        obtain ⟨y, hly⟩ := Option.isSome_iff_exists.mp hisSome.symm
        rw [hlx, hly, Option.some_or, Option.some_or] at hsame
        rw [hly, hsame]
  · intro hlast
    rw [hviewx, hviewy, foldl_credits, foldl_credits, hlast]
    cases hlx : lastSnapshot (xs.map (·.event)) with
    | none =>
      rw [hlx, Option.isSome_none] at hisSome
      rw [Option.isNone_iff_eq_none.mp (Option.isSome_eq_false_iff.mp hisSome.symm)]
    | some x =>
      rw [hlx, Option.isSome_some] at hisSome
      obtain ⟨y, hly⟩ := Option.isSome_iff_exists.mp hisSome.symm
      rw [hly]
      rfl

/-! ### A created, a deleted and a paid event -/

/-- A schema in which every delivery about one subscription succeeds. -/
def openSchema : Schema Row Uuid where
  key := Row.id
  violation _ := none
  clash := Sql.uniqueOn Row.stripeSubscriptionId
  clash_comm := Sql.uniqueOn_comm Row.stripeSubscriptionId

theorem keyed_openSchema : Keyed openSchema where
  key _ := rfl
  unique a b id ha hb := (Sql.uniqueOn_iff _ a b).mpr ⟨id, ha, hb⟩

/-- The tables with the checkout stub of `cus_1`. -/
def openDb : BillingDb openSchema where
  subscriptions := ⟨[stubRow], by decide, by decide, by decide⟩
  events := Table.empty
  ledger := []

/-- A snapshot event of `sub_1`. -/
def subscriptionEnvelope (id eventType status : String) : Envelope where
  id := id
  eventType := "customer.subscription." ++ eventType
  object := .obj [("id", .str "sub_1"), ("customer", .str "cus_1"), ("status", .str status),
    ("cancel_at_period_end", .bool false), ("items", .obj [("data", .arr [])])]

/-- The body of `subscriptionEnvelope`. -/
def subscriptionBody (id eventType status : String) : String :=
  "\x7b\"id\":\"" ++ id ++ "\",\"type\":\"customer.subscription." ++ eventType ++
    "\",\"data\":\x7b\"object\":\x7b\"id\":\"sub_1\",\"customer\":\"cus_1\"," ++
    "\"status\":\"" ++ status ++ "\",\"cancel_at_period_end\":false," ++
    "\"items\":\x7b\"data\":[]\x7d\x7d\x7d\x7d"

/-- The creation of `sub_1`. -/
def activeSample : Sample where
  body := subscriptionBody "evt_5" "created" "active"
  tag := "a14e0c4c752d83179e9ef4a7436458c6962b031e18c5be193ab6ea3cb36b292b"
  envelope := .ok (subscriptionEnvelope "evt_5" "created" "active")

/-- The end of `sub_1`. -/
def canceledSample : Sample where
  body := subscriptionBody "evt_6" "deleted" "canceled"
  tag := "49122415f270d7197d329c332502ac95344900e327e74e0fb4e063487c60a82c"
  envelope := .ok (subscriptionEnvelope "evt_6" "deleted" "canceled")

/-- The server of the three events. -/
def lifecycle : WebhookContext := sampleWebhook [activeSample, canceledSample, invoiceSample]

/-- The subscription in a sample. -/
def sampleSubscription (status : String) : SubscriptionObject :=
  ⟨"sub_1", "cus_1", status, false, none, none, []⟩

def createdDelivery : Delivery lifecycle "cus_1" "sub_1" where
  req := activeSample.request
  billing := ⟨noPrices, "whsec"⟩
  env := subscriptionEnvelope "evt_5" "created" "active"
  event := .snapshot (Snapshot.of noPrices (sampleSubscription "active"))
  admitted := admit_sample (List.find?_cons_of_pos (by simp)) (by decide +kernel) rfl
  carries := .snapshot (sampleSubscription "active") rfl rfl rfl rfl

def deletedDelivery : Delivery lifecycle "cus_1" "sub_1" where
  req := canceledSample.request
  billing := ⟨noPrices, "whsec"⟩
  env := subscriptionEnvelope "evt_6" "deleted" "canceled"
  event := .snapshot (Snapshot.of noPrices (sampleSubscription "canceled"))
  admitted := admit_sample
    ((List.find?_cons_of_neg (by decide +kernel)).trans (List.find?_cons_of_pos (by simp)))
    (by decide +kernel) rfl
  carries := .snapshot (sampleSubscription "canceled") rfl rfl rfl rfl

def paidDelivery : Delivery lifecycle "cus_1" "sub_1" where
  req := invoiceSample.request
  billing := ⟨noPrices, "whsec"⟩
  env := invoiceEnvelope "evt_1" "1700000000"
  event := .paid (ts (some 1700000000))
  admitted := admit_sample
    (((List.find?_cons_of_neg (by decide +kernel)).trans
      (List.find?_cons_of_neg (by decide +kernel))).trans (List.find?_cons_of_pos (by simp)))
    (by decide +kernel) rfl
  carries := .paid ⟨some "sub_1", some 1700000000⟩ rfl rfl rfl

/-- `delivery_order` at two orders that end alike: the row is canceled and
reset in both. -/
theorem delivery_order_paid_deleted :
    ∃ dbx dby, run (deliver lifecycle) openDb
        ([createdDelivery, paidDelivery, deletedDelivery].map (·.req)) = some dbx ∧
      run (deliver lifecycle) openDb
        ([createdDelivery, deletedDelivery, paidDelivery].map (·.req)) = some dby ∧
      (subView dbx.subscriptions "sub_1").map (·.snapshot)
        = (subView dby.subscriptions "sub_1").map (·.snapshot) ∧
      (subView dbx.subscriptions "sub_1").map (·.credits)
        = (subView dby.subscriptions "sub_1").map (·.credits) := by
  have hx : (run (deliver lifecycle) openDb
      ([createdDelivery, paidDelivery, deletedDelivery].map (·.req))).isSome = true := by
    rw [run_deliver]
    decide +kernel
  have hy : (run (deliver lifecycle) openDb
      ([createdDelivery, deletedDelivery, paidDelivery].map (·.req))).isSome = true := by
    rw [run_deliver]
    decide +kernel
  obtain ⟨dbx, hx⟩ := Option.isSome_iff_exists.mp hx
  obtain ⟨dby, hy⟩ := Option.isSome_iff_exists.mp hy
  have horder := delivery_order lifecycle "cus_1" "sub_1" openSchema keyed_openSchema openDb dbx
    dby [createdDelivery, paidDelivery, deletedDelivery]
    [createdDelivery, deletedDelivery, paidDelivery] ⟨stubRow, List.mem_cons_self, rfl⟩
    (.cons _ (.swap _ _ _)) (by decide) (fun d _ h => by
      obtain ⟨e, he, -⟩ := h
      cases he) hx hy
  exact ⟨dbx, dby, hx, hy, horder.1.mp rfl, horder.2 rfl⟩

/-- The two orders of a creation and a deletion: after the late creation the
deleted subscription is billable again. -/
theorem late_snapshot_revives :
    ∃ dbx dby, run (deliver lifecycle) openDb
        ([createdDelivery, deletedDelivery].map (·.req)) = some dbx ∧
      run (deliver lifecycle) openDb
        ([deletedDelivery, createdDelivery].map (·.req)) = some dby ∧
      (dbx.subscriptions.rows.filter (hasSubscriptionId "sub_1")).map (·.status)
        = [SubscriptionStatus.canceled] ∧
      (dby.subscriptions.rows.filter (hasSubscriptionId "sub_1")).map (·.status)
        = [SubscriptionStatus.active] ∧
      SubscriptionStatus.active.billable = true ∧
      (subView dbx.subscriptions "sub_1").map (·.snapshot)
        ≠ (subView dby.subscriptions "sub_1").map (·.snapshot) := by
  have hx : (run (deliver lifecycle) openDb
      ([createdDelivery, deletedDelivery].map (·.req))).map (fun db =>
        ((db.subscriptions.rows.filter (hasSubscriptionId "sub_1")).map (·.status),
          ((subView db.subscriptions "sub_1").map (·.snapshot)).map (·.status)))
      = some ([SubscriptionStatus.canceled], some "canceled") := by
    rw [run_deliver]
    decide +kernel
  have hy : (run (deliver lifecycle) openDb
      ([deletedDelivery, createdDelivery].map (·.req))).map (fun db =>
        ((db.subscriptions.rows.filter (hasSubscriptionId "sub_1")).map (·.status),
          ((subView db.subscriptions "sub_1").map (·.snapshot)).map (·.status)))
      = some ([SubscriptionStatus.active], some "active") := by
    rw [run_deliver]
    decide +kernel
  obtain ⟨dbx, hrunx, hx⟩ := Option.map_eq_some_iff.mp hx
  obtain ⟨dby, hruny, hy⟩ := Option.map_eq_some_iff.mp hy
  obtain ⟨hstatusx, hviewx⟩ := Prod.mk.inj hx
  obtain ⟨hstatusy, hviewy⟩ := Prod.mk.inj hy
  refine ⟨dbx, dby, hrunx, hruny, hstatusx, hstatusy, rfl, fun hsame => ?_⟩
  rw [hsame, hviewy] at hviewx
  exact absurd hviewx (by decide)

end MizanConnect.Proofs.Billing
