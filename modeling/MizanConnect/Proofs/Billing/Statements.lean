import MizanConnect.Billing.AiProxy
import MizanConnect.Billing.Webhook
import MizanConnect.Proofs.Billing.SnapshotUpsert

/-!
# `MizanConnect.Proofs.Billing.Statements`: the two counter updates

After 0005 the statements that still change `subscriptions` are
`reset_ai_credits` and `add_ai_credits_used`. Both change the two counter
columns and `updated_at`, and nothing else. `frozen` is the rest of a row, and
`Patch` is a write that keeps it. `addAiCreditsUsed_some` and `resetAiCredits_eq` give the result of
each statement from the rows its condition selects, at most one row because
of the unique indexes. So a patch of other rows changes neither result
(`addAiCreditsUsed_patch`, `webhookWrites_patch`).
-/

set_option autoImplicit false

namespace MizanConnect.Proofs.Billing

open MizanConnect.Billing
open MizanConnect.Billing.Repository
open MizanConnect.Billing.Subscriptions (Row afterMigrations baseViolation baseClash teamClash)
open Sql (Table Violation)

/-! ### The frozen columns -/

/-- A row without its two counter columns and `updated_at`, which every charge and
every reset writes. -/
def frozen (r : Row) : Row :=
  { r with aiCreditsUsed := 0, aiCreditsPeriodStart := none, updatedAt := 0 }

@[simp] theorem frozen_resetRow (now periodStart : Timestamp) (r : Row) :
    frozen (resetRow now periodStart r) = frozen r := rfl

@[simp] theorem frozen_chargeRow (now : Timestamp) (credits : Int) (r : Row) :
    frozen (chargeRow now credits r) = frozen r := rfl

/-- The primary key is frozen. -/
theorem id_of_frozen {r w : Row} (h : frozen r = frozen w) : r.id = w.id := by
  simpa only [frozen] using congrArg Row.id h

/-- A condition on the frozen columns. -/
def OnFrozen (p : Row → Bool) : Prop := ∀ r r', frozen r = frozen r' → p r = p r'

theorem onFrozen_billableFor (userId : Uuid) : OnFrozen (billableFor userId) := by
  intro r r' h
  have huser := congrArg Row.userId h
  have hstatus := congrArg Row.status h
  simp only [frozen] at huser hstatus
  rw [billableFor, billableFor, huser, hstatus]

theorem onFrozen_hasSubscriptionId (subscriptionId : String) :
    OnFrozen (hasSubscriptionId subscriptionId) := by
  intro r r' h
  have hsub := congrArg Row.stripeSubscriptionId h
  simp only [frozen] at hsub
  rw [hasSubscriptionId, hasSubscriptionId, hsub]

/-- The unique indexes are on frozen columns. -/
theorem clash_of_frozen {r w : Row} (x : Row) (h : frozen w = frozen r) :
    afterMigrations.clash x w = afterMigrations.clash x r := by
  have huser := congrArg Row.userId h
  have hstatus := congrArg Row.status h
  have hcustomer := congrArg Row.stripeCustomerId h
  have hsub := congrArg Row.stripeSubscriptionId h
  have hteam := congrArg Row.teamId h
  simp only [frozen] at huser hstatus hcustomer hsub hteam
  simp only [afterMigrations, baseClash, teamClash, Sql.uniqueOn, huser, hstatus, hcustomer,
    hsub, hteam]

/-- Of the row-local constraints only the range of the counter is not on
frozen columns. -/
theorem violation_of_frozen {r w : Row} (h : frozen w = frozen r)
    (hr : afterMigrations.violation r = none) :
    afterMigrations.violation w
      = if isI32 w.aiCreditsUsed then none else some (.outOfRange "ai_credits_used") := by
  have htier := congrArg Row.tier h
  have hteam := congrArg Row.teamId h
  simp only [frozen] at htier hteam
  simp only [afterMigrations, baseViolation] at hr ⊢
  rw [htier, hteam]
  -- The old row passed every check, and all but the last look at frozen
  -- columns.
  split at hr
  · cases hr
  · rename_i hsome
    rw [if_neg hsome]
    split at hr
    · cases hr
    · split at hr
      · cases hr
      · rename_i hin
        rw [if_neg hin]
        cases isI32 w.aiCreditsUsed <;> rfl

/-- The counter of a row is in its range. -/
theorem isI32_used {t : Table afterMigrations} {r : Row} (hr : r ∈ t.rows) :
    isI32 r.aiCreditsUsed = true := by
  have hviolation := violation_of_frozen rfl (t.admitted r hr)
  rw [t.admitted r hr] at hviolation
  by_contra hrange
  rw [if_neg hrange] at hviolation
  cases hviolation

/-! ### Selected rows -/

/-- At most one row of a user is billable. -/
theorem filter_billableFor (t : Table afterMigrations) (userId : Uuid) :
    t.rows.filter (billableFor userId) = [] ∨ ∃ r ∈ t.rows,
      billableFor userId r = true ∧ t.rows.filter (billableFor userId) = [r] :=
  t.filter_cases (billableFor userId) fun a b ha hb => by
    simp only [billableFor, Bool.and_eq_true, decide_eq_true_eq] at ha hb
    simp [afterMigrations, baseClash, Sql.uniqueOn, ha.1, ha.2, hb.1, hb.2]

/-- At most one row has a subscription id. -/
theorem filter_hasSubscriptionId (t : Table afterMigrations) (subscriptionId : String) :
    t.rows.filter (hasSubscriptionId subscriptionId) = [] ∨ ∃ r ∈ t.rows,
      hasSubscriptionId subscriptionId r = true ∧
        t.rows.filter (hasSubscriptionId subscriptionId) = [r] :=
  t.filter_cases (hasSubscriptionId subscriptionId) fun a b ha hb => by
    simp only [hasSubscriptionId, decide_eq_true_eq] at ha hb
    simp [afterMigrations, baseClash, Sql.uniqueOn, ha, hb]

/-- The row that `billableFor` selects. -/
theorem of_filter_billableFor {rows : List Row} {userId : Uuid} {r : Row}
    (h : rows.filter (billableFor userId) = [r]) :
    r.userId = userId ∧ r.status.billable = true := by
  have hmem : r ∈ rows.filter (billableFor userId) := h ▸ List.mem_singleton_self r
  have hbill := (List.mem_filter.mp hmem).2
  simpa only [billableFor, Bool.and_eq_true, decide_eq_true_eq] using hbill

/-! ### The statements -/

/-- Without a billable row there is nothing to charge. -/
theorem addAiCreditsUsed_none {t : Table afterMigrations} {userId : Uuid} (now : Timestamp)
    (credits : Int) (h : t.rows.filter (billableFor userId) = []) :
    addAiCreditsUsed t now userId credits = .error .rowNotFound := by
  have hrows : addAiCreditsUsedRows t now userId credits = [] := by
    rw [addAiCreditsUsedRows, Table.updated, h, List.map_nil]
  simp only [addAiCreditsUsed, hrows, Table.exec, Table.write_nil]
  rfl

/-- A charge writes the one billable row, unless the counter leaves its
range. -/
theorem addAiCreditsUsed_some {t : Table afterMigrations} {userId : Uuid} {r : Row}
    (now : Timestamp) (credits : Int) (hr : r ∈ t.rows)
    (h : t.rows.filter (billableFor userId) = [r]) :
    addAiCreditsUsed t now userId credits =
      if isI32 (r.aiCreditsUsed + credits) then .ok [chargeRow now credits r]
      else .error (.violation (.outOfRange "ai_credits_used")) := by
  have hrows : addAiCreditsUsedRows t now userId credits = [chargeRow now credits r] := by
    rw [addAiCreditsUsedRows, Table.updated, h, List.map_singleton]
  have hviolation := violation_of_frozen (frozen_chargeRow now credits r) (t.admitted r hr)
  have hused : (chargeRow now credits r).aiCreditsUsed = r.aiCreditsUsed + credits := rfl
  rw [hused] at hviolation
  unfold addAiCreditsUsed
  rw [hrows]
  -- In range the version can be written. Out of range the row-local check fails
  -- before the indexes are looked at.
  split_ifs with hrange
  · rw [if_pos hrange] at hviolation
    obtain ⟨t', ht'⟩ := t.write_version_ok (w := chargeRow now credits r) hr rfl hviolation
      fun x hx => by rwa [clash_of_frozen x (frozen_chargeRow now credits r)] at hx
    rw [Table.exec_ok_iff.mpr ⟨rfl, t', ht'⟩]
  · rw [if_neg hrange] at hviolation
    have hwrite : t.write [chargeRow now credits r] = .error (.outOfRange "ai_credits_used") := by
      simp only [Table.write, List.findSome?_cons, hviolation]
    simp only [Table.exec, hwrite]
    rfl

/-- A reset always succeeds. -/
theorem resetAiCredits_eq (t : Table afterMigrations) (now : Timestamp)
    (subscriptionId : String) (periodStart : Timestamp) :
    resetAiCredits t now subscriptionId periodStart
      = .ok (resetAiCreditsRows t now subscriptionId periodStart) := by
  refine Table.exec_ok_iff.mpr ⟨rfl, ?_⟩
  rw [resetAiCreditsRows, Table.updated]
  rcases filter_hasSubscriptionId t subscriptionId with hnone | ⟨r, hr, -, hone⟩
  · rw [hnone]
    exact ⟨t, t.write_nil⟩
  · rw [hone, List.map_singleton]
    refine t.write_version_ok hr rfl ?_ fun x hx => ?_
    · exact violation_of_frozen (frozen_resetRow now periodStart r) (t.admitted r hr)
    · rwa [clash_of_frozen x (frozen_resetRow now periodStart r)] at hx

/-- The subscription and the period start that an event resets. -/
def resetOf (ctx : WebhookContext) (env : Envelope) : Option (String × Timestamp) :=
  if env.eventType = "invoice.paid" then
    match ctx.decodeInvoice env.object with
    | .error _ => none
    | .ok invoice =>
      match invoice.subscription, ts invoice.periodStart with
      | some subscriptionId, some periodStart => some (subscriptionId, periodStart)
      | _, _ => none
  else none

/-- A snapshot event is not an invoice. -/
theorem resetOf_snapshot {ctx : WebhookContext} {env : Envelope}
    (h : isSubscriptionEvent env.eventType = true) : resetOf ctx env = none := by
  refine if_neg fun hinvoice => ?_
  rw [hinvoice] at h
  exact absurd h (by decide)

/-- The rows that the reset of an event writes. -/
def resetRows (ctx : WebhookContext) (env : Envelope) (req : WebhookRequest)
    (t : Table afterMigrations) : List Row :=
  match resetOf ctx env with
  | none => []
  | some (subscriptionId, periodStart) =>
    resetAiCreditsRows t req.txTime subscriptionId periodStart

/-- What the transaction writes for an event that it can process is the reset
of the event, if it has one. -/
theorem webhookWrites_ok {ctx : WebhookContext} {billing : BillingConfig} {env : Envelope}
    {req : WebhookRequest} {t : Table afterMigrations} {rows : List Row}
    (h : webhookWrites ctx billing env req t = .ok rows) : rows = resetRows ctx env req t := by
  unfold webhookWrites at h
  split at h
  · rename_i htype
    rw [resetRows, resetOf_snapshot htype]
    obtain ⟨sub, -, h⟩ := except_bind_eq_ok.mp h
    split at h
    · cases h
      rfl
    -- The upsert of a snapshot fails after 0005.
    · obtain ⟨v, hv, -⟩ := upsertFromWebhook_afterMigrations t req.txTime req.newId
        (upsertPayload billing.prices sub _)
      rw [hv] at h
      cases h
  · split at h
    · rename_i hinvoice
      obtain ⟨invoice, hdecode, h⟩ := except_bind_eq_ok.mp h
      have hdecode' : ctx.decodeInvoice env.object = .ok invoice := mapError_eq_ok.mp hdecode
      simp only [resetRows, resetOf, if_pos hinvoice, hdecode']
      cases hsub : invoice.subscription with
      | none =>
        rw [hsub] at h
        cases h
        rfl
      | some subscriptionId =>
        rw [hsub] at h
        cases hperiod : ts invoice.periodStart with
        | none =>
          rw [hperiod] at h
          cases h
          rfl
        | some periodStart =>
          rw [hperiod] at h
          simp only [resetAiCredits_eq] at h
          cases h
          rfl
    · rename_i hinvoice
      cases h
      rw [resetRows, resetOf, if_neg hinvoice]

/-! ### Patches -/

/-- A write of existing rows that leaves their frozen columns. -/
structure Patch (ws : List Row) (t t' : Table afterMigrations) : Prop where
  write : t.write ws = .ok t'
  versions : ∀ w ∈ ws, ∃ r ∈ t.rows, r.id = w.id ∧ frozen w = frozen r

theorem patch_nil (t : Table afterMigrations) : Patch [] t t :=
  ⟨t.write_nil, by simp⟩

/-- The version of a row has the frozen columns of the row. -/
theorem Patch.frozen_eq {ws : List Row} {t t' : Table afterMigrations} (h : Patch ws t t')
    {r w : Row} (hr : r ∈ t.rows) (hw : w ∈ ws) (hid : w.id = r.id) : frozen w = frozen r := by
  obtain ⟨x, hx, hxw, hfrozen⟩ := h.versions w hw
  cases t.eq_of_key hx hr (hxw.trans hid)
  exact hfrozen

/-- The rows after a patch, row by row. -/
theorem Patch.rows_eq {ws : List Row} {t t' : Table afterMigrations} (h : Patch ws t t') :
    ∃ f : Row → Row, t'.rows = t.rows.map f ∧ ∀ r ∈ t.rows, frozen (f r) = frozen r := by
  refine ⟨fun r => (ws.find? fun w => w.id = r.id).getD r, ?_, fun r hr => ?_⟩
  · rw [Table.write_rows h.write, Table.overlay_eq_map]
    · rfl
    · intro w hw
      obtain ⟨r, hr, hid, -⟩ := h.versions w hw
      exact ⟨r, hr, hid⟩
  · dsimp only
    cases hfind : ws.find? fun w => w.id = r.id with
    | none => rfl
    | some w =>
      exact h.frozen_eq hr (List.mem_of_find?_eq_some hfind) (by simpa using List.find?_some hfind)

/-- A patch of other rows does not change what a condition selects. -/
theorem Patch.filter_eq {ws : List Row} {t t' : Table afterMigrations} (h : Patch ws t t')
    {p : Row → Bool} (hp : OnFrozen p)
    (hapart : ∀ r ∈ t.rows, p r = true → ∀ w ∈ ws, w.id ≠ r.id) :
    t'.rows.filter p = t.rows.filter p := by
  rw [Table.write_rows h.write]
  refine Table.filter_overlay ?_ ?_ hapart
  · intro w hw
    obtain ⟨r, hr, hid, -⟩ := h.versions w hw
    exact ⟨r, hr, hid⟩
  · intro r hr w hw hid
    exact hp w r (h.frozen_eq hr hw hid)

/-- What a lookup reads of the row it finds, when a relabelling keeps the
condition and what is read. -/
theorem map_find?_map {β : Type} {p : Row → Bool} {g : Row → β} {f : Row → Row}
    {rows : List Row} (hp : ∀ r ∈ rows, p (f r) = p r) (hg : ∀ r ∈ rows, g (f r) = g r) :
    ((rows.map f).find? p).map g = (rows.find? p).map g := by
  induction rows with
  | nil => rfl
  | cons r rows ih =>
    have hrest := ih (fun x hx => hp x (List.mem_cons_of_mem r hx))
      fun x hx => hg x (List.mem_cons_of_mem r hx)
    rw [List.map_cons, List.find?_cons, List.find?_cons, hp r List.mem_cons_self]
    cases p r with
    | true => exact congrArg some (hg r List.mem_cons_self)
    | false => exact hrest

/-- A patch does not change whose customer it is. -/
theorem Patch.resolveUserId_eq {ws : List Row} {t t' : Table afterMigrations}
    (h : Patch ws t t') (sub : SubscriptionObject) :
    resolveUserId t' sub = resolveUserId t sub := by
  obtain ⟨f, hrows, hf⟩ := h.rows_eq
  rw [resolveUserId, resolveUserId, hrows]
  refine map_find?_map (fun r hr => ?_) fun r hr => ?_
  · have hcustomer := congrArg Row.stripeCustomerId (hf r hr)
    simp only [frozen] at hcustomer
    rw [hcustomer]
  · have huser := congrArg Row.userId (hf r hr)
    simpa only [frozen] using huser

/-- The rows of a reset, and of its versions, have the same keys. -/
theorem mem_resetAiCreditsRows {t : Table afterMigrations} {now periodStart : Timestamp}
    {subscriptionId : String} {r : Row} (hr : r ∈ t.rows)
    (hsub : hasSubscriptionId subscriptionId r = true) :
    resetRow now periodStart r ∈ resetAiCreditsRows t now subscriptionId periodStart :=
  List.mem_map_of_mem (List.mem_filter.mpr ⟨hr, hsub⟩)

/-- What an event writes does not change under a patch of other rows. -/
theorem webhookWrites_patch {ctx : WebhookContext} {billing : BillingConfig} {env : Envelope}
    {req : WebhookRequest} {t t' : Table afterMigrations} {rows ws : List Row}
    (hpatch : Patch ws t t') (h : webhookWrites ctx billing env req t = .ok rows)
    (hapart : ∀ r ∈ rows, ∀ w ∈ ws, w.id ≠ r.id) :
    webhookWrites ctx billing env req t' = .ok rows := by
  unfold webhookWrites at h ⊢
  split at h
  · rename_i htype
    rw [if_pos htype]
    obtain ⟨sub, hdecode, h⟩ := except_bind_eq_ok.mp h
    refine except_bind_eq_ok.mpr ⟨sub, hdecode, ?_⟩
    rw [hpatch.resolveUserId_eq]
    split at h
    · exact h
    · obtain ⟨v, hv, -⟩ := upsertFromWebhook_afterMigrations t req.txTime req.newId
        (upsertPayload billing.prices sub _)
      rw [hv] at h
      cases h
  · rename_i htype
    rw [if_neg htype]
    split at h
    · rename_i hinvoice
      rw [if_pos hinvoice]
      obtain ⟨invoice, hdecode, h⟩ := except_bind_eq_ok.mp h
      refine except_bind_eq_ok.mpr ⟨invoice, hdecode, ?_⟩
      split at h
      · rename_i subId periodStart hsub hperiod
        rw [resetAiCredits_eq] at h
        cases h
        rw [resetAiCredits_eq]
        refine congrArg Except.ok (congrArg (List.map _) ?_)
        refine hpatch.filter_eq (onFrozen_hasSubscriptionId subId) fun r hr hp w hw => ?_
        exact hapart _ (mem_resetAiCreditsRows hr hp) w hw
      · exact h
    · rename_i hinvoice
      rw [if_neg hinvoice]
      exact h

/-- The rows of a charge. -/
theorem addAiCreditsUsed_ok {t : Table afterMigrations} {userId : Uuid} {now : Timestamp}
    {credits : Int} {rows : List Row} (h : addAiCreditsUsed t now userId credits = .ok rows) :
    ∃ r ∈ t.rows, t.rows.filter (billableFor userId) = [r] ∧
      rows = [chargeRow now credits r] ∧ isI32 (r.aiCreditsUsed + credits) = true := by
  rcases filter_billableFor t userId with hnone | ⟨r, hr, -, hone⟩
  · rw [addAiCreditsUsed_none now credits hnone] at h
    cases h
  · rw [addAiCreditsUsed_some now credits hr hone] at h
    split at h
    · rename_i hrange
      cases h
      exact ⟨r, hr, hone, rfl, hrange⟩
    · cases h

/-- A charge does not change under a patch of other rows. -/
theorem addAiCreditsUsed_patch {t t' : Table afterMigrations} {userId : Uuid}
    {now : Timestamp} {credits : Int} {rows ws : List Row} (hpatch : Patch ws t t')
    (h : addAiCreditsUsed t now userId credits = .ok rows)
    (hapart : ∀ r ∈ rows, ∀ w ∈ ws, w.id ≠ r.id) :
    addAiCreditsUsed t' now userId credits = .ok rows := by
  obtain ⟨r, hr, hone, rfl, hrange⟩ := addAiCreditsUsed_ok h
  have hfilter : t'.rows.filter (billableFor userId) = [r] := by
    rw [← hone]
    refine hpatch.filter_eq (onFrozen_billableFor userId) fun x hx hp w hw => ?_
    have hx' : x ∈ t.rows.filter (billableFor userId) := List.mem_filter.mpr ⟨hx, hp⟩
    rw [hone, List.mem_singleton] at hx'
    rw [hx']
    exact hapart (chargeRow now credits r) List.mem_cons_self w hw
  have hr' : r ∈ t'.rows := by
    have hmem : r ∈ t'.rows.filter (billableFor userId) := hfilter ▸ List.mem_cons_self
    exact (List.mem_filter.mp hmem).1
  rw [addAiCreditsUsed_some now credits hr' hfilter, if_pos hrange]

/-- The versions of a charge and of an event are of existing rows. -/
theorem versions_charge {t : Table afterMigrations} {userId : Uuid} {now : Timestamp}
    {credits : Int} {rows : List Row} (h : addAiCreditsUsed t now userId credits = .ok rows) :
    ∀ w ∈ rows, ∃ r ∈ t.rows, r.id = w.id ∧ frozen w = frozen r := by
  obtain ⟨r, hr, -, rfl, -⟩ := addAiCreditsUsed_ok h
  intro w hw
  rw [List.mem_singleton.mp hw]
  exact ⟨r, hr, rfl, rfl⟩

theorem versions_webhook {ctx : WebhookContext} {billing : BillingConfig} {env : Envelope}
    {req : WebhookRequest} {t : Table afterMigrations} {rows : List Row}
    (h : webhookWrites ctx billing env req t = .ok rows) :
    ∀ w ∈ rows, ∃ r ∈ t.rows, r.id = w.id ∧ frozen w = frozen r := by
  intro w hw
  rw [webhookWrites_ok h, resetRows] at hw
  split at hw
  · cases hw
  · obtain ⟨r, hr, rfl⟩ := List.mem_map.mp hw
    exact ⟨r, (List.mem_filter.mp hr).1, rfl, rfl⟩

/-- What an event writes can be written. -/
theorem write_webhookWrites {ctx : WebhookContext} {billing : BillingConfig} {env : Envelope}
    {req : WebhookRequest} {t : Table afterMigrations} {rows : List Row}
    (h : webhookWrites ctx billing env req t = .ok rows) : ∃ t', t.write rows = .ok t' := by
  rw [webhookWrites_ok h, resetRows]
  split
  · exact ⟨t, t.write_nil⟩
  · exact (Table.exec_ok_iff.mp (resetAiCredits_eq t req.txTime _ _)).2

/-! ### The event id -/

section
variable {S : Sql.Schema Row Uuid} {db db' : BillingDb S}

/-- The event id is in `stripe_events`. -/
def Recorded (db : BillingDb S) (id : String) : Prop :=
  ∃ e ∈ db.events.rows, e.stripeEventId = id

/-- The two results of `try_record_stripe_event`. -/
theorem tryRecordStripeEvent_cases (t : Table stripeEvents) (id eventType : String) :
    ((∃ e ∈ t.rows, e.stripeEventId = id) ∧ tryRecordStripeEvent t id eventType = ([], false)) ∨
      ((¬ ∃ e ∈ t.rows, e.stripeEventId = id) ∧
        tryRecordStripeEvent t id eventType = ([⟨id, eventType⟩], true)) := by
  unfold tryRecordStripeEvent
  by_cases h : ∃ e ∈ t.rows, e.stripeEventId = id
  · exact Or.inl ⟨h, if_pos (by simpa using h)⟩
  · exact Or.inr ⟨h, if_neg (by simpa using h)⟩

/-- A new row of `stripe_events`. -/
theorem recorded_write {t : Table stripeEvents} {events : Table stripeEvents} {e : StripeEvent}
    (h : t.write [e] = .ok events) (id : String) :
    (∃ x ∈ events.rows, x.stripeEventId = id) ↔
      (∃ x ∈ t.rows, x.stripeEventId = id) ∨ e.stripeEventId = id := by
  constructor
  · rintro ⟨x, hx, rfl⟩
    rcases (Table.mem_write_singleton h).mp hx with rfl | ⟨hx, -⟩
    · exact Or.inr rfl
    · exact Or.inl ⟨x, hx, rfl⟩
  · rintro (⟨x, hx, rfl⟩ | rfl)
    · by_cases hkey : x.stripeEventId = e.stripeEventId
      · exact ⟨e, (Table.mem_write_singleton h).mpr (Or.inl rfl), hkey.symm⟩
      · exact ⟨x, (Table.mem_write_singleton h).mpr (Or.inr ⟨hx, hkey⟩), rfl⟩
    · exact ⟨e, (Table.mem_write_singleton h).mpr (Or.inl rfl), rfl⟩

/-- A new event id can be written. -/
theorem write_event_ok {t : Table stripeEvents} {e : StripeEvent}
    (h : ¬ ∃ x ∈ t.rows, x.stripeEventId = e.stripeEventId) :
    ∃ events, t.write [e] = .ok events :=
  t.write_new_ok (fun x hx hkey => h ⟨x, hx, hkey⟩) rfl fun _ _ => rfl

/-- The transaction of a recorded event. -/
theorem webhookTx_recorded {wctx : WebhookContext} {billing : BillingConfig} {env : Envelope}
    {req : WebhookRequest} (h : Recorded db env.id) :
    webhookTx wctx billing env req db = .ok db := by
  rcases tryRecordStripeEvent_cases db.events env.id env.eventType with ⟨-, heq⟩ | ⟨hnew, -⟩
  · rw [webhookTx, heq]
  · exact absurd h hnew

/-- The transaction of a new event. -/
theorem webhookTx_new {wctx : WebhookContext} {billing : BillingConfig} {env : Envelope}
    {req : WebhookRequest} (h : ¬ Recorded db env.id) :
    webhookTx wctx billing env req db = .ok db' ↔
      ∃ rows events subscriptions, webhookWrites wctx billing env req db.subscriptions = .ok rows ∧
        db.events.write [⟨env.id, env.eventType⟩] = .ok events ∧
        db.subscriptions.write rows = .ok subscriptions ∧
        db' = { db with events, subscriptions } := by
  rcases tryRecordStripeEvent_cases db.events env.id env.eventType with ⟨hrec, -⟩ | ⟨-, heq⟩
  · exact absurd hrec h
  · rw [webhookTx, heq]
    simp only [except_bind_eq_ok, ofStatement_eq_ok]
    constructor
    · rintro ⟨rows, hrows, events, hevents, subscriptions, hsubs, hdb⟩
      cases hdb
      exact ⟨rows, events, subscriptions, hrows, hevents, hsubs, rfl⟩
    · rintro ⟨rows, events, subscriptions, hrows, hevents, hsubs, rfl⟩
      exact ⟨rows, hrows, events, hevents, subscriptions, hsubs, rfl⟩

end

end MizanConnect.Proofs.Billing
