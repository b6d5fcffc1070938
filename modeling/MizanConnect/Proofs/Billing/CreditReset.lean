import MizanConnect.Proofs.Billing.CreditLedger

/-!
# `MizanConnect.Proofs.Billing.CreditReset`: one reset per invoice period

`reset_ai_credits` is documented to clear the counter at the start of each
invoice period, and it stores the start of the period. But it does not
compare it with the stored one: every `invoice.paid` event with a new id
clears the counter of its subscription and overwrites the anchor.

`resets` are the periods for which a run cleared a subscription, and
`ResetOncePerPeriod` is what the documentation promises of them.
`reset_once_per_period` proves it for the runs in which every invoice that is
applied starts a later period than the stored one (`NewPeriod`). When the
subscription was not reset before the run, only these runs have it.
`two_invoices_reset_twice` is a run without: two invoices of one period give
a user the spent credits back.
-/

set_option autoImplicit false

namespace MizanConnect.Proofs.Billing

open MizanConnect.Billing
open MizanConnect.Billing.Repository
open MizanConnect.Billing.Subscriptions (Row afterMigrations)
open Sql (Table)
open Transition (run Along StepOf)

/-- The period to which a commit resets the row of a subscription: the event
is new, and there is such a row. -/
def resetPeriod (ctx : SysContext) (subscriptionId : String) (db : BillingDb afterMigrations) :
    Commit → Option Timestamp
  | .delivery _ env _ =>
    if db.events.rows.any fun e => e.stripeEventId = env.id then none
    else
      match resetOf ctx.webhook env with
      | none => none
      | some (id, periodStart) =>
        if id = subscriptionId ∧ db.subscriptions.rows.any (hasSubscriptionId id) then
          some periodStart
        else none
  | _ => none

/-- The periods to which the commits reset a subscription, in order. -/
def resets (ctx : SysContext) (subscriptionId : String) :
    BillingDb afterMigrations → List Commit → List Timestamp
  | _, [] => []
  | db, c :: cs =>
    (resetPeriod ctx subscriptionId db c).toList ++
      match Commit.run ctx db c with
      | some db' => resets ctx subscriptionId db' cs
      | none => []

/-- No period resets the subscription twice, and its anchor never moves
back. -/
structure ResetOncePerPeriod (ctx : SysContext) (db₀ : BillingDb afterMigrations)
    (subscriptionId : String) (as : List Action) (s : Sys) : Prop where
  once : (resets ctx subscriptionId db₀ (s.log.map Prod.snd)).Nodup
  forward : ∀ m a m', StepOf (next ctx) (Sys.init db₀) as m a m' →
    ∀ r ∈ m.db.subscriptions.rows, r.stripeSubscriptionId = some subscriptionId →
    ∀ r' ∈ m'.db.subscriptions.rows, r'.id = r.id →
    ∀ q, r.aiCreditsPeriodStart = some q → ∃ q', r'.aiCreditsPeriodStart = some q' ∧ q ≤ q'

/-- An invoice of the subscription that is about to commit starts a later
period than the stored one. -/
def NewPeriod (ctx : SysContext) (subscriptionId : String) (s : Sys) (a : Action) : Prop :=
  ∀ i req billing env rows periodStart, Action.steps a = some i →
    s.jobs[i]? = some (.webhook req (.written billing env rows)) →
    resetOf ctx.webhook env = some (subscriptionId, periodStart) →
    ∀ r ∈ s.db.subscriptions.rows, r.stripeSubscriptionId = some subscriptionId →
    ∀ q, r.aiCreditsPeriodStart = some q → q < periodStart

/-- `NewPeriod`, computed. -/
def startsNewPeriod (ctx : SysContext) (subscriptionId : String) (s : Sys) (a : Action) : Bool :=
  match Action.steps a with
  | some i =>
    match s.jobs[i]? with
    | some (.webhook _ (.written _ env _)) =>
      match resetOf ctx.webhook env with
      | some (id, periodStart) =>
        id ≠ subscriptionId || s.db.subscriptions.rows.all fun r =>
          r.stripeSubscriptionId ≠ some subscriptionId ||
            r.aiCreditsPeriodStart.all fun q => q < periodStart
      | none => true
    | _ => true
  | none => true

theorem startsNewPeriod_iff {ctx : SysContext} {subscriptionId : String} {s : Sys} {a : Action} :
    startsNewPeriod ctx subscriptionId s a = true ↔ NewPeriod ctx subscriptionId s a := by
  constructor
  · intro h i req billing env rows p ha hi hreset r hr hsub q hq
    simp only [startsNewPeriod, ha, hi, hreset, ne_eq, not_true_eq_false, decide_false,
      Bool.false_or, List.all_eq_true] at h
    simpa [hsub, hq] using h r hr
  · intro h
    unfold startsNewPeriod
    split
    · rename_i i ha
      split
      · rename_i _ req billing env rows hi
        split
        · rename_i id p hreset
          by_cases hid : id = subscriptionId
          · subst hid
            simp only [ne_eq, not_true_eq_false, decide_false, Bool.false_or, List.all_eq_true]
            intro r hr
            by_cases hsub : r.stripeSubscriptionId = some id
            · cases hq : r.aiCreditsPeriodStart with
              | none => simp
              | some q => simpa [hsub] using h i req billing env rows p ha hi hreset r hr hsub q hq
            · simp [hsub]
          · simp [hid]
        · rfl
      · rfl
    · rfl

instance (ctx : SysContext) (subscriptionId : String) (s : Sys) (a : Action) :
    Decidable (NewPeriod ctx subscriptionId s a) :=
  decidable_of_iff _ startsNewPeriod_iff

section
variable {ctx : SysContext} {db db' db₀ : BillingDb afterMigrations} {c : Commit}
  {subscriptionId : String} {s s' : Sys} {a : Action} {as : List Action}

/-! ### One commit -/

theorem resetPeriod_new (billing : BillingConfig) {env : Envelope} (req : WebhookRequest)
    {periodStart : Timestamp} {r : Row} (hnew : ¬ Recorded db env.id)
    (hreset : resetOf ctx.webhook env = some (subscriptionId, periodStart))
    (hr : r ∈ db.subscriptions.rows) (hsub : r.stripeSubscriptionId = some subscriptionId) :
    resetPeriod ctx subscriptionId db (.delivery billing env req) = some periodStart := by
  have hany : (db.events.rows.any fun e => e.stripeEventId = env.id) = false := by
    simpa [Recorded] using hnew
  have hrow : db.subscriptions.rows.any (hasSubscriptionId subscriptionId) = true :=
    List.any_eq_true.mpr ⟨r, hr, decide_eq_true hsub⟩
  simp only [resetPeriod, hany, hreset, hrow]
  rfl

/-- A commit that resets is a new invoice of a row of the subscription. -/
theorem of_resetPeriod {periodStart : Timestamp}
    (h : resetPeriod ctx subscriptionId db c = some periodStart) :
    ∃ billing env req, c = .delivery billing env req ∧ ¬ Recorded db env.id ∧
      resetOf ctx.webhook env = some (subscriptionId, periodStart) ∧
      ∃ r ∈ db.subscriptions.rows, r.stripeSubscriptionId = some subscriptionId := by
  unfold resetPeriod at h
  split at h
  · rename_i billing env req
    split at h
    · cases h
    · rename_i hnew
      split at h
      · cases h
      · rename_i id p hreset
        split at h
        · rename_i hcond
          cases h
          obtain ⟨rfl, hany⟩ := hcond
          obtain ⟨r, hr, hsub⟩ := List.any_eq_true.mp hany
          exact ⟨billing, env, req, rfl, by simpa [Recorded] using hnew, hreset, r, hr,
            of_decide_eq_true hsub⟩
        · cases h
  · cases h

/-- The anchor of a row of the subscription after a commit. -/
theorem anchor_effect {r : Row} (hr : r ∈ db.subscriptions.rows)
    (hsub : r.stripeSubscriptionId = some subscriptionId) :
    (effect ctx db c r).aiCreditsPeriodStart
      = (resetPeriod ctx subscriptionId db c).or r.aiCreditsPeriodStart := by
  cases c with
  | delivery billing env req =>
    have hrow : db.subscriptions.rows.any (hasSubscriptionId subscriptionId) = true :=
      List.any_eq_true.mpr ⟨r, hr, decide_eq_true hsub⟩
    unfold effect resetPeriod
    dsimp only
    split
    · rfl
    · cases hreset : resetOf ctx.webhook env with
      | none => rfl
      | some reset =>
        obtain ⟨id, periodStart⟩ := reset
        dsimp only
        by_cases hid : id = subscriptionId
        · subst hid
          have hhas : hasSubscriptionId id r = true := decide_eq_true hsub
          rw [if_pos hhas, if_pos ⟨rfl, hrow⟩]
          rfl
        · have hhas : ¬ hasSubscriptionId id r = true := fun h =>
            hid (Option.some.inj ((of_decide_eq_true h).symm.trans hsub))
          rw [if_neg hhas, if_neg fun h => hid h.1]
          rfl
  | charge userId txTime row =>
    unfold effect
    dsimp only
    split <;> rfl
  | usage row => rfl

/-- A row after a commit, and the row it was. -/
theorem row_before {r' : Row} (h : Commit.run ctx db c = some db')
    (hr' : r' ∈ db'.subscriptions.rows) (hsub : r'.stripeSubscriptionId = some subscriptionId) :
    ∃ r ∈ db.subscriptions.rows, r.id = r'.id ∧
      r.stripeSubscriptionId = some subscriptionId ∧ r'.aiCreditsPeriodStart
        = (resetPeriod ctx subscriptionId db c).or r.aiCreditsPeriodStart := by
  rw [rows_run h] at hr'
  obtain ⟨r, hr, rfl⟩ := List.mem_map.mp hr'
  rw [effect_stripeSubscriptionId] at hsub
  exact ⟨r, hr, (effect_id r).symm, hsub, anchor_effect hr hsub⟩

/-- The resets of a run that goes on. -/
theorem resets_append {cs ds : List Commit} (h : run (Commit.run ctx) db cs = some db') :
    resets ctx subscriptionId db (cs ++ ds)
      = resets ctx subscriptionId db cs ++ resets ctx subscriptionId db' ds := by
  induction cs generalizing db with
  | nil =>
    cases h
    rfl
  | cons c cs ih =>
    obtain ⟨m, hm, hrest⟩ := Transition.run_cons_eq_some.mp h
    rw [List.cons_append, resets, resets, hm]
    dsimp only
    rw [ih hrest, List.append_assoc]

/-- The resets after one more commit. -/
theorem resets_concat {cs : List Commit} (h : run (Commit.run ctx) db cs = some db') :
    resets ctx subscriptionId db (cs ++ [c])
      = resets ctx subscriptionId db cs ++ (resetPeriod ctx subscriptionId db' c).toList := by
  rw [resets_append h, resets]
  cases Commit.run ctx db' c <;> simp [resets]

/-- The anchor of a row after a commit, by its key. -/
theorem anchor_after {r r' : Row} (h : Commit.run ctx db c = some db')
    (hr : r ∈ db.subscriptions.rows) (hsub : r.stripeSubscriptionId = some subscriptionId)
    (hr' : r' ∈ db'.subscriptions.rows) (hid : r'.id = r.id) :
    r'.aiCreditsPeriodStart
      = (resetPeriod ctx subscriptionId db c).or r.aiCreditsPeriodStart := by
  have hmem : effect ctx db c r ∈ db'.subscriptions.rows := by
    rw [rows_run h]
    exact List.mem_map_of_mem hr
  obtain rfl := db'.subscriptions.eq_of_key hr' hmem (hid.trans (effect_id r).symm)
  exact anchor_effect hr hsub

/-! ### Steps -/

/-- Under `NewPeriod` a commit that resets moves the anchor forward. -/
theorem lt_of_newPeriod {i : Nat} {job : Job} {periodStart : Timestamp}
    (hinv : Inv ctx db₀ s) (hnew : NewPeriod ctx subscriptionId s a)
    (ha : Action.steps a = some i) (hi : s.jobs[i]? = some job)
    (hstep : CommitStep s.db job db' c)
    (hreset : resetPeriod ctx subscriptionId s.db c = some periodStart) {r : Row}
    (hr : r ∈ s.db.subscriptions.rows) (hsub : r.stripeSubscriptionId = some subscriptionId)
    {q : Timestamp} (hq : r.aiCreditsPeriodStart = some q) : q < periodStart := by
  obtain ⟨billing, env, req, rfl, hrec, hof, -⟩ := of_resetPeriod hreset
  cases hstep with
  | replay => exact absurd (hinv.ok i _ hi).2 hrec
  | written req billing env rows =>
    exact hnew i req billing env rows periodStart ha hi hof r hr hsub q hq

/-- The event that an open transaction has written is committed next. -/
theorem commit_of_written {i : Nat} {req : WebhookRequest} {billing : BillingConfig}
    {env : Envelope} {rows : List Row} (hinv : Inv ctx db₀ s)
    (ha : Action.steps a = some i)
    (hi : s.jobs[i]? = some (.webhook req (.written billing env rows)))
    (hnext : next ctx s a = some s') :
    s'.log = s.log ++ [(i, .delivery billing env req)] ∧
      Commit.run ctx s.db (.delivery billing env req) = some s'.db ∧
      ¬ Recorded s.db env.id := by
  obtain ⟨-, hrec, hwrites⟩ := hinv.ok i _ hi
  obtain ⟨events, hevents⟩ := write_event_ok (t := s.db.events) (e := ⟨env.id, env.eventType⟩) hrec
  obtain ⟨subscriptions, hsubs⟩ := write_webhookWrites hwrites
  have hrun : Commit.run ctx s.db (.delivery billing env req)
      = some { s.db with events, subscriptions } :=
    run_delivery.mpr ((webhookTx_new hrec).mpr
      ⟨rows, events, subscriptions, hwrites, hevents, hsubs, rfl⟩)
  -- The answer to the COMMIT only matters to the handler.
  cases a with
  | advance k =>
    cases ha
    simp only [next, bind, hi, advance, advanceWebhook, hevents, hsubs, Option.bind] at hnext
    cases hnext
    exact ⟨rfl, hrun, hrec⟩
  | unanswered k =>
    cases ha
    simp only [next, bind, hi, advance, advanceWebhook, hevents, hsubs, Option.bind,
      Effect.unanswered, Job.failed, Option.map] at hnext
    cases hnext
    exact ⟨rfl, hrun, hrec⟩
  | spawn task => cases ha
  | fail k => cases ha
  | stream k chunks connected => cases ha

/-! ### Runs -/

/-- The resets of the log. -/
def resetsOf (ctx : SysContext) (subscriptionId : String) (db₀ : BillingDb afterMigrations)
    (s : Sys) : List Timestamp :=
  resets ctx subscriptionId db₀ (s.log.map Prod.snd)

/-- The resets after a step that commits. -/
theorem resetsOf_commit (subscriptionId : String) {i : Nat} (hinv : Inv ctx db₀ s)
    (hlog : s'.log = s.log ++ [(i, c)]) :
    resetsOf ctx subscriptionId db₀ s' = resetsOf ctx subscriptionId db₀ s ++
      (resetPeriod ctx subscriptionId s.db c).toList := by
  rw [resetsOf, hlog, List.map_append, List.map_singleton]
  exact resets_concat hinv.replay

/-- No period repeats, and the anchor of the row is at least every period. -/
structure Ordered (ctx : SysContext) (subscriptionId : String)
    (db₀ : BillingDb afterMigrations) (s : Sys) : Prop where
  once : (resetsOf ctx subscriptionId db₀ s).Nodup
  below : ∀ p ∈ resetsOf ctx subscriptionId db₀ s, ∀ r ∈ s.db.subscriptions.rows,
    r.stripeSubscriptionId = some subscriptionId →
    ∃ q, r.aiCreditsPeriodStart = some q ∧ p ≤ q

/-- A step under `NewPeriod` keeps the order. -/
theorem ordered_step (hinv : Inv ctx db₀ s) (hord : Ordered ctx subscriptionId db₀ s)
    (hnew : NewPeriod ctx subscriptionId s a) (hnext : next ctx s a = some s') :
    Ordered ctx subscriptionId db₀ s' := by
  rcases step_log hinv hnext with ⟨hdb, hlog⟩ | ⟨i, job, c, answered, rfl, hi, -, hcommit, hc, hlog⟩
  · have hresets : resetsOf ctx subscriptionId db₀ s' = resetsOf ctx subscriptionId db₀ s := by
      rw [resetsOf, hlog, resetsOf]
    exact ⟨hresets ▸ hord.once, hresets ▸ hdb ▸ hord.below⟩
  · have hresets := resetsOf_commit subscriptionId hinv hlog
    cases hp : resetPeriod ctx subscriptionId s.db c with
    | none =>
      rw [hp, Option.toList_none, List.append_nil] at hresets
      refine ⟨hresets ▸ hord.once, fun p hmem r' hr' hsub' => ?_⟩
      obtain ⟨r, hr, -, hsub, hanchor⟩ := row_before hc.run hr' hsub'
      rw [hanchor, hp, Option.none_or]
      exact hord.below p (hresets ▸ hmem) r hr hsub
    | some p =>
      rw [hp, Option.toList_some] at hresets
      have hlt : ∀ x ∈ resetsOf ctx subscriptionId db₀ s, ∀ r ∈ s.db.subscriptions.rows,
          r.stripeSubscriptionId = some subscriptionId → x < p := by
        intro x hx r hr hsub
        obtain ⟨q, hq, hle⟩ := hord.below x hx r hr hsub
        exact lt_of_le_of_lt hle (lt_of_newPeriod hinv hnew (steps_commitAction answered i) hi
          hcommit hp hr hsub hq)
      refine ⟨?_, fun x hx r' hr' hsub' => ?_⟩
      · obtain ⟨-, -, -, -, -, -, r, hr, hsub⟩ := of_resetPeriod hp
        rw [hresets, List.nodup_append]
        refine ⟨hord.once, List.nodup_singleton p, fun x hx y hy => ?_⟩
        rw [List.mem_singleton.mp hy]
        exact ne_of_lt (hlt x hx r hr hsub)
      · obtain ⟨r, hr, -, hsub, hanchor⟩ := row_before hc.run hr' hsub'
        rw [hp, Option.some_or] at hanchor
        refine ⟨p, hanchor, ?_⟩
        rw [hresets] at hx
        rcases List.mem_append.mp hx with hx | hx
        · exact le_of_lt (hlt x hx r hr hsub)
        · exact le_of_eq (List.mem_singleton.mp hx)

/-- The anchor of a subscription that was not reset before the run is one of
the resets of the run. -/
def Stored (ctx : SysContext) (subscriptionId : String) (db₀ : BillingDb afterMigrations)
    (s : Sys) : Prop :=
  ∀ r ∈ s.db.subscriptions.rows, r.stripeSubscriptionId = some subscriptionId →
    ∀ q, r.aiCreditsPeriodStart = some q → q ∈ resetsOf ctx subscriptionId db₀ s

theorem stored_step (hinv : Inv ctx db₀ s) (hstored : Stored ctx subscriptionId db₀ s)
    (hnext : next ctx s a = some s') : Stored ctx subscriptionId db₀ s' := by
  rcases step_log hinv hnext with ⟨hdb, hlog⟩ | ⟨i, job, c, answered, rfl, -, -, -, hc, hlog⟩
  · have hresets : resetsOf ctx subscriptionId db₀ s' = resetsOf ctx subscriptionId db₀ s := by
      rw [resetsOf, hlog, resetsOf]
    rw [Stored, hdb, hresets]
    exact hstored
  · intro r' hr' hsub' q hq
    obtain ⟨r, hr, -, hsub, hanchor⟩ := row_before hc.run hr' hsub'
    rw [resetsOf_commit subscriptionId hinv hlog, List.mem_append]
    rw [hanchor] at hq
    cases hp : resetPeriod ctx subscriptionId s.db c with
    | none =>
      rw [hp, Option.none_or] at hq
      exact Or.inl (hstored r hr hsub q hq)
    | some p =>
      rw [hp, Option.some_or] at hq
      cases hq
      exact Or.inr List.mem_cons_self

/-- Runs under `NewPeriod` keep what the documentation promises. -/
theorem resetOncePerPeriod_of_newPeriod (hrun : run (next ctx) (Sys.init db₀) as = some s)
    (halong : Along (next ctx) (NewPeriod ctx subscriptionId) (Sys.init db₀) as) :
    ResetOncePerPeriod ctx db₀ subscriptionId as s where
  once := by
    have hboth := Transition.run_invariant
      (P := fun x => Inv ctx db₀ x ∧ Ordered ctx subscriptionId db₀ x)
      (fun x b y hx hb hnext => ⟨inv_step hx.1 hnext, ordered_step hx.1 hx.2 hb hnext⟩)
      ⟨inv_init ctx db₀, List.nodup_nil, fun p hp => by cases hp⟩ halong hrun
    exact hboth.2.once
  forward m b m' hstep r hr hsub r' hr' hid q hq := by
    have hinv := inv_before hstep
    have hnew := (Transition.along_iff_stepOf hrun).mp halong m b m' hstep
    rcases step_log hinv hstep.step with ⟨hdb, -⟩ |
      ⟨i, job, c, answered, rfl, hi, -, hcommit, hc, -⟩
    · rw [hdb] at hr'
      obtain rfl := m.db.subscriptions.eq_of_key hr' hr hid
      exact ⟨q, hq, le_refl q⟩
    · have hanchor := anchor_after hc.run hr hsub hr' hid
      cases hp : resetPeriod ctx subscriptionId m.db c with
      | none => exact ⟨q, by rw [hanchor, hp, Option.none_or, hq], le_refl q⟩
      | some p =>
        exact ⟨p, by rw [hanchor, hp, Option.some_or],
          le_of_lt (lt_of_newPeriod hinv hnew (steps_commitAction answered i) hi hcommit hp hr
            hsub hq)⟩

/-- A run that keeps the promise of a subscription without an earlier reset is
under `NewPeriod`. -/
theorem newPeriod_of_resetOncePerPeriod (hrun : run (next ctx) (Sys.init db₀) as = some s)
    (hfresh : ∀ r ∈ db₀.subscriptions.rows, r.stripeSubscriptionId = some subscriptionId →
      r.aiCreditsPeriodStart = none)
    (honce : ResetOncePerPeriod ctx db₀ subscriptionId as s) :
    Along (next ctx) (NewPeriod ctx subscriptionId) (Sys.init db₀) as := by
  refine (Transition.along_iff_stepOf hrun).mpr fun m b m' hstep => ?_
  intro i req billing env rows p ha hi hof r hr hsub q hq
  have hinv := inv_before hstep
  obtain ⟨hlog, hcommit, hrec⟩ := commit_of_written hinv ha hi hstep.step
  have hp := resetPeriod_new billing req hrec hof hr hsub
  have hstored : q ∈ resetsOf ctx subscriptionId db₀ m := by
    obtain ⟨pre, post, -, hpre⟩ := hstep.before
    have hboth := Transition.run_invariant (C := fun _ _ => True)
      (P := fun x => Inv ctx db₀ x ∧ Stored ctx subscriptionId db₀ x)
      (fun x b y hx _ hnext => ⟨inv_step hx.1 hnext, stored_step hx.1 hx.2 hnext⟩)
      ⟨inv_init ctx db₀, fun r hr hsub q hq => by rw [hfresh r hr hsub] at hq; cases hq⟩
      (Transition.along_true _ _) hpre
    exact hboth.2 r hr hsub q hq
  -- The resets up to this step do not repeat.
  have hne : q ≠ p := by
    obtain ⟨post, hpost⟩ := hstep.rest hrun
    obtain ⟨more, hmore⟩ := run_log hpost
    have hnodup := honce.once
    rw [← hmore, List.map_append, resets_append (inv_step hinv hstep.step).replay] at hnodup
    have hbefore := (List.nodup_append.mp hnodup).1
    have hresets := resetsOf_commit subscriptionId hinv hlog
    rw [hp, Option.toList_some] at hresets
    rw [resetsOf] at hresets
    rw [hresets, List.nodup_append] at hbefore
    exact hbefore.2.2 q hstored p List.mem_cons_self
  -- And the anchor does not move back.
  have hle : q ≤ p := by
    have hmem : effect ctx m.db (.delivery billing env req) r ∈ m'.db.subscriptions.rows := by
      rw [rows_run hcommit]
      exact List.mem_map_of_mem hr
    obtain ⟨q', hq', hle⟩ := honce.forward m _ m' hstep r hr hsub _ hmem
      (effect_id r) q hq
    rw [anchor_effect hr hsub, hp, Option.some_or] at hq'
    cases hq'
    exact hle
  exact lt_of_le_of_ne hle hne

/-- Every run under `NewPeriod` resets a subscription at most once in each
invoice period and never moves its anchor back. From a subscription that was
not reset before, these are the only such runs. -/
theorem reset_once_per_period (ctx : SysContext) (db₀ : BillingDb afterMigrations)
    (subscriptionId : String) (as : List Action) (s : Sys)
    (hrun : run (next ctx) (Sys.init db₀) as = some s) :
    (Along (next ctx) (NewPeriod ctx subscriptionId) (Sys.init db₀) as →
      ResetOncePerPeriod ctx db₀ subscriptionId as s) ∧
    ((∀ r ∈ db₀.subscriptions.rows, r.stripeSubscriptionId = some subscriptionId →
        r.aiCreditsPeriodStart = none) →
      ResetOncePerPeriod ctx db₀ subscriptionId as s →
      Along (next ctx) (NewPeriod ctx subscriptionId) (Sys.init db₀) as) :=
  ⟨resetOncePerPeriod_of_newPeriod hrun, newPeriod_of_resetOncePerPeriod hrun⟩

end

/-! ### A charge between two invoices -/

/-- The invoice of the next period. -/
def nextInvoiceSample : Sample where
  body := invoiceBody "evt_2" "1702592000"
  tag := "6eccbb18bc344767685ea2f71b653d8e60a2ad029e83783beef198e1d147771d"
  envelope := .ok (invoiceEnvelope "evt_2" "1702592000")

/-- Another invoice of the period of `invoiceSample`. -/
def secondInvoiceSample : Sample where
  body := invoiceBody "evt_2" "1700000000"
  tag := "70e32d974b7d06aeb2952e35f341889c44ae336aa651e123dbf64859f5a89e28"
  envelope := .ok (invoiceEnvelope "evt_2" "1700000000")

/-- The steps of delivery `i` of a new event. -/
def deliverySteps (i : Nat) : List Action := [.advance i, .advance i, .advance i, .advance i]

/-- An invoice, a chat of 5 credits, and the invoice `second`. -/
def invoiceRun (second : Sample) : List Action :=
  [.spawn (.webhook invoiceSample.request)] ++ deliverySteps 0 ++
    [.spawn (.chat analysisChat)] ++ admitSteps 1 ++ chargeSteps 1 ++
    [.spawn (.webhook second.request)] ++ deliverySteps 2

/-- `reset_once_per_period` at the invoices of two periods. -/
theorem reset_once_per_period_next :
    ∃ s, run (next (sampleContext [invoiceSample, nextInvoiceSample]))
        (Sys.init (payingDb 0 (by decide))) (invoiceRun nextInvoiceSample) = some s ∧
      ResetOncePerPeriod (sampleContext [invoiceSample, nextInvoiceSample])
        (payingDb 0 (by decide)) "sub_1" (invoiceRun nextInvoiceSample) s := by
  have hsome : (run (next (sampleContext [invoiceSample, nextInvoiceSample]))
      (Sys.init (payingDb 0 (by decide))) (invoiceRun nextInvoiceSample)).isSome = true := by
    decide +kernel
  obtain ⟨s, hs⟩ := Option.isSome_iff_exists.mp hsome
  exact ⟨s, hs, (reset_once_per_period _ _ "sub_1" _ s hs).1 (by decide +kernel)⟩

/-- Two invoices of one period clear the counter twice, and the five credits
between them are free. -/
theorem two_invoices_reset_twice :
    ∃ s, run (next (sampleContext [invoiceSample, secondInvoiceSample]))
        (Sys.init (payingDb 0 (by decide))) (invoiceRun secondInvoiceSample) = some s ∧
      resets (sampleContext [invoiceSample, secondInvoiceSample]) "sub_1"
        (payingDb 0 (by decide)) (s.log.map Prod.snd) = [1700000000, 1700000000] ∧
      ledgerCredits alice s.db.ledger = 5 ∧ creditsUsed alice s.db.subscriptions.rows = 0 ∧
      ¬ ResetOncePerPeriod (sampleContext [invoiceSample, secondInvoiceSample])
        (payingDb 0 (by decide)) "sub_1" (invoiceRun secondInvoiceSample) s := by
  have hsome : (run (next (sampleContext [invoiceSample, secondInvoiceSample]))
      (Sys.init (payingDb 0 (by decide))) (invoiceRun secondInvoiceSample)).map
        (fun s => (resets (sampleContext [invoiceSample, secondInvoiceSample]) "sub_1"
          (payingDb 0 (by decide)) (s.log.map Prod.snd), ledgerCredits alice s.db.ledger,
          creditsUsed alice s.db.subscriptions.rows))
      = some ([1700000000, 1700000000], 5, 0) := by
    decide +kernel
  obtain ⟨s, hs, hfacts⟩ := Option.map_eq_some_iff.mp hsome
  obtain ⟨hresets, hfacts⟩ := Prod.mk.inj hfacts
  obtain ⟨hledger, hused⟩ := Prod.mk.inj hfacts
  refine ⟨s, hs, hresets, hledger, hused, fun h => ?_⟩
  have honce := h.once
  rw [hresets] at honce
  exact absurd honce (by decide)

end MizanConnect.Proofs.Billing
