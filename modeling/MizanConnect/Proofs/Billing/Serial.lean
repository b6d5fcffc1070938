import MizanConnect.Billing.System
import MizanConnect.Proofs.Billing.Statements

/-!
# `MizanConnect.Proofs.Billing.Serial`: interleaved transactions are serial

The invariant of the service is that its committed tables are those of the
commit log run one after the other (`Inv.replay`). What a transaction wrote
was computed when its statement ran, so the invariant also says that the
same statement would write the same rows now (`JobOk`): the rows it wrote
are locked, the columns that conditions look at are frozen, and its event
id is not recorded.

`advance_keep` and `CommitStep` are the specification of a step of one job,
and `JobOk.patched` says that the commit of another job does not matter.
`inv_step` and `inv_run` put them together. `effect` is what a commit does to
a row of `subscriptions`.
-/

set_option autoImplicit false

namespace MizanConnect.Proofs.Billing

open MizanConnect.Billing
open MizanConnect.Billing.Repository
open MizanConnect.Billing.Subscriptions (Row afterMigrations)
open Sql (Table)
open Transition (run StepOf getElem?_set_cases getElem?_concat_cases)

/-! ### The invariant -/

/-- What a job has computed still holds of the committed tables. -/
def JobOk (ctx : SysContext) (db : BillingDb afterMigrations) : Job → Prop
  | .webhook req (.begun billing env) => admitWebhook ctx.webhook req = .ok (billing, env)
  | .webhook req (.replay billing env) =>
    admitWebhook ctx.webhook req = .ok (billing, env) ∧ Recorded db env.id
  | .webhook req (.recorded billing env) =>
    admitWebhook ctx.webhook req = .ok (billing, env) ∧ ¬ Recorded db env.id
  | .webhook req (.resolved billing env _ _) =>
    admitWebhook ctx.webhook req = .ok (billing, env) ∧ ¬ Recorded db env.id
  | .webhook req (.written billing env rows) =>
    admitWebhook ctx.webhook req = .ok (billing, env) ∧ ¬ Recorded db env.id ∧
      webhookWrites ctx.webhook billing env req db.subscriptions = .ok rows
  | .webhook req (.finished (.ok ())) =>
    ∃ billing env, admitWebhook ctx.webhook req = .ok (billing, env) ∧ Recorded db env.id
  | .chat task (.ledgerWritten row) => row.userId = task.userId
  | .chat task (.bumped row rows) => row.userId = task.userId ∧
      addAiCreditsUsed db.subscriptions task.txTime task.userId row.costCredits = .ok rows
  | .usage userId _ (.written row) => row.userId = userId ∧ row.costCredits = 0
  | _ => True

/-- Two open transactions hold different rows and different event ids. -/
structure Apart (a b : Job) : Prop where
  rows : ∀ r ∈ a.rows, ∀ w ∈ b.rows, r.id ≠ w.id
  event : ∀ id, a.eventId = some id → b.eventId ≠ some id

/-- The job is over, and `c` is the transaction it committed. -/
def CommittedBy (ctx : SysContext) : Job → Commit → Prop
  | .webhook req (.finished _), .delivery billing env req' =>
    req' = req ∧ admitWebhook ctx.webhook req = .ok (billing, env)
  | .chat task .finished, .charge userId txTime row =>
    userId = task.userId ∧ txTime = task.txTime ∧ row.userId = task.userId
  | .usage userId _ .finished, .usage row => row.userId = userId ∧ row.costCredits = 0
  | _, _ => False

/-- The job after its commit. `answered` is whether the handler gets the answer
to its COMMIT. -/
def Job.over (answered : Bool) : Job → Job
  | .webhook req _ =>
    .webhook req (.finished (if answered then .ok () else .error (AppError.ofDb .connection)))
  | .chat task _ => .chat task .finished
  | .usage userId req _ => .usage userId req .finished

/-- The action by which the job `i` commits. -/
def commitAction (answered : Bool) (i : Nat) : Action :=
  if answered then .advance i else .unanswered i

/-- The job that takes its next step, with or without the answer to it. -/
def Action.steps : Action → Option Nat
  | .advance i => some i
  | .unanswered i => some i
  | _ => none

@[simp] theorem steps_commitAction (answered : Bool) (i : Nat) :
    Action.steps (commitAction answered i) = some i := by
  cases answered <;> rfl

/-- The request of a job. -/
def Job.task : Job → Task
  | .webhook req _ => .webhook req
  | .chat task _ => .chat task
  | .usage userId req _ => .usage userId req

/-- The invariant of a run that started with the tables `db₀`. -/
structure Inv (ctx : SysContext) (db₀ : BillingDb afterMigrations) (s : Sys) : Prop where
  replay : run (Commit.run ctx) db₀ (s.log.map Prod.snd) = some s.db
  ok : ∀ (i : Nat) job, s.jobs[i]? = some job → JobOk ctx s.db job
  apart : ∀ (i k : Nat) a b, i ≠ k → s.jobs[i]? = some a → s.jobs[k]? = some b → Apart a b
  once : (s.log.map Prod.fst).Nodup
  committed : ∀ e ∈ s.log, ∃ job, s.jobs[e.1]? = some job ∧ CommittedBy ctx job e.2

theorem Apart.symm {a b : Job} (h : Apart a b) : Apart b a where
  rows r hr w hw heq := h.rows w hw r hr heq.symm
  event id hb ha := h.event id ha hb

/-- A job that holds nothing is apart from every job. -/
theorem apart_of_idle {a : Job} (b : Job) (hrows : a.rows = []) (hevent : a.eventId = none) :
    Apart a b where
  rows r hr := by
    rw [hrows] at hr
    cases hr
  event id h := by
    rw [hevent] at h
    cases h

/-! ### A step of one job -/

section
variable {ctx : SysContext} {db db' : BillingDb afterMigrations} {others : List Job}
  {job job' : Job} {c : Commit}

/-- The commit of a job patches the rows it wrote and records its event. -/
structure Patched (job : Job) (db db' : BillingDb afterMigrations) : Prop where
  subscriptions : Patch job.rows db.subscriptions db'.subscriptions
  events : ∀ id, Recorded db' id ↔ Recorded db id ∨ job.eventId = some id

/-- The row that `record_usage` appends. -/
theorem recordUsage_ok {userId : Uuid} {metric : String} {units cost : Int}
    {model kind : Option String} {row : LedgerRow}
    (h : recordUsage userId metric units cost model kind = .ok row) :
    row.userId = userId ∧ row.costCredits = cost := by
  unfold recordUsage at h
  split at h
  · cases h
  · split_ifs at h
    cases h
    exact ⟨rfl, rfl⟩

/-- The ledger row of a charge. -/
theorem chargeLedgerRow_ok {userId : Uuid} {model : String} {kind : RequestKind}
    {usage : TokenUsage} {charged : Int} {row : LedgerRow}
    (h : chargeLedgerRow userId model kind usage charged = .ok row) :
    row.userId = userId ∧ row.costCredits = charged := by
  unfold chargeLedgerRow at h
  exact recordUsage_ok h

/-- The two ways a check goes on. -/
theorem goOn_keep {ε α : Type} {result : Except ε α} {onError : ε → Job} {onOk : α → Job}
    (h : some (goOn result onError onOk) = some (.keep job')) :
    (∃ e, result = .error e ∧ job' = onError e) ∨ ∃ a, result = .ok a ∧ job' = onOk a := by
  unfold goOn at h
  cases result with
  | error e =>
    cases h
    exact Or.inl ⟨e, rfl, rfl⟩
  | ok a =>
    cases h
    exact Or.inr ⟨a, rfl, rfl⟩

/-- A check does not commit. -/
theorem goOn_not_commit {ε α : Type} {result : Except ε α} {onError : ε → Job}
    {onOk : α → Job} : some (goOn result onError onOk) ≠ some (.commit job' db' c) := by
  intro h
  unfold goOn at h
  cases result <;> cases h

/-- The locks of a statement that went through. -/
theorem execRows_keep {ε : Type} {result : Except ε (List Row)} {onError : ε → Job}
    {onRows : List Row → Job} (h : execRows others result onError onRows = some (.keep job')) :
    (∃ e, result = .error e ∧ job' = onError e) ∨
      ∃ rows, result = .ok rows ∧ job' = onRows rows ∧
        ∀ o ∈ others, ∀ r ∈ o.rows, ∀ w ∈ rows, r.id ≠ w.id := by
  unfold execRows at h
  cases result with
  | error e =>
    cases h
    exact Or.inl ⟨e, rfl, rfl⟩
  | ok rows =>
    dsimp only at h
    split at h
    · rename_i hfree
      cases h
      refine Or.inr ⟨rows, rfl, rfl, fun o ho r hr w hw => ?_⟩
      simp only [rowsFree, List.all_eq_true, decide_eq_true_eq] at hfree
      exact hfree o ho r hr w hw
    · cases h

/-- A statement does not commit. -/
theorem execRows_not_commit {ε : Type} {result : Except ε (List Row)} {onError : ε → Job}
    {onRows : List Row → Job} :
    execRows others result onError onRows ≠ some (.commit job' db' c) := by
  intro h
  unfold execRows at h
  cases result with
  | error e => cases h
  | ok rows =>
    dsimp only at h
    split at h <;> cases h

/-- A job that keeps its event id and writes free rows stays apart. -/
theorem Apart.of_rows {a a' b : Job} (h : Apart a b) (hevent : a'.eventId = a.eventId)
    (hrows : ∀ r ∈ a'.rows, ∀ w ∈ b.rows, r.id ≠ w.id) : Apart a' b where
  rows := hrows
  event id ha := h.event id (hevent ▸ ha)

/-- What the invariant asks of a job after a step that does not commit. -/
def Kept (ctx : SysContext) (db : BillingDb afterMigrations) (others : List Job)
    (job' : Job) : Prop :=
  JobOk ctx db job' ∧ ∀ o ∈ others, Apart job' o

/-- A job that holds nothing meets the second part. -/
theorem kept_of_idle (hok : JobOk ctx db job') (hrows : job'.rows = [])
    (hevent : job'.eventId = none) : Kept ctx db others job' :=
  ⟨hok, fun o _ => apart_of_idle o hrows hevent⟩

/-- The writes of an event that the transaction has recorded: what the
statement wrote is what `webhookWrites` says. -/
theorem advanceWebhook_recorded {req : WebhookRequest} {billing : BillingConfig}
    {env : Envelope} (h : advanceWebhook ctx.webhook db others req (.recorded billing env)
      = some (.keep job')) :
    (∃ e, job' = .webhook req (.finished (.error e))) ∨
      (∃ sub userId, job' = .webhook req (.resolved billing env sub userId)) ∨
      ∃ rows, job' = .webhook req (.written billing env rows) ∧
        webhookWrites ctx.webhook billing env req db.subscriptions = .ok rows ∧
        ∀ o ∈ others, ∀ r ∈ o.rows, ∀ w ∈ rows, r.id ≠ w.id := by
  rw [advanceWebhook] at h
  unfold webhookWrites
  split at h
  · rename_i htype
    rw [if_pos htype]
    cases hdecode : decodeObject "subscription" ctx.webhook.decodeSubscription env.object with
    | error e =>
      rw [hdecode] at h
      cases h
      exact Or.inl ⟨e, rfl⟩
    | ok sub =>
      rw [hdecode] at h
      dsimp only at h
      -- The event of an unknown customer is skipped, and nothing is written.
      cases huser : resolveUserId db.subscriptions sub with
      | none =>
        rw [huser] at h
        cases h
        refine Or.inr (Or.inr ⟨[], rfl, ?_, by simp⟩)
        exact except_bind_eq_ok.mpr ⟨sub, rfl, by rw [huser]; rfl⟩
      | some userId =>
        rw [huser] at h
        cases h
        exact Or.inr (Or.inl ⟨sub, userId, rfl⟩)
  · rename_i htype
    rw [if_neg htype]
    split at h
    · rename_i hinvoice
      rw [if_pos hinvoice]
      cases hdecode : decodeObject "invoice" ctx.webhook.decodeInvoice env.object with
      | error e =>
        rw [hdecode] at h
        cases h
        exact Or.inl ⟨e, rfl⟩
      | ok invoice =>
        rw [hdecode] at h
        dsimp only at h
        split at h
        · rename_i subId periodStart hsub hperiod
          rcases execRows_keep h with ⟨e, -, rfl⟩ | ⟨rows, hrows, rfl, hfree⟩
          · exact Or.inl ⟨e, rfl⟩
          · refine Or.inr (Or.inr ⟨rows, rfl, ?_, hfree⟩)
            exact except_bind_eq_ok.mpr ⟨invoice, rfl, by rw [hsub, hperiod]; exact hrows⟩
        -- An invoice without a subscription or a period is passed over.
        · rename_i hnone
          cases h
          refine Or.inr (Or.inr ⟨[], rfl, ?_, by simp⟩)
          refine except_bind_eq_ok.mpr ⟨invoice, rfl, ?_⟩
          split
          · rename_i subId periodStart hsub hperiod
            exact (hnone subId periodStart hsub hperiod).elim
          · rfl
    -- Every other event writes nothing.
    · rename_i hinvoice
      rw [if_neg hinvoice]
      cases h
      exact Or.inr (Or.inr ⟨[], rfl, rfl, by simp⟩)

/-- A step of a delivery that does not commit. -/
theorem advanceWebhook_keep {req : WebhookRequest} {phase : WebhookPhase}
    (hok : JobOk ctx db (.webhook req phase))
    (hapart : ∀ o ∈ others, Apart (.webhook req phase) o)
    (h : advanceWebhook ctx.webhook db others req phase = some (.keep job')) :
    Kept ctx db others job' := by
  cases phase with
  | received =>
    rw [advanceWebhook] at h
    rcases goOn_keep h with ⟨e, -, rfl⟩ | ⟨admitted, hchecked, rfl⟩
    · exact kept_of_idle True.intro rfl rfl
    · exact kept_of_idle hchecked rfl rfl
  | begun billing env =>
    rw [advanceWebhook] at h
    split at h
    · cases h
    · rename_i hfree
      -- No open transaction holds the event id, so the insert decides at once.
      rcases tryRecordStripeEvent_cases db.events env.id env.eventType with
        ⟨hrec, heq⟩ | ⟨hrec, heq⟩
      · rw [heq] at h
        cases h
        exact kept_of_idle ⟨hok, hrec⟩ rfl rfl
      · rw [heq] at h
        cases h
        refine ⟨⟨hok, hrec⟩, fun o ho => ⟨by simp [Job.rows], ?_⟩⟩
        intro id hid hother
        obtain rfl := Option.some.inj hid
        exact hfree (List.any_eq_true.mpr ⟨o, ho, decide_eq_true hother⟩)
  | replay billing env => cases h
  | recorded billing env =>
    rcases advanceWebhook_recorded h with ⟨e, rfl⟩ | ⟨sub, userId, rfl⟩ |
      ⟨rows, rfl, hwrites, hfree⟩
    · exact kept_of_idle True.intro rfl rfl
    · exact ⟨hok, fun o ho => (hapart o ho).of_rows rfl (by simp [Job.rows])⟩
    · refine ⟨⟨hok.1, hok.2, hwrites⟩, fun o ho => (hapart o ho).of_rows rfl ?_⟩
      exact fun w hw r hr heq => hfree o ho r hr w hw heq.symm
  | resolved billing env sub userId =>
    rw [advanceWebhook] at h
    rcases execRows_keep h with ⟨e, -, rfl⟩ | ⟨rows, hrows, -, -⟩
    · exact kept_of_idle True.intro rfl rfl
    -- After all migrations the upsert fails, so it has written no rows.
    · obtain ⟨v, hv, -⟩ := upsertFromWebhook_afterMigrations db.subscriptions req.txTime
        req.newId (upsertPayload billing.prices sub userId)
      rw [hv] at hrows
      cases hrows
  | written billing env rows =>
    rw [advanceWebhook] at h
    split at h
    · cases h
    · cases h
      exact kept_of_idle True.intro rfl rfl
  | finished result => cases h

/-- A step of a chat that does not commit. -/
theorem advanceChat_keep {task : ChatTask} {phase : ChatPhase}
    (hok : JobOk ctx db (.chat task phase))
    (h : advanceChat ctx db others task phase = some (.keep job')) :
    Kept ctx db others job' := by
  cases phase with
  | received =>
    rcases goOn_keep h with ⟨e, -, rfl⟩ | ⟨_, -, rfl⟩ <;> exact kept_of_idle True.intro rfl rfl
  | fetched sub =>
    rcases goOn_keep h with ⟨e, -, rfl⟩ | ⟨_, -, rfl⟩ <;> exact kept_of_idle True.intro rfl rfl
  | streaming => cases h
  | charging usage =>
    rcases goOn_keep h with ⟨e, -, rfl⟩ | ⟨row, hrow, rfl⟩
    · exact kept_of_idle True.intro rfl rfl
    · exact kept_of_idle (chargeLedgerRow_ok hrow).1 rfl rfl
  | ledgerWritten row =>
    rcases execRows_keep h with ⟨e, -, rfl⟩ | ⟨rows, hrows, rfl, hfree⟩
    · exact kept_of_idle True.intro rfl rfl
    · refine ⟨⟨hok, hrows⟩, fun o ho => ⟨?_, by simp [Job.eventId]⟩⟩
      exact fun w hw r hr heq => hfree o ho r hr w hw heq.symm
  | bumped row rows =>
    rw [advanceChat] at h
    split at h
    · cases h
    · cases h
      exact kept_of_idle True.intro rfl rfl
  | finished => cases h

/-- A step keeps the request of a delivery. -/
theorem advanceWebhook_task {req : WebhookRequest} {phase : WebhookPhase}
    (h : advanceWebhook ctx.webhook db others req phase = some (.keep job')) :
    Job.task job' = .webhook req := by
  cases phase with
  | received => rcases goOn_keep h with ⟨e, -, rfl⟩ | ⟨x, -, rfl⟩ <;> rfl
  | begun billing env =>
    rw [advanceWebhook] at h
    split at h
    · cases h
    · split at h <;> cases h <;> rfl
  | replay billing env => cases h
  | recorded billing env =>
    rcases advanceWebhook_recorded h with ⟨e, rfl⟩ | ⟨sub, userId, rfl⟩ | ⟨rows, rfl, -⟩ <;> rfl
  | resolved billing env sub userId =>
    rw [advanceWebhook] at h
    rcases execRows_keep h with ⟨e, -, rfl⟩ | ⟨rows, -, rfl, -⟩ <;> rfl
  | written billing env rows =>
    rw [advanceWebhook] at h
    split at h <;> cases h
    rfl
  | finished result => cases h

/-- A step of a usage report that does not commit. -/
theorem advanceUsage_keep {userId : Uuid} {req : UsageRequest} {phase : UsagePhase}
    (h : advanceUsage db userId req phase = some (.keep job')) : Kept ctx db others job' := by
  cases phase with
  | received =>
    rcases goOn_keep h with ⟨e, -, rfl⟩ | ⟨row, hrow, rfl⟩
    · exact kept_of_idle True.intro rfl rfl
    · refine kept_of_idle ?_ rfl rfl
      obtain ⟨-, -, hrow⟩ := except_bind_eq_ok.mp hrow
      obtain ⟨huser, hcost⟩ := recordUsage_ok (ofStatement_eq_ok.mp hrow)
      exact ⟨huser, hcost⟩
  | written row => cases h
  | finished => cases h

/-- A step of a job that does not commit. -/
theorem advance_keep (hok : JobOk ctx db job) (hapart : ∀ o ∈ others, Apart job o)
    (h : advance ctx db others job = some (.keep job')) : Kept ctx db others job' := by
  cases job with
  | webhook req phase => exact advanceWebhook_keep hok hapart h
  | chat task phase => exact advanceChat_keep hok h
  | usage userId req phase => exact advanceUsage_keep h

@[simp] theorem over_task (answered : Bool) (job : Job) :
    Job.task (Job.over answered job) = Job.task job := by
  cases job <;> rfl

@[simp] theorem over_rows (answered : Bool) (job : Job) : (Job.over answered job).rows = [] := by
  cases job <;> rfl

@[simp] theorem over_eventId (answered : Bool) (job : Job) :
    (Job.over answered job).eventId = none := by
  cases job <;> rfl

/-- What the invariant asks of a commit: the log entry computes it, and the
job is over, with the answer to the COMMIT or without it. -/
structure Committed (ctx : SysContext) (db db' : BillingDb afterMigrations) (job : Job)
    (c : Commit) : Prop where
  run : Commit.run ctx db c = some db'
  by_job : ∀ answered, CommittedBy ctx (Job.over answered job) c
  ok : ∀ answered, JobOk ctx db' (Job.over answered job)
  patched : Patched job db db'

/-- The ledger transaction. -/
theorem chargeTx_ok {userId : Uuid} {txTime : Timestamp} {row : LedgerRow} :
    chargeTx userId txTime row db = .ok db' ↔
      ∃ rows subscriptions,
        addAiCreditsUsed db.subscriptions txTime userId row.costCredits = .ok rows ∧
        db.subscriptions.write rows = .ok subscriptions ∧
        db' = { db with subscriptions, ledger := db.ledger ++ [row] } := by
  unfold chargeTx
  simp only [except_bind_eq_ok, mapError_eq_ok]
  constructor
  · rintro ⟨rows, hrows, subscriptions, hsubs, hdb⟩
    cases hdb
    exact ⟨rows, subscriptions, hrows, hsubs, rfl⟩
  · rintro ⟨rows, subscriptions, hrows, hsubs, rfl⟩
    exact ⟨rows, hrows, subscriptions, hsubs, rfl⟩

theorem run_delivery {billing : BillingConfig} {env : Envelope} {req : WebhookRequest} :
    Commit.run ctx db (.delivery billing env req) = some db' ↔
      webhookTx ctx.webhook billing env req db = .ok db' :=
  toOption_eq_some

theorem run_charge {userId : Uuid} {txTime : Timestamp} {row : LedgerRow} :
    Commit.run ctx db (.charge userId txTime row) = some db' ↔
      chargeTx userId txTime row db = .ok db' :=
  toOption_eq_some

/-- What a commit does to a row of `subscriptions`. -/
def effect (ctx : SysContext) (db : BillingDb afterMigrations) (c : Commit) (r : Row) : Row :=
  match c with
  | .delivery _ env req =>
    if db.events.rows.any fun e => e.stripeEventId = env.id then r
    else
      match resetOf ctx.webhook env with
      | none => r
      | some (subscriptionId, periodStart) =>
        if hasSubscriptionId subscriptionId r then resetRow req.txTime periodStart r else r
  | .charge userId txTime row =>
    if billableFor userId r then chargeRow txTime row.costCredits r else r
  | .usage _ => r

/-- No commit adds or removes a row, or changes a frozen column. -/
theorem frozen_effect (r : Row) : frozen (effect ctx db c r) = frozen r := by
  unfold effect
  split
  · split
    · rfl
    · split
      · rfl
      · split <;> rfl
  · split <;> rfl
  · rfl

@[simp] theorem effect_id (r : Row) : (effect ctx db c r).id = r.id :=
  id_of_frozen (frozen_effect r)

@[simp] theorem effect_stripeSubscriptionId (r : Row) :
    (effect ctx db c r).stripeSubscriptionId = r.stripeSubscriptionId := by
  have h : frozen (effect ctx db c r) = frozen r := frozen_effect r
  simpa only [frozen] using congrArg Row.stripeSubscriptionId h

/-- The rows after a commit, row by row. -/
theorem rows_run (h : Commit.run ctx db c = some db') :
    db'.subscriptions.rows = db.subscriptions.rows.map (effect ctx db c) := by
  cases c with
  | delivery billing env req =>
    by_cases hrec : Recorded db env.id
    -- A replayed event changes no row.
    · cases h.symm.trans (run_delivery.mpr (webhookTx_recorded hrec))
      refine ((List.map_congr_left fun r _ => ?_).trans (List.map_id _)).symm
      exact if_pos (by simpa [Recorded] using hrec)
    · obtain ⟨rows, events, subscriptions, hwrites, -, hsubs, rfl⟩ :=
        (webhookTx_new hrec).mp (run_delivery.mp h)
      have hnew : (db.events.rows.any fun e => e.stripeEventId = env.id) = false := by
        simpa [Recorded] using hrec
      cases hreset : resetOf ctx.webhook env with
      | none =>
        rw [webhookWrites_ok hwrites, resetRows, hreset] at hsubs
        cases (Table.write_nil _).symm.trans hsubs
        have heffect : ∀ r, effect ctx db (.delivery billing env req) r = r := by
          intro r
          simp [effect, hnew, hreset]
        exact ((List.map_congr_left fun r _ => heffect r).trans (List.map_id _)).symm
      | some reset =>
        obtain ⟨subscriptionId, periodStart⟩ := reset
        rw [webhookWrites_ok hwrites, resetRows, hreset] at hsubs
        have hkey : ∀ r, afterMigrations.key (resetRow req.txTime periodStart r)
            = afterMigrations.key r := fun _ => rfl
        have heffect : ∀ r, effect ctx db (.delivery billing env req) r =
            if hasSubscriptionId subscriptionId r then resetRow req.txTime periodStart r
            else r := by
          intro r
          simp [effect, hnew, hreset]
        rw [List.map_congr_left fun r _ => heffect r]
        exact Table.write_updated_rows hkey hsubs
  | charge userId txTime row =>
    obtain ⟨rows, subscriptions, hrows, hsubs, rfl⟩ := chargeTx_ok.mp (run_charge.mp h)
    obtain ⟨r, hr, hone, rfl, -⟩ := addAiCreditsUsed_ok hrows
    -- The one billable row of the user is all that the UPDATE selects.
    have hupdated : [chargeRow txTime row.costCredits r] = db.subscriptions.updated
        (billableFor userId) (chargeRow txTime row.costCredits) := by
      rw [Table.updated, hone, List.map_singleton]
    rw [hupdated] at hsubs
    exact Table.write_updated_rows (fun _ => rfl) hsubs
  | usage row =>
    cases h
    exact (List.map_id _).symm

/-- The steps that commit: the job before, the tables after, and the log
entry. -/
inductive CommitStep (db : BillingDb afterMigrations) :
    Job → BillingDb afterMigrations → Commit → Prop where
  | replay (req : WebhookRequest) (billing : BillingConfig) (env : Envelope) :
    CommitStep db (.webhook req (.replay billing env)) db (.delivery billing env req)
  | written (req : WebhookRequest) (billing : BillingConfig) (env : Envelope) (rows : List Row)
    (events : Table stripeEvents) (subscriptions : Table afterMigrations)
    (hevents : db.events.write [⟨env.id, env.eventType⟩] = .ok events)
    (hsubs : db.subscriptions.write rows = .ok subscriptions) :
    CommitStep db (.webhook req (.written billing env rows)) { db with events, subscriptions }
      (.delivery billing env req)
  | charge (task : ChatTask) (row : LedgerRow) (rows : List Row)
    (subscriptions : Table afterMigrations)
    (hsubs : db.subscriptions.write rows = .ok subscriptions) :
    CommitStep db (.chat task (.bumped row rows))
      { db with subscriptions, ledger := db.ledger ++ [row] }
      (.charge task.userId task.txTime row)
  | usage (userId : Uuid) (req : UsageRequest) (row : LedgerRow) :
    CommitStep db (.usage userId req (.written row)) { db with ledger := db.ledger ++ [row] }
      (.usage row)

/-- A delivery commits after a replay or after its writes. -/
theorem advanceWebhook_commit {wctx : WebhookContext} {req : WebhookRequest}
    {phase : WebhookPhase}
    (h : advanceWebhook wctx db others req phase = some (.commit job' db' c)) :
    CommitStep db (.webhook req phase) db' c ∧ job' = Job.over true (.webhook req phase) := by
  cases phase with
  -- Before its writes a delivery goes on or fails.
  | received => exact absurd h goOn_not_commit
  | begun billing env =>
    rw [advanceWebhook] at h
    split at h
    · cases h
    · split at h <;> cases h
  | replay billing env =>
    cases h
    exact ⟨.replay req billing env, rfl⟩
  | recorded billing env =>
    rw [advanceWebhook] at h
    split at h
    · split at h
      · cases h
      · split at h <;> cases h
    · split at h
      · split at h
        · cases h
        · split at h
          · exact absurd h execRows_not_commit
          · cases h
      · cases h
  | resolved billing env sub userId =>
    rw [advanceWebhook] at h
    exact absurd h execRows_not_commit
  | written billing env rows =>
    rw [advanceWebhook] at h
    split at h
    · rename_i events subscriptions hevents hsubs
      cases h
      exact ⟨.written req billing env rows events subscriptions hevents hsubs, rfl⟩
    · cases h
  | finished result => cases h

/-- A chat commits after the counter. -/
theorem advanceChat_commit {task : ChatTask} {phase : ChatPhase}
    (h : advanceChat ctx db others task phase = some (.commit job' db' c)) :
    CommitStep db (.chat task phase) db' c ∧ job' = Job.over true (.chat task phase) := by
  cases phase with
  | received => exact absurd h goOn_not_commit
  | fetched sub => exact absurd h goOn_not_commit
  | streaming => cases h
  | charging usage => exact absurd h goOn_not_commit
  | ledgerWritten row => exact absurd h execRows_not_commit
  | bumped row rows =>
    rw [advanceChat] at h
    split at h
    · rename_i subscriptions hsubs
      cases h
      exact ⟨.charge task row rows subscriptions hsubs, rfl⟩
    · cases h
  | finished => cases h

/-- A step of a job that commits is one of the four, and answers the request. -/
theorem commitStep_of_advance (h : advance ctx db others job = some (.commit job' db' c)) :
    CommitStep db job db' c ∧ job' = Job.over true job := by
  cases job with
  | webhook req phase => exact advanceWebhook_commit h
  | chat task phase => exact advanceChat_commit h
  | usage userId req phase =>
    cases phase with
    | received => exact absurd h goOn_not_commit
    | written row =>
      cases h
      exact ⟨.usage userId req row, rfl⟩
    | finished => cases h

/-- A delivery whose event is recorded is over, whatever its answer. -/
theorem over_ok {req : WebhookRequest} {phase : WebhookPhase} (answered : Bool)
    (h : ∃ billing env, admitWebhook ctx.webhook req = .ok (billing, env) ∧ Recorded db env.id) :
    JobOk ctx db (Job.over answered (.webhook req phase)) := by
  cases answered with
  | true => exact h
  | false => exact True.intro

/-- A job that commits and is not answered has failed. -/
theorem CommitStep.failed (h : CommitStep db job db' c) :
    job.failed = some (Job.over false job) := by
  cases h <;> rfl

/-- A step of a job that commits. -/
theorem CommitStep.committed (hok : JobOk ctx db job) (h : CommitStep db job db' c) :
    Committed ctx db db' job c := by
  cases h with
  | replay req billing env =>
    exact
      { run := run_delivery.mpr (webhookTx_recorded hok.2)
        by_job := fun _ => ⟨rfl, hok.1⟩
        ok := fun answered => over_ok answered ⟨billing, env, hok.1, hok.2⟩
        patched := ⟨patch_nil _, by simp [Job.eventId]⟩ }
  | written req billing env rows events subscriptions hevents hsubs =>
    obtain ⟨hchecked, hnew, hwrites⟩ := hok
    -- The rows were computed when the statement ran. The invariant says that it
    -- would write the same ones now.
    have htx : webhookTx ctx.webhook billing env req db = .ok { db with events, subscriptions } :=
      (webhookTx_new hnew).mpr ⟨rows, events, subscriptions, hwrites, hevents, hsubs, rfl⟩
    exact
      { run := run_delivery.mpr htx
        by_job := fun _ => ⟨rfl, hchecked⟩
        ok := fun answered => over_ok answered
          ⟨billing, env, hchecked, (recorded_write hevents env.id).mpr (Or.inr rfl)⟩
        patched := ⟨⟨hsubs, versions_webhook hwrites⟩, fun id => by
          rw [Recorded, recorded_write hevents, Job.eventId, Option.some.injEq]
          rfl⟩ }
  | charge task row rows subscriptions hsubs =>
    obtain ⟨huser, hrows⟩ := hok
    have htx := chargeTx_ok.mpr ⟨rows, subscriptions, hrows, hsubs, rfl⟩
    exact
      { run := run_charge.mpr htx
        by_job := fun _ => ⟨rfl, rfl, huser⟩
        ok := fun _ => True.intro
        patched := ⟨⟨hsubs, versions_charge hrows⟩, by simp [Job.eventId, Recorded]⟩ }
  | usage userId req row =>
    exact
      { run := rfl
        by_job := fun _ => hok
        ok := fun _ => True.intro
        patched := ⟨patch_nil _, by simp [Job.eventId, Recorded]⟩ }

/-- A job that has committed does nothing more. -/
theorem committedBy_over (h : CommittedBy ctx job c) :
    (∀ db others, advance ctx db others job = none) ∧ job.failed = none ∧
      ∀ chunks connected, endStream ctx chunks connected job = none := by
  unfold CommittedBy at h
  -- A finished delivery, chat and usage report.
  split at h
  · exact ⟨fun _ _ => rfl, rfl, fun _ _ => rfl⟩
  · exact ⟨fun _ _ => rfl, rfl, fun _ _ => rfl⟩
  · exact ⟨fun _ _ => rfl, rfl, fun _ _ => rfl⟩
  · exact h.elim

/-- The commit of another job does not change what a job has computed. -/
theorem JobOk.patched {other : Job} (hok : JobOk ctx db other) (hapart : Apart job other)
    (hpatched : Patched job db db') : JobOk ctx db' other := by
  have hkeep : ∀ id, Recorded db id → Recorded db' id :=
    fun id h => (hpatched.events id).mpr (Or.inl h)
  have hnew : ∀ id, other.eventId = some id → ¬ Recorded db id → ¬ Recorded db' id := by
    intro id hid hn hr
    rcases (hpatched.events id).mp hr with hr | hr
    · exact hn hr
    · exact hapart.event id hr hid
  have hrows : ∀ r ∈ other.rows, ∀ w ∈ job.rows, w.id ≠ r.id :=
    fun r hr w hw => hapart.rows w hw r hr
  -- Only what was read from the tables is affected: the event ids, and the rows
  -- that a statement has written.
  cases other with
  | webhook req phase =>
    cases phase with
    | received => exact True.intro
    | begun billing env => exact hok
    | replay billing env => exact ⟨hok.1, hkeep _ hok.2⟩
    | recorded billing env => exact ⟨hok.1, hnew _ rfl hok.2⟩
    | resolved billing env sub userId => exact ⟨hok.1, hnew _ rfl hok.2⟩
    | written billing env rows =>
      obtain ⟨hchecked, hn, hwrites⟩ := hok
      exact ⟨hchecked, hnew _ rfl hn, webhookWrites_patch hpatched.subscriptions hwrites hrows⟩
    | finished result =>
      cases result with
      | error e => exact True.intro
      | ok _ =>
        obtain ⟨billing, env, hchecked, hr⟩ := hok
        exact ⟨billing, env, hchecked, hkeep _ hr⟩
  | chat task phase =>
    cases phase with
    | received => exact True.intro
    | fetched sub => exact True.intro
    | streaming => exact True.intro
    | charging usage => exact True.intro
    | ledgerWritten row => exact hok
    | bumped row rows =>
      exact ⟨hok.1, addAiCreditsUsed_patch hpatched.subscriptions hok.2 hrows⟩
    | finished => exact True.intro
  | usage userId req phase =>
    cases phase with
    | received => exact True.intro
    | written row => exact hok
    | finished => exact True.intro

end

/-! ### A step of the service -/

section
variable {ctx : SysContext} {db₀ db' : BillingDb afterMigrations} {s s' : Sys} {i : Nat}
  {job job' : Job} {c : Commit} {as : List Action}

theorem inv_init (ctx : SysContext) (db₀ : BillingDb afterMigrations) :
    Inv ctx db₀ (Sys.init db₀) where
  replay := rfl
  ok := by simp [Sys.init]
  apart := by simp [Sys.init]
  once := List.nodup_nil
  committed := by simp [Sys.init]

/-- The jobs beside the job `i`. -/
theorem Inv.apart_others (h : Inv ctx db₀ s) (hi : s.jobs[i]? = some job) :
    ∀ o ∈ s.jobs.eraseIdx i, Apart job o := by
  intro o ho
  obtain ⟨k, hk, hko⟩ := List.mem_eraseIdx_iff_getElem?.mp ho
  exact h.apart i k job o hk.symm hi hko

/-- A job that can still move has not committed. -/
theorem Inv.not_logged (h : Inv ctx db₀ s) (hi : s.jobs[i]? = some job)
    (hlive : ∀ c, ¬ CommittedBy ctx job c) : ∀ e ∈ s.log, e.1 ≠ i := by
  rintro e he rfl
  obtain ⟨x, hx, hby⟩ := h.committed e he
  cases hi.symm.trans hx
  exact hlive e.2 hby

/-- Two jobs stay apart when one of them is replaced. -/
theorem Inv.apart_set (h : Inv ctx db₀ s) (hi : s.jobs[i]? = some job)
    (hapart : ∀ o ∈ s.jobs.eraseIdx i, Apart job' o) :
    ∀ (j k : Nat) a b, j ≠ k → (s.jobs.set i job')[j]? = some a →
      (s.jobs.set i job')[k]? = some b → Apart a b := by
  intro j k a b hjk ha hb
  -- At most one of the two is the new job.
  rcases getElem?_set_cases hi ha with ⟨rfl, rfl⟩ | ⟨hj, hold⟩
  · rcases getElem?_set_cases hi hb with ⟨rfl, -⟩ | ⟨hk, hb⟩
    · exact absurd rfl hjk
    · exact hapart b (List.mem_eraseIdx_iff_getElem?.mpr ⟨k, hk, hb⟩)
  · rcases getElem?_set_cases hi hb with ⟨rfl, rfl⟩ | ⟨hk, hb⟩
    · exact (hapart a (List.mem_eraseIdx_iff_getElem?.mpr ⟨j, hj, hold⟩)).symm
    · exact h.apart j k a b hjk hold hb

/-- The log entries still belong to jobs that committed them. -/
theorem Inv.committed_set (h : Inv ctx db₀ s) (hlogged : ∀ e ∈ s.log, e.1 ≠ i) :
    ∀ e ∈ s.log, ∃ x, (s.jobs.set i job')[e.1]? = some x ∧ CommittedBy ctx x e.2 := by
  intro e he
  obtain ⟨x, hx, hby⟩ := h.committed e he
  exact ⟨x, by rwa [List.getElem?_set_ne (Ne.symm (hlogged e he))], hby⟩

/-- A step of the job `i` that does not commit. -/
theorem Inv.keep (h : Inv ctx db₀ s) (hi : s.jobs[i]? = some job)
    (hlive : ∀ c, ¬ CommittedBy ctx job c)
    (hkept : Kept ctx s.db (s.jobs.eraseIdx i) job') : Inv ctx db₀ (s.apply i (.keep job')) where
  replay := h.replay
  ok k x hx := by
    rcases getElem?_set_cases hi hx with ⟨-, rfl⟩ | ⟨-, hx⟩
    · exact hkept.1
    · exact h.ok k x hx
  apart := h.apart_set hi hkept.2
  once := h.once
  committed := h.committed_set (h.not_logged hi hlive)

/-- A step of the job `i` that commits. -/
theorem Inv.commit (h : Inv ctx db₀ s) (hi : s.jobs[i]? = some job)
    (hlive : ∀ c, ¬ CommittedBy ctx job c) (hc : Committed ctx s.db db' job c)
    (answered : Bool) : Inv ctx db₀ (s.apply i (.commit (Job.over answered job) db' c)) where
  replay := by
    -- The new entry runs on the tables that the log has so far.
    rw [Sys.apply, List.map_append, Transition.run_append]
    exact ⟨s.db, h.replay, Transition.run_cons_eq_some.mpr ⟨db', hc.run, rfl⟩⟩
  ok k x hx := by
    rcases getElem?_set_cases hi hx with ⟨-, rfl⟩ | ⟨hk, hx⟩
    · exact hc.ok answered
    · exact (h.ok k x hx).patched (h.apart i k job x (Ne.symm hk) hi hx) hc.patched
  apart := h.apart_set hi fun o _ => apart_of_idle o (over_rows _ _) (over_eventId _ _)
  once := by
    rw [Sys.apply, List.map_append, List.map_singleton, List.nodup_append]
    -- A job that can still move has no entry yet.
    refine ⟨h.once, List.nodup_singleton _, fun k hk k' hk' => ?_⟩
    obtain ⟨e, he, rfl⟩ := List.mem_map.mp hk
    rw [List.mem_singleton.mp hk']
    exact h.not_logged hi hlive e he
  committed e he := by
    rcases List.mem_append.mp he with he | he
    · exact h.committed_set (h.not_logged hi hlive) e he
    · rw [List.mem_singleton.mp he]
      exact ⟨_, List.getElem?_set_self (List.getElem?_eq_some_iff.mp hi).1, hc.by_job answered⟩

/-- A new request. -/
theorem Inv.spawn (h : Inv ctx db₀ s) (task : Task) :
    Inv ctx db₀ { s with jobs := s.jobs ++ [task.start] } := by
  have hidle : task.start.rows = [] ∧ task.start.eventId = none := by
    cases task <;> exact ⟨rfl, rfl⟩
  refine ⟨h.replay, fun k x hx => ?_, fun j k a b hjk ha hb => ?_, h.once, fun e he => ?_⟩
  · rcases getElem?_concat_cases hx with hx | ⟨-, rfl⟩
    · exact h.ok k x hx
    · cases task <;> exact True.intro
  · rcases getElem?_concat_cases ha with ha | ⟨hj, rfl⟩
    · rcases getElem?_concat_cases hb with hb | ⟨-, rfl⟩
      · exact h.apart j k a b hjk ha hb
      · exact (apart_of_idle a hidle.1 hidle.2).symm
    · exact apart_of_idle b hidle.1 hidle.2
  · obtain ⟨x, hx, hby⟩ := h.committed e he
    have hlt : e.1 < s.jobs.length := (List.getElem?_eq_some_iff.mp hx).1
    exact ⟨x, by rwa [List.getElem?_append_left hlt], hby⟩

/-- A job that fails holds nothing any more. -/
theorem kept_failed (h : job.failed = some job') (db : BillingDb afterMigrations)
    (others : List Job) : Kept ctx db others job' := by
  unfold Job.failed at h
  split at h <;> cases h <;> exact kept_of_idle True.intro rfl rfl

/-- The end of an upstream stream. -/
theorem endStream_cases {chunks : List Chunk} {connected : Nat → Bool}
    (h : endStream ctx chunks connected job = some job') :
    ∃ task, job = .chat task .streaming ∧
      ((∃ usage, (runStream ctx.stream connected chunks).charged = some usage ∧
          job' = .chat task (.charging usage)) ∨
        job' = .chat task .finished) := by
  unfold endStream at h
  split at h
  · rename_i task
    split at h
    · rename_i usage hcharged
      cases h
      exact ⟨task, rfl, Or.inl ⟨usage, hcharged, rfl⟩⟩
    · cases h
      exact ⟨task, rfl, Or.inr rfl⟩
  · cases h

/-- The end of a stream leaves a job that holds nothing. -/
theorem kept_endStream {chunks : List Chunk} {connected : Nat → Bool}
    (h : endStream ctx chunks connected job = some job') (db : BillingDb afterMigrations)
    (others : List Job) : Kept ctx db others job' := by
  obtain ⟨task, -, ⟨usage, -, rfl⟩ | rfl⟩ := endStream_cases h <;>
    exact kept_of_idle True.intro rfl rfl

/-- The five ways of a step. A commit is answered or not. -/
theorem next_cases {a : Action} (h : next ctx s a = some s') :
    (∃ task, a = .spawn task ∧ s' = { s with jobs := s.jobs ++ [task.start] }) ∨
      (∃ i job job', a = .advance i ∧ s.jobs[i]? = some job ∧
        advance ctx s.db (s.jobs.eraseIdx i) job = some (.keep job') ∧
        s' = s.apply i (.keep job')) ∨
      (∃ i job db' c answered, a = commitAction answered i ∧ s.jobs[i]? = some job ∧
        CommitStep s.db job db' c ∧ s' = s.apply i (.commit (Job.over answered job) db' c)) ∨
      (∃ i job job', a = .fail i ∧ s.jobs[i]? = some job ∧ job.failed = some job' ∧
        s' = s.apply i (.keep job')) ∨
      ∃ i chunks connected job job', a = .stream i chunks connected ∧ s.jobs[i]? = some job ∧
        endStream ctx chunks connected job = some job' ∧ s' = s.apply i (.keep job') := by
  cases a with
  | spawn task =>
    cases h
    exact Or.inl ⟨task, rfl, rfl⟩
  | advance i =>
    simp only [next, bind, Option.bind_eq_some_iff, pure, Option.some.injEq] at h
    obtain ⟨job, hi, effect, heffect, rfl⟩ := h
    cases effect with
    | keep job' => exact Or.inr (Or.inl ⟨i, job, job', rfl, hi, heffect, rfl⟩)
    | commit job' db' c =>
      obtain ⟨hstep, rfl⟩ := commitStep_of_advance heffect
      exact Or.inr (Or.inr (Or.inl ⟨i, job, db', c, true, rfl, hi, hstep, rfl⟩))
  | fail i =>
    simp only [next, bind, Option.bind_eq_some_iff, pure, Option.some.injEq] at h
    obtain ⟨job, hi, job', hfailed, rfl⟩ := h
    exact Or.inr (Or.inr (Or.inr (Or.inl ⟨i, job, job', rfl, hi, hfailed, rfl⟩)))
  | unanswered i =>
    simp only [next, bind, Option.bind_eq_some_iff, pure, Option.some.injEq] at h
    obtain ⟨job, hi, effect, heffect, lost, hlost, rfl⟩ := h
    cases effect with
    -- Only a commit can take effect without its answer.
    | keep job' => cases hlost
    | commit job' db' c =>
      obtain ⟨hstep, -⟩ := commitStep_of_advance heffect
      simp only [Effect.unanswered, hstep.failed, Option.map_some, Option.some.injEq] at hlost
      subst hlost
      exact Or.inr (Or.inr (Or.inl ⟨i, job, db', c, false, rfl, hi, hstep, rfl⟩))
  | stream i chunks connected =>
    simp only [next, bind, Option.bind_eq_some_iff, pure, Option.some.injEq] at h
    obtain ⟨job, hi, job', hended, rfl⟩ := h
    exact Or.inr (Or.inr (Or.inr (Or.inr
      ⟨i, chunks, connected, job, job', rfl, hi, hended, rfl⟩)))

/-- A job that commits is not over. -/
theorem CommitStep.live (h : CommitStep s.db job db' c) (c' : Commit) :
    ¬ CommittedBy ctx job c' := by
  intro hby
  cases h.failed.symm.trans (committedBy_over hby).2.1

/-- Every step keeps the invariant. -/
theorem inv_step {a : Action} (h : Inv ctx db₀ s) (hnext : next ctx s a = some s') :
    Inv ctx db₀ s' := by
  rcases next_cases hnext with ⟨task, -, rfl⟩ | ⟨i, job, job', -, hi, hadvance, rfl⟩ |
    ⟨i, job, db', c, answered, -, hi, hstep, rfl⟩ | ⟨i, job, job', -, hi, hfailed, rfl⟩ |
    ⟨i, chunks, connected, job, job', -, hi, hended, rfl⟩
  · exact h.spawn task
  -- A job that moves is not over.
  · refine h.keep hi (fun c hby => ?_)
      (advance_keep (h.ok i job hi) (h.apart_others hi) hadvance)
    rw [(committedBy_over hby).1] at hadvance
    cases hadvance
  -- The tables of a commit are the same with its answer and without.
  · exact h.commit hi hstep.live (hstep.committed (h.ok i job hi)) answered
  -- A failed job and an ended stream hold nothing.
  · refine h.keep hi (fun c hby => ?_) (kept_failed hfailed s.db _)
    rw [(committedBy_over hby).2.1] at hfailed
    cases hfailed
  · refine h.keep hi (fun c hby => ?_) (kept_endStream hended s.db _)
    rw [(committedBy_over hby).2.2] at hended
    cases hended

/-- What a step does to the tables and the log: nothing, or one commit. -/
theorem step_log {a : Action} (h : Inv ctx db₀ s) (hnext : next ctx s a = some s') :
    (s'.db = s.db ∧ s'.log = s.log) ∨
      ∃ i job c answered, a = commitAction answered i ∧ s.jobs[i]? = some job ∧
        s'.jobs = s.jobs.set i (Job.over answered job) ∧ CommitStep s.db job s'.db c ∧
        Committed ctx s.db s'.db job c ∧ s'.log = s.log ++ [(i, c)] := by
  rcases next_cases hnext with ⟨task, -, rfl⟩ | ⟨i, job, job', -, hi, hadvance, rfl⟩ |
    ⟨i, job, db', c, answered, ha, hi, hstep, rfl⟩ | ⟨i, job, job', -, hi, hfailed, rfl⟩ |
    ⟨i, chunks, connected, job, job', -, hi, hended, rfl⟩
  · exact Or.inl ⟨rfl, rfl⟩
  · exact Or.inl ⟨rfl, rfl⟩
  -- The log is extended by what commits, and by nothing else.
  · exact Or.inr ⟨i, job, c, answered, ha, hi, rfl, hstep, hstep.committed (h.ok i job hi), rfl⟩
  · exact Or.inl ⟨rfl, rfl⟩
  · exact Or.inl ⟨rfl, rfl⟩

/-- Every reached state has the invariant. -/
theorem inv_run (h : run (next ctx) (Sys.init db₀) as = some s) :
    Inv ctx db₀ s :=
  Transition.run_invariant (C := fun _ _ => True) (fun _ _ _ hs _ hnext => inv_step hs hnext)
    (inv_init ctx db₀) (Transition.along_true _ _) h

/-- Every row of a reached state is a version of a row of the first one. -/
theorem Inv.frozen_eq (h : Inv ctx db₀ s) {r : Row} (hr : r ∈ s.db.subscriptions.rows) :
    ∃ x ∈ db₀.subscriptions.rows, frozen r = frozen x := by
  -- The induction is on the commit log, which gives the tables.
  refine Transition.run_invariant
    (P := fun db => ∀ r ∈ db.subscriptions.rows, ∃ x ∈ db₀.subscriptions.rows, frozen r = frozen x)
    (C := fun _ _ => True) (fun db c db' hdb _ hc r hr => ?_) (fun r hr => ⟨r, hr, rfl⟩)
    (Transition.along_true _ _) h.replay r hr
  rw [rows_run hc] at hr
  obtain ⟨y, hy, rfl⟩ := List.mem_map.mp hr
  obtain ⟨x, hx, hxy⟩ := hdb y hy
  exact ⟨x, hx, (frozen_effect y).trans hxy⟩

/-- Commits are never taken back. -/
theorem run_log (h : run (next ctx) s as = some s') : s.log <+: s'.log := by
  refine Transition.run_invariant (P := fun x => s.log <+: x.log) (C := fun _ _ => True)
    (fun x a x' hx _ hnext => ?_) (List.prefix_refl _) (Transition.along_true _ _) h
  rcases next_cases hnext with ⟨task, -, rfl⟩ | ⟨i, job, job', -, -, -, rfl⟩ |
    ⟨i, job, db', c, answered, -, -, -, rfl⟩ | ⟨i, job, job', -, -, -, rfl⟩ |
    ⟨i, chunks, connected, job, job', -, -, -, rfl⟩
  · exact hx
  · exact hx
  -- Only a commit extends the log.
  · exact hx.trans (List.prefix_append _ _)
  · exact hx
  · exact hx

/-- The invariant at the state before a step of a run. -/
theorem inv_before {m m' : Sys} {a : Action}
    (h : StepOf (next ctx) (Sys.init db₀) as m a m') : Inv ctx db₀ m := by
  obtain ⟨pre, post, -, hpre⟩ := h.before
  exact inv_run hpre

end

end MizanConnect.Proofs.Billing
