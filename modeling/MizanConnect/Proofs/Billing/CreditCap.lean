import Mathlib.Algebra.Order.BigOperators.Group.List
import MizanConnect.Proofs.Billing.CreditLedger

/-!
# `MizanConnect.Proofs.Billing.CreditCap`: the monthly cap and chats in flight

`chat` compares `ai_credits_used` with the monthly cap before it opens the
upstream stream. The comment calls this a reservation, but nothing is
written: the counter moves only when the detached task commits its charge.
A second chat that reads the row in between passes the same check.

`reserved` is what a chat may still charge, and `hasRoom` says of a chat that
reads the row and will pass its check that the cap has room for it beside
the chats in flight. `cap_holds` proves that a run under this condition stays
under the cap, for any interleaving and any number of chats: the counter
plus the reserved credits is the invariant (`Capped`). The run of
`two_chats_exceed_cap` lets two chats read the row before one of them
charges.
-/

set_option autoImplicit false

namespace MizanConnect.Proofs.Billing

open MizanConnect.Billing
open MizanConnect.Billing.Repository
open MizanConnect.Billing.Subscriptions (Row afterMigrations)
open Sql (Table)
open Transition (run Along)

/-- The monthly quota of the plan of a row. -/
def monthlyCap (r : Row) : Int :=
  (entitlementsFor (some r.tier) (some r.status.asStr)).aiCreditsMonthly

/-- What a chat in a phase may still charge: the estimate of its kind from the
moment its check will pass, and the charge once that is known. -/
def pendingCost (ctx : SysContext) (req : AiChatRequest) : ChatPhase → Int
  | .fetched sub =>
    if (admitChat sub req.requestKind).isOk then req.requestKind.estimatedCost else 0
  | .streaming => req.requestKind.estimatedCost
  | .charging usage => usage.credits ctx.quotient
  | .ledgerWritten row => row.costCredits
  | .bumped row _ => row.costCredits
  | _ => 0

/-- What a job may still charge to a user. -/
def reserved (ctx : SysContext) (userId : Uuid) : Job → Int
  | .chat task phase => if task.userId = userId then pendingCost ctx task.request phase else 0
  | _ => 0

/-- The credits of a user in flight. -/
def inFlight (ctx : SysContext) (userId : Uuid) (jobs : List Job) : Int :=
  (jobs.map (reserved ctx userId)).sum

/-! ### Conditions on a step -/

/-- When a chat of the user reads the row and its check will pass, the cap has
room for its estimate beside the chats in flight. -/
def hasRoom (ctx : SysContext) (userId : Uuid) (cap : Int) (s : Sys) (a : Action) : Bool :=
  match a with
  | .advance i =>
    match s.jobs[i]? with
    | some (.chat task .received) =>
      task.userId ≠ userId || (s.db.subscriptions.rows.filter (billableFor userId)).all fun r =>
        decide (cap < r.aiCreditsUsed + task.request.requestKind.estimatedCost) ||
          decide (r.aiCreditsUsed + inFlight ctx userId s.jobs
            + task.request.requestKind.estimatedCost ≤ cap)
    | _ => true
  | _ => true

/-- A stream of the user charges at most the estimate of its kind. -/
def chargesAtMost (ctx : SysContext) (userId : Uuid) (s : Sys) (a : Action) : Bool :=
  match a with
  | .stream i chunks connected =>
    match s.jobs[i]?, (runStream ctx.stream connected chunks).charged with
    | some (.chat task .streaming), some usage => task.userId ≠ userId ||
      decide (usage.credits ctx.quotient ≤ task.request.requestKind.estimatedCost)
    | _, _ => true
  | _ => true

/-- No invoice resets a row of the user. -/
def keepsPeriod (ctx : SysContext) (userId : Uuid) (s : Sys) (a : Action) : Bool :=
  match Action.steps a with
  | some i =>
    match s.jobs[i]? with
    | some (.webhook _ (.written _ env _)) =>
      match resetOf ctx.webhook env with
      | some (subscriptionId, _) => s.db.subscriptions.rows.all fun r =>
        r.userId ≠ userId || !hasSubscriptionId subscriptionId r
      | none => true
    | _ => true
  | none => true

section
variable {ctx : SysContext} {db db' db₀ : BillingDb afterMigrations} {c : Commit}
  {userId : Uuid} {cap : Int} {s s' : Sys} {a : Action} {job job' : Job}

/-! ### Reserved credits -/

theorem reserved_nonneg (job : Job) : 0 ≤ reserved ctx userId job := by
  unfold reserved
  split
  · rename_i task phase
    split
    · unfold pendingCost
      have hestimate := task.request.requestKind.estimatedCost_bounds.1
      split
      · split <;> omega
      · omega
      · exact le_trans zero_le_one (one_le_creditsForTokens _ _ _)
      · exact LedgerRow.cost_nonneg _
      · exact LedgerRow.cost_nonneg _
      · exact le_refl 0
    · exact le_refl 0
  · exact le_refl 0

theorem inFlight_nonneg (ctx : SysContext) (userId : Uuid) (jobs : List Job) :
    0 ≤ inFlight ctx userId jobs := by
  have hall : ∀ x ∈ jobs.map (reserved ctx userId), 0 ≤ x := by
    intro x hx
    obtain ⟨job, -, rfl⟩ := List.mem_map.mp hx
    exact reserved_nonneg job
  exact List.sum_nonneg hall

/-- Replacing one job changes the credits in flight by the difference. -/
theorem inFlight_set (ctx : SysContext) (userId : Uuid) (job' : Job) {jobs : List Job} {i : Nat}
    (hi : jobs[i]? = some job) :
    inFlight ctx userId (jobs.set i job')
      = inFlight ctx userId jobs + (reserved ctx userId job' - reserved ctx userId job) := by
  induction jobs generalizing i with
  | nil => simp at hi
  | cons x jobs ih =>
    -- The job is the first one, or among the others.
    cases i with
    | zero =>
      cases hi
      simp only [inFlight, List.set_cons_zero, List.map_cons, List.sum_cons]
      omega
    | succ i =>
      have hrest := ih hi
      simp only [inFlight, List.set_cons_succ, List.map_cons, List.sum_cons] at hrest ⊢
      omega

/-- Only a chat reserves credits. -/
theorem reserved_of_webhook {req : WebhookRequest} (h : Job.task job = .webhook req) :
    reserved ctx userId job = 0 := by
  cases job with
  | webhook req phase => rfl
  | chat task phase => cases h
  | usage owner req phase => rfl

/-- A step of a chat that does not commit reserves no more, but for the one
that reads the row. -/
theorem pendingCost_advance {others : List Job} {task : ChatTask} {phase : ChatPhase}
    (h : advanceChat ctx db others task phase = some (.keep job')) :
    phase = .received ∧
        job' = .chat task (.fetched (fetchActive db.subscriptions task.userId)) ∨
      ∃ phase', job' = .chat task phase' ∧
        pendingCost ctx task.request phase' ≤ pendingCost ctx task.request phase := by
  -- A chat that ends reserves nothing.
  have hfinished : ∀ phase, pendingCost ctx task.request .finished
      ≤ pendingCost ctx task.request phase := fun phase => by
    have hnonneg : 0 ≤ reserved ctx task.userId (.chat task phase) := reserved_nonneg _
    rw [reserved, if_pos rfl] at hnonneg
    exact hnonneg
  cases phase with
  | received =>
    rcases goOn_keep h with ⟨e, -, rfl⟩ | ⟨x, -, rfl⟩
    · exact Or.inr ⟨.finished, rfl, hfinished _⟩
    · exact Or.inl ⟨rfl, rfl⟩
  | fetched sub =>
    rcases goOn_keep h with ⟨e, -, rfl⟩ | ⟨x, hok, rfl⟩
    · exact Or.inr ⟨.finished, rfl, hfinished _⟩
    · refine Or.inr ⟨.streaming, rfl, ?_⟩
      rw [pendingCost, pendingCost, hok]
      exact le_refl _
  | streaming => cases h
  | charging usage =>
    rcases goOn_keep h with ⟨e, -, rfl⟩ | ⟨row, hrow, rfl⟩
    · exact Or.inr ⟨.finished, rfl, hfinished _⟩
    · refine Or.inr ⟨.ledgerWritten row, rfl, ?_⟩
      rw [pendingCost, pendingCost, (chargeLedgerRow_ok hrow).2]
  | ledgerWritten row =>
    rcases execRows_keep h with ⟨e, -, rfl⟩ | ⟨rows, -, rfl, -⟩
    · exact Or.inr ⟨.finished, rfl, hfinished _⟩
    · exact Or.inr ⟨.bumped row rows, rfl, le_refl _⟩
  | bumped row rows =>
    rw [advanceChat] at h
    split at h
    · cases h
    · cases h
      exact Or.inr ⟨.finished, rfl, hfinished _⟩
  | finished => cases h

/-- A job that is over reserves nothing. -/
theorem reserved_over (answered : Bool) (job : Job) :
    reserved ctx userId (Job.over answered job) = 0 := by
  cases job with
  | webhook req phase => rfl
  | chat task phase => exact ite_self 0
  | usage owner req phase => rfl

/-- What a commit adds to the counter of the user was reserved. -/
theorem effect_used {r : Row} (hbill : billableFor userId r = true)
    (hstep : CommitStep db job db' c) (hok : JobOk ctx db job)
    (hperiod : ∀ req billing env rows id periodStart,
      job = .webhook req (.written billing env rows) →
      resetOf ctx.webhook env = some (id, periodStart) → hasSubscriptionId id r = false) :
    (effect ctx db c r).aiCreditsUsed = r.aiCreditsUsed + reserved ctx userId job := by
  cases hstep with
  | replay req billing env =>
    -- A replayed event changes no row.
    have hrec : (db.events.rows.any fun e => e.stripeEventId = env.id) = true := by
      simpa [Recorded] using hok.2
    have hsame : effect ctx db (.delivery billing env req) r = r := if_pos hrec
    rw [hsame]
    exact (Int.add_zero _).symm
  | written req billing env rows =>
    -- An event resets no row of the user.
    have hsame : effect ctx db (.delivery billing env req) r = r := by
      unfold effect
      dsimp only
      split
      · rfl
      · split
        · rfl
        · rename_i id periodStart hreset
          rw [hperiod req billing env rows id periodStart rfl hreset]
          rfl
    rw [hsame]
    exact (Int.add_zero _).symm
  | charge task row rows subscriptions hsubs =>
    simp only [billableFor, Bool.and_eq_true, decide_eq_true_eq] at hbill
    unfold effect reserved
    -- The charge moves from the chat to the counter, if the chat is of the
    -- user.
    by_cases huser : task.userId = userId
    · have hcharged : billableFor task.userId r = true := by
        simp [billableFor, hbill.1, hbill.2, huser]
      simp only [hcharged, if_pos huser, pendingCost, if_true, chargeRow]
    · have hother : billableFor task.userId r = false := by
        simp [billableFor, hbill.1, Ne.symm huser]
      simp [hother, huser]
  | usage owner req row => exact (Int.add_zero _).symm

/-! ### The cap check -/

/-- `fetch_active` finds the billable row of the user. -/
theorem fetchActive_eq {t : Table afterMigrations} {r : Row} (hr : r ∈ t.rows)
    (hbill : billableFor userId r = true) :
    fetchActive t userId = some (SubscriptionRow.ofRow r) := by
  have hmem : r ∈ t.rows.filter (billableFor userId) := List.mem_filter.mpr ⟨hr, hbill⟩
  rcases filter_billableFor t userId with hnone | ⟨x, -, -, hone⟩
  · rw [hnone] at hmem
    cases hmem
  · rw [hone, List.mem_singleton] at hmem
    subst hmem
    rw [fetchActive, hone, latest, Best.best_singleton]
    rfl

/-- A chat that passes the check keeps its estimate under a finite cap. -/
theorem le_of_admitChat {t : Table afterMigrations} {r : Row} {kind : RequestKind}
    (hr : r ∈ t.rows) (hfinite : monthlyCap r ≠ UNLIMITED)
    (hused : r.aiCreditsUsed ≤ monthlyCap r)
    (h : (admitChat (some (SubscriptionRow.ofRow r)) kind).isOk = true) :
    r.aiCreditsUsed + kind.estimatedCost ≤ monthlyCap r := by
  have hrange := isI32_used hr
  obtain ⟨hpos, hle⟩ := kind.estimatedCost_bounds
  -- A finite cap is far from the end of an i32, so the sum of the check does
  -- not wrap.
  have hcap : monthlyCap r ≤ 1500 := by
    rcases aiCreditsMonthly_cases (some r.tier) (some r.status.asStr) with h | h | h | h
    · exact absurd h hfinite
    · exact h.le.trans (by decide)
    · exact h.le.trans (by decide)
    · exact h.le
  have hsum : isI32 (r.aiCreditsUsed + kind.estimatedCost) = true := by
    simp only [isI32, decide_eq_true_eq] at hrange ⊢
    omega
  unfold admitChat at h
  split at h
  · cases h
  · split at h
    · rename_i hwithin
      simp only [withinCap, Option.map_some, Option.getD_some, Bool.or_eq_true,
        decide_eq_true_eq] at hwithin
      rcases hwithin with hunlimited | hwithin
      · exact absurd hunlimited hfinite
      · have hread : (SubscriptionRow.ofRow r).aiCreditsUsed = r.aiCreditsUsed := rfl
        rw [hread, wrapI32_eq hsum] at hwithin
        exact hwithin
    · cases h

/-! ### The invariant -/

/-- The counter of the user's billable row, with the credits in flight, is
within the cap. -/
def Capped (ctx : SysContext) (userId : Uuid) (cap : Int) (s : Sys) : Prop :=
  ∀ r ∈ s.db.subscriptions.rows, billableFor userId r = true →
    r.aiCreditsUsed + inFlight ctx userId s.jobs ≤ cap

/-- A step of the job `i` that does not commit and reserves no more. -/
theorem Capped.keep {i : Nat} (hcap : Capped ctx userId cap s) (hi : s.jobs[i]? = some job)
    (hle : reserved ctx userId job' ≤ reserved ctx userId job) :
    Capped ctx userId cap (s.apply i (.keep job')) := by
  intro r hr hbill
  have hbefore := hcap r hr hbill
  have hset := inFlight_set ctx userId job' hi
  simp only [Sys.apply]
  omega

/-- A chat that reads the row under `hasRoom`. -/
theorem Capped.read {i : Nat} {task : ChatTask} (hcap : Capped ctx userId cap s)
    (hplan : ∀ r ∈ s.db.subscriptions.rows, billableFor userId r = true → monthlyCap r = cap)
    (hfinite : cap ≠ UNLIMITED) (hi : s.jobs[i]? = some (.chat task .received))
    (hroom : hasRoom ctx userId cap s (.advance i) = true) :
    Capped ctx userId cap (s.apply i
      (.keep (.chat task (.fetched (fetchActive s.db.subscriptions task.userId))))) := by
  by_cases huser : task.userId = userId
  · subst huser
    intro r (hr : r ∈ s.db.subscriptions.rows) hbill
    have hbefore := hcap r hr hbill
    have hset := inFlight_set ctx task.userId
      (.chat task (.fetched (fetchActive s.db.subscriptions task.userId))) hi
    simp only [fetchActive_eq hr hbill, reserved, if_true, pendingCost] at hset
    simp only [Sys.apply, fetchActive_eq hr hbill, hset]
    -- The estimate is reserved from here on, when the check will let the chat
    -- pass.
    split
    · rename_i hok
      obtain rfl := hplan r hr hbill
      have hnonneg := inFlight_nonneg ctx task.userId s.jobs
      have hwithin := le_of_admitChat hr hfinite (by omega) hok
      simp only [hasRoom, hi, ne_eq, not_true_eq_false, decide_false, Bool.false_or,
        List.all_eq_true, Bool.or_eq_true, decide_eq_true_eq] at hroom
      have hrow := hroom r (List.mem_filter.mpr ⟨hr, hbill⟩)
      omega
    · omega
  · refine hcap.keep hi ?_
    rw [reserved, reserved, if_neg huser, if_neg huser]

/-- A step under the three conditions keeps the user under the cap. -/
theorem capped_step (hinv : Inv ctx db₀ s) (hcap : Capped ctx userId cap s)
    (hplan : ∀ r ∈ s.db.subscriptions.rows, billableFor userId r = true → monthlyCap r = cap)
    (hfinite : cap ≠ UNLIMITED) (hroom : hasRoom ctx userId cap s a = true)
    (hcharge : chargesAtMost ctx userId s a = true)
    (hperiod : keepsPeriod ctx userId s a = true) (hnext : next ctx s a = some s') :
    Capped ctx userId cap s' := by
  rcases next_cases hnext with ⟨task, rfl, rfl⟩ | ⟨i, job, job', rfl, hi, hadvance, rfl⟩ |
    ⟨i, job, db', c, answered, rfl, hi, hstep, rfl⟩ | ⟨i, job, job', rfl, hi, hfailed, rfl⟩ |
    ⟨i, chunks, connected, job, job', rfl, hi, hended, rfl⟩
  · have hzero : reserved ctx userId task.start = 0 := by
      cases task with
      | webhook req => rfl
      | chat task => exact ite_self 0
      | usage owner req => rfl
    intro r hr hbill
    simp only [inFlight, List.map_append, List.map_singleton, List.sum_append,
      List.sum_singleton, hzero, Int.add_zero]
    exact hcap r hr hbill
  · cases job with
    | webhook req phase =>
      refine hcap.keep hi (le_of_eq ?_)
      rw [reserved_of_webhook (advanceWebhook_task hadvance), reserved_of_webhook rfl]
    | chat task phase =>
      rcases pendingCost_advance hadvance with ⟨rfl, rfl⟩ | ⟨phase', rfl, hle⟩
      · exact hcap.read hplan hfinite hi hroom
      · refine hcap.keep hi ?_
        rw [reserved, reserved]
        split
        · exact hle
        · exact le_refl 0
    | usage owner req phase =>
      refine hcap.keep hi ?_
      cases phase with
      | received => rcases goOn_keep hadvance with ⟨e, -, rfl⟩ | ⟨x, -, rfl⟩ <;> exact le_refl 0
      | written row => cases hadvance
      | finished => cases hadvance
  · have hok := hinv.ok i job hi
    have hrows := rows_run (hstep.committed hok).run
    intro r' hr' hbill'
    have hr'' : r' ∈ db'.subscriptions.rows := hr'
    rw [hrows] at hr''
    obtain ⟨r, hr, rfl⟩ := List.mem_map.mp hr''
    have hbill : billableFor userId r = true := by
      have hfrozen : frozen (effect ctx s.db c r) = frozen r := frozen_effect r
      rwa [onFrozen_billableFor userId _ _ hfrozen] at hbill'
    -- What the counter gains was reserved by the job that commits.
    have hused := effect_used hbill hstep hok fun req billing env rows id p hjob hreset => by
      subst hjob
      simp only [keepsPeriod, steps_commitAction, hi, hreset, List.all_eq_true] at hperiod
      have huser : r.userId = userId := by
        simp only [billableFor, Bool.and_eq_true, decide_eq_true_eq] at hbill
        exact hbill.1
      simpa [huser] using hperiod r hr
    have hbefore := hcap r hr hbill
    have hset := inFlight_set ctx userId (Job.over answered job) hi
    have hover : reserved ctx userId (Job.over answered job) = 0 := reserved_over answered job
    simp only [Sys.apply]
    omega
  · refine hcap.keep hi ?_
    have hzero : reserved ctx userId job' = 0 := by
      unfold Job.failed at hfailed
      split at hfailed <;> cases hfailed <;> first | rfl | exact ite_self 0
    rw [hzero]
    exact reserved_nonneg job
  · obtain ⟨task, rfl, ⟨usage, hcharged, rfl⟩ | rfl⟩ := endStream_cases hended
    · refine hcap.keep hi ?_
      simp only [chargesAtMost, hi, hcharged, Bool.or_eq_true, decide_eq_true_eq] at hcharge
      rw [reserved, reserved]
      split
      · rename_i huser
        exact hcharge.resolve_left fun hne => hne huser
      · exact le_refl 0
    · refine hcap.keep hi ?_
      have hzero : reserved ctx userId (.chat task .finished) = 0 := ite_self 0
      rw [hzero]
      exact reserved_nonneg _

/-- The billable row of the user keeps the plan that it started with. -/
theorem plan_of_billable {r₀ r : Row} (hinv : Inv ctx db₀ s)
    (hr₀ : r₀ ∈ db₀.subscriptions.rows) (hbill₀ : billableFor userId r₀ = true)
    (hr : r ∈ s.db.subscriptions.rows) (hbill : billableFor userId r = true) :
    frozen r = frozen r₀ := by
  obtain ⟨x, hx, hfrozen⟩ := hinv.frozen_eq hr
  have hbillx : billableFor userId x = true := by
    rwa [onFrozen_billableFor userId _ _ hfrozen] at hbill
  have hmem : ∀ y ∈ db₀.subscriptions.rows, billableFor userId y = true →
      y ∈ db₀.subscriptions.rows.filter (billableFor userId) :=
    fun y hy hby => List.mem_filter.mpr ⟨hy, hby⟩
  -- Both rows are versions of the one billable row of the user.
  rcases filter_billableFor db₀.subscriptions userId with hnone | ⟨y, -, -, hone⟩
  · have hnil := hmem r₀ hr₀ hbill₀
    rw [hnone] at hnil
    cases hnil
  · have hx' := hmem x hx hbillx
    have hr₀' := hmem r₀ hr₀ hbill₀
    rw [hone, List.mem_singleton] at hx' hr₀'
    rw [hfrozen, hx', hr₀']

theorem monthlyCap_of_frozen {r r' : Row} (h : frozen r = frozen r') :
    monthlyCap r = monthlyCap r' := by
  have htier := congrArg Row.tier h
  have hstatus := congrArg Row.status h
  simp only [frozen] at htier hstatus
  rw [monthlyCap, monthlyCap, htier, hstatus]

/-- The counter of a user with an active plan of a finite quota stays within
the quota, in every state of every run that gives each chat that is let
through room beside the chats in flight. The streams charge at most their
estimates, and no invoice resets the row. -/
theorem cap_holds (ctx : SysContext) (db₀ : BillingDb afterMigrations) (userId : Uuid)
    (r₀ : Row) (as : List Action) (s : Sys) (hr₀ : r₀ ∈ db₀.subscriptions.rows)
    (huser : r₀.userId = userId) (hactive : r₀.status = .active ∨ r₀.status = .trialing)
    (hfinite : monthlyCap r₀ ≠ UNLIMITED) (hused : r₀.aiCreditsUsed ≤ monthlyCap r₀)
    (hrun : run (next ctx) (Sys.init db₀) as = some s)
    (hcharge : Along (next ctx) (fun s a => chargesAtMost ctx userId s a = true)
      (Sys.init db₀) as)
    (hperiod : Along (next ctx) (fun s a => keepsPeriod ctx userId s a = true)
      (Sys.init db₀) as)
    (hroom : Along (next ctx) (fun s a => hasRoom ctx userId (monthlyCap r₀) s a = true)
      (Sys.init db₀) as) :
    ∀ r ∈ s.db.subscriptions.rows, r.id = r₀.id → r.aiCreditsUsed ≤ monthlyCap r₀ := by
  have hbill₀ : billableFor userId r₀ = true := by
    rcases hactive with h | h <;> simp [billableFor, huser, h, SubscriptionStatus.billable]
  have hinit : Capped ctx userId (monthlyCap r₀) (Sys.init db₀) := by
    intro r (hr : r ∈ db₀.subscriptions.rows) hbill
    have hfrozen := plan_of_billable (inv_init ctx db₀) hr₀ hbill₀ hr hbill
    have hkey : afterMigrations.key r = afterMigrations.key r₀ := id_of_frozen hfrozen
    obtain rfl := db₀.subscriptions.eq_of_key hr hr₀ hkey
    simpa [inFlight, Sys.init] using hused
  -- Every step keeps the bound on the counter with the credits in flight.
  have hboth := Transition.run_invariant
    (P := fun x => Inv ctx db₀ x ∧ Capped ctx userId (monthlyCap r₀) x)
    (fun x b y hx hb hnext => ⟨inv_step hx.1 hnext, capped_step hx.1 hx.2
      (fun r hr hbill => monthlyCap_of_frozen (plan_of_billable hx.1 hr₀ hbill₀ hr hbill))
      hfinite hb.1 hb.2.1 hb.2.2 hnext⟩)
    ⟨inv_init ctx db₀, hinit⟩
    (Transition.along_and hroom (Transition.along_and hcharge hperiod)) hrun
  intro r hr hid
  obtain ⟨x, hx, hfrozen⟩ := hboth.1.frozen_eq hr
  have hkey : afterMigrations.key x = afterMigrations.key r₀ :=
    (id_of_frozen hfrozen).symm.trans hid
  obtain rfl := db₀.subscriptions.eq_of_key hx hr₀ hkey
  have hbill : billableFor userId r = true := by
    rwa [onFrozen_billableFor userId _ _ hfrozen]
  have hcapped := hboth.2 r hr hbill
  have hnonneg := inFlight_nonneg ctx userId s.jobs
  omega

end

/-! ### Two chats of five credits -/

/-- Two chats one after the other. -/
def serialChats : List Action :=
  [.spawn (.chat analysisChat)] ++ admitSteps 0 ++ chargeSteps 0 ++
    [.spawn (.chat analysisChat)] ++ admitSteps 1 ++ chargeSteps 1

/-- Two chats that both read the row before one of them charges. -/
def overlappingChats : List Action :=
  [.spawn (.chat analysisChat), .spawn (.chat analysisChat)] ++ admitSteps 0 ++ admitSteps 1 ++
    chargeSteps 0 ++ chargeSteps 1

/-- `cap_holds` at the chats one after the other, from 290 of 300 credits. -/
theorem cap_holds_serial :
    ∃ s, run (next (sampleContext [])) (Sys.init (payingDb 290 (by decide))) serialChats
        = some s ∧
      ∀ r ∈ s.db.subscriptions.rows, r.id = (payingRow 290).id →
        r.aiCreditsUsed ≤ monthlyCap (payingRow 290) := by
  have hsome : (run (next (sampleContext [])) (Sys.init (payingDb 290 (by decide)))
      serialChats).isSome = true := by decide +kernel
  obtain ⟨s, hs⟩ := Option.isSome_iff_exists.mp hsome
  exact ⟨s, hs, cap_holds _ _ alice (payingRow 290) _ s List.mem_cons_self rfl (Or.inl rfl)
    (by decide) (by decide) hs (by decide +kernel) (by decide +kernel) (by decide +kernel)⟩

/-- The two chats side by side take a basic plan from 295 to 305 of its 300
credits, though each charges its estimate and no invoice comes in. -/
theorem two_chats_exceed_cap :
    monthlyCap (payingRow 295) = 300 ∧ (payingRow 295).status = .active ∧
      ∃ s, run (next (sampleContext [])) (Sys.init (payingDb 295 (by decide)))
          overlappingChats = some s ∧
        Along (next (sampleContext []))
          (fun s a => chargesAtMost (sampleContext []) alice s a = true)
          (Sys.init (payingDb 295 (by decide))) overlappingChats ∧
        Along (next (sampleContext []))
          (fun s a => keepsPeriod (sampleContext []) alice s a = true)
          (Sys.init (payingDb 295 (by decide))) overlappingChats ∧
        ¬ ∀ r ∈ s.db.subscriptions.rows, r.id = (payingRow 295).id →
          r.aiCreditsUsed ≤ monthlyCap (payingRow 295) := by
  refine ⟨by decide, rfl, ?_⟩
  have hsome : (run (next (sampleContext [])) (Sys.init (payingDb 295 (by decide)))
      overlappingChats).map (fun s => s.db.subscriptions.rows.map fun r =>
        (r.id, r.aiCreditsUsed)) = some [(⟨1⟩, 305)] := by decide +kernel
  obtain ⟨s, hs, hrows⟩ := Option.map_eq_some_iff.mp hsome
  refine ⟨s, hs, by decide +kernel, by decide +kernel, fun hall => ?_⟩
  have hmem : ((⟨1⟩ : Uuid), (305 : Int)) ∈ s.db.subscriptions.rows.map fun r =>
      (r.id, r.aiCreditsUsed) := by
    rw [hrows]
    exact List.mem_cons_self
  obtain ⟨r, hr, heq⟩ := List.mem_map.mp hmem
  obtain ⟨hid, hused⟩ := Prod.mk.inj heq
  have hle := hall r hr hid
  rw [hused] at hle
  exact absurd hle (by decide)

end MizanConnect.Proofs.Billing
