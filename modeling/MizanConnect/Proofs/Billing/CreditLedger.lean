import MizanConnect.Proofs.Billing.WebhookAtomic

/-!
# `MizanConnect.Proofs.Billing.CreditLedger`: the ledger and the counters

A chat charge appends a ledger row and adds its cost to the counter of the
user's one billable row, in one transaction. A usage report appends a row
without cost. An invoice clears the counter of the rows of its subscription,
and snapshots leave the counters alone. So for every user the ledger holds
what the counters hold plus what was cleared.

`drift_run` is the law for one commit. `ledger_drift` follows for every list
of commits, and `ledger_never_drifts` for every reached state, because the
tables are those of the commit log (`Inv.replay`).
-/

set_option autoImplicit false

namespace MizanConnect.Proofs.Billing

open MizanConnect.Billing
open MizanConnect.Billing.Repository
open MizanConnect.Billing.Subscriptions (Row afterMigrations)
open Sql (Table)
open Transition (run StepOf)

/-- The sum of `cost_credits` over the ledger rows of a user. -/
def ledgerCredits (userId : Uuid) (ledger : List LedgerRow) : Int :=
  ((ledger.filter (·.userId = userId)).map (·.costCredits)).sum

/-- The sum of `ai_credits_used` over the rows of a user. -/
def creditsUsed (userId : Uuid) (rows : List Row) : Int :=
  ((rows.filter (·.userId = userId)).map (·.aiCreditsUsed)).sum

/-- The rows whose counter a commit clears: those that `reset_ai_credits`
updates, when the event is new. -/
def clearedRows (ctx : SysContext) (db : BillingDb afterMigrations) : Commit → List Row
  | .delivery _ env _ =>
    if db.events.rows.any fun e => e.stripeEventId = env.id then []
    else
      match resetOf ctx.webhook env with
      | none => []
      | some (subscriptionId, _) =>
        db.subscriptions.rows.filter (hasSubscriptionId subscriptionId)
  | _ => []

/-- The credits of a user that the commits clear, in order. -/
def cleared (ctx : SysContext) (userId : Uuid) : BillingDb afterMigrations → List Commit → Int
  | _, [] => 0
  | db, c :: cs =>
    creditsUsed userId (clearedRows ctx db c) +
      match Commit.run ctx db c with
      | some db' => cleared ctx userId db' cs
      | none => 0

/-- A charge is to the ledger of its user, and a usage report has no cost. -/
def CommitOk : Commit → Prop
  | .delivery _ _ _ => True
  | .charge userId _ row => row.userId = userId
  | .usage row => row.costCredits = 0

section
variable {ctx : SysContext} {db db' db₀ : BillingDb afterMigrations} {c : Commit}
  {userId : Uuid}

/-! ### Sums -/

/-- What a row contributes to the credits of a user. -/
def share (userId : Uuid) (r : Row) : Int := if r.userId = userId then r.aiCreditsUsed else 0

theorem creditsUsed_eq_sum (rows : List Row) :
    creditsUsed userId rows = (rows.map (share userId)).sum := by
  induction rows with
  | nil => rfl
  | cons r rows ih =>
    rw [List.map_cons, List.sum_cons, ← ih, creditsUsed, creditsUsed, List.filter_cons, share]
    by_cases h : r.userId = userId
    · rw [if_pos (by simpa using h), if_pos h, List.map_cons, List.sum_cons]
    · rw [if_neg (by simpa using h), if_neg h, Int.zero_add]

theorem ledgerCredits_append (userId : Uuid) (ledger : List LedgerRow) (row : LedgerRow) :
    ledgerCredits userId (ledger ++ [row])
      = ledgerCredits userId ledger + if row.userId = userId then row.costCredits else 0 := by
  rw [ledgerCredits, ledgerCredits, List.filter_append, List.map_append, List.sum_append]
  by_cases h : row.userId = userId <;> simp [h]

/-! ### One commit -/

/-- The rows that a commit clears, of an event that is new. -/
theorem clearedRows_new {billing : BillingConfig} {env : Envelope} {req : WebhookRequest}
    (h : ¬ Recorded db env.id) : clearedRows ctx db (.delivery billing env req) =
      match resetOf ctx.webhook env with
      | none => []
      | some (subscriptionId, _) =>
        db.subscriptions.rows.filter (hasSubscriptionId subscriptionId) :=
  if_neg (by simpa [Recorded] using h)

theorem clearedRows_recorded {billing : BillingConfig} {env : Envelope} {req : WebhookRequest}
    (h : Recorded db env.id) : clearedRows ctx db (.delivery billing env req) = [] :=
  if_pos (by simpa [Recorded] using h)

/-- A reset clears the credits of the row it writes. -/
theorem creditsUsed_reset (userId : Uuid) {t t' : Table afterMigrations}
    {now periodStart : Timestamp} {subscriptionId : String}
    (h : t.write (resetAiCreditsRows t now subscriptionId periodStart) = .ok t') :
    creditsUsed userId t.rows = creditsUsed userId t'.rows +
      creditsUsed userId (t.rows.filter (hasSubscriptionId subscriptionId)) := by
  rw [resetAiCreditsRows, Table.updated] at h
  rcases filter_hasSubscriptionId t subscriptionId with hnone | ⟨r, hr, -, hone⟩
  · rw [hnone] at h ⊢
    cases t.write_nil.symm.trans h
    exact (Int.add_zero _).symm
  · rw [hone] at h ⊢
    have hkey : afterMigrations.key r = afterMigrations.key (resetRow now periodStart r) := rfl
    have hsum := Table.sum_write_singleton (share userId) hr hkey h
    have hzero : share userId (resetRow now periodStart r) = 0 := ite_self 0
    simp only [creditsUsed_eq_sum, List.map_singleton, List.sum_singleton]
    omega

/-- A charge adds its cost to the one billable row of the user. -/
theorem creditsUsed_charge (userId : Uuid) {t t' : Table afterMigrations} {now : Timestamp}
    {owner : Uuid} {credits : Int} {rows : List Row}
    (h : addAiCreditsUsed t now owner credits = .ok rows)
    (hwrite : t.write rows = .ok t') :
    creditsUsed userId t'.rows
      = creditsUsed userId t.rows + if owner = userId then credits else 0 := by
  obtain ⟨r, hr, hone, rfl, -⟩ := addAiCreditsUsed_ok h
  have howner : r.userId = owner := (of_filter_billableFor hone).1
  have hkey : afterMigrations.key r = afterMigrations.key (chargeRow now credits r) := rfl
  rw [creditsUsed_eq_sum, creditsUsed_eq_sum,
    Table.sum_write_singleton (share userId) hr hkey hwrite]
  simp only [share, chargeRow, howner]
  split <;> omega

/-- One commit: what it appends to the ledger of a user is what it adds to the
counters of the user and what it clears of them. -/
theorem drift_run (userId : Uuid) (hc : CommitOk c) (h : Commit.run ctx db c = some db') :
    ledgerCredits userId db'.ledger + creditsUsed userId db.subscriptions.rows
      = ledgerCredits userId db.ledger + creditsUsed userId db'.subscriptions.rows
        + creditsUsed userId (clearedRows ctx db c) := by
  cases c with
  | delivery billing env req =>
    by_cases hrec : Recorded db env.id
    · cases (run_recorded rfl hrec).symm.trans h
      rw [clearedRows_recorded hrec]
      exact (Int.add_zero _).symm
    · obtain ⟨rows, events, subscriptions, hwrites, -, hsubs, rfl⟩ :=
        (webhookTx_new hrec).mp (run_delivery.mp h)
      rw [clearedRows_new hrec]
      rw [webhookWrites_ok hwrites, resetRows] at hsubs
      cases hreset : resetOf ctx.webhook env with
      | none =>
        rw [hreset] at hsubs
        cases (Table.write_nil _).symm.trans hsubs
        exact (Int.add_zero _).symm
      | some period =>
        rw [hreset] at hsubs
        have hsum := creditsUsed_reset userId hsubs
        dsimp only
        omega
  | charge owner txTime row =>
    obtain ⟨rows, subscriptions, hrows, hsubs, rfl⟩ := chargeTx_ok.mp (run_charge.mp h)
    have hsum := creditsUsed_charge userId hrows hsubs
    have hledger := ledgerCredits_append userId db.ledger row
    have hnone : creditsUsed userId (clearedRows ctx db (.charge owner txTime row)) = 0 := rfl
    rw [CommitOk] at hc
    rw [hc] at hledger
    dsimp only
    omega
  | usage row =>
    cases h
    have hledger := ledgerCredits_append userId db.ledger row
    have hnone : creditsUsed userId (clearedRows ctx db (.usage row)) = 0 := rfl
    rw [CommitOk] at hc
    rw [hc, ite_self] at hledger
    dsimp only
    omega

/-- Any list of commits. -/
theorem ledger_drift (userId : Uuid) {cs : List Commit} (hcs : ∀ c ∈ cs, CommitOk c)
    (h : run (Commit.run ctx) db cs = some db') :
    ledgerCredits userId db'.ledger + creditsUsed userId db.subscriptions.rows
      = ledgerCredits userId db.ledger + creditsUsed userId db'.subscriptions.rows
        + cleared ctx userId db cs := by
  induction cs generalizing db with
  | nil =>
    cases h
    exact (Int.add_zero _).symm
  | cons c cs ih =>
    obtain ⟨m, hm, hrest⟩ := Transition.run_cons_eq_some.mp h
    have hone := drift_run userId (hcs c List.mem_cons_self) hm
    have hmore := ih (fun x hx => hcs x (List.mem_cons_of_mem c hx)) hrest
    rw [cleared, hm]
    dsimp only
    omega

/-! ### Runs -/

/-- The commits of a run are to their own users. -/
theorem commitOk_of_committedBy {job : Job} (h : CommittedBy ctx job c) : CommitOk c := by
  unfold CommittedBy at h
  split at h
  · exact True.intro
  · obtain ⟨rfl, -, huser⟩ := h
    exact huser
  · exact h.2
  · exact h.elim

/-- The ledger, the counters and the cleared credits of a run, and the row of
each charge. -/
structure NoDrift (ctx : SysContext) (db₀ : BillingDb afterMigrations) (as : List Action)
    (s : Sys) : Prop where
  balance : ∀ userId, ledgerCredits userId s.db.ledger
    = creditsUsed userId s.db.subscriptions.rows
      + cleared ctx userId db₀ (s.log.map Prod.snd)
  charge : ∀ m a m' i userId txTime row, StepOf (next ctx) (Sys.init db₀) as m a m' →
    m'.log = m.log ++ [(i, .charge userId txTime row)] →
    ∃ r ∈ m.db.subscriptions.rows, r.userId = userId ∧ r.status.billable = true ∧
      m'.db.subscriptions.rows = m.db.subscriptions.rows.map fun x =>
        if r.id = x.id then chargeRow txTime row.costCredits r else x

/-- A charge rewrites one row. -/
theorem charge_rows {userId : Uuid} {txTime : Timestamp} {row : LedgerRow}
    (h : Commit.run ctx db (.charge userId txTime row) = some db') :
    ∃ r ∈ db.subscriptions.rows, r.userId = userId ∧ r.status.billable = true ∧
      db'.subscriptions.rows = db.subscriptions.rows.map fun x =>
        if r.id = x.id then chargeRow txTime row.costCredits r else x := by
  obtain ⟨rows, subscriptions, hrows, hsubs, rfl⟩ := chargeTx_ok.mp (run_charge.mp h)
  obtain ⟨r, hr, hone, rfl, -⟩ := addAiCreditsUsed_ok hrows
  obtain ⟨huser, hbillable⟩ := of_filter_billableFor hone
  refine ⟨r, hr, huser, hbillable, ?_⟩
  have hkey : afterMigrations.key r
      = afterMigrations.key (chargeRow txTime row.costCredits r) := rfl
  rw [Table.write_rows hsubs, Table.overlay_singleton ⟨r, hr, hkey⟩]
  rfl

/-- From an empty ledger and zero counters, the ledger and the counters of
every user never drift, in every state that any run reaches. -/
theorem ledger_never_drifts (ctx : SysContext) (db₀ : BillingDb afterMigrations)
    (as : List Action) (s : Sys) (hledger : db₀.ledger = [])
    (hused : ∀ r ∈ db₀.subscriptions.rows, r.aiCreditsUsed = 0)
    (hrun : run (next ctx) (Sys.init db₀) as = some s) : NoDrift ctx db₀ as s where
  balance userId := by
    have hinv := inv_run hrun
    have hok : ∀ c ∈ s.log.map Prod.snd, CommitOk c := by
      intro c hc
      obtain ⟨e, he, rfl⟩ := List.mem_map.mp hc
      obtain ⟨job, -, hby⟩ := hinv.committed e he
      exact commitOk_of_committedBy hby
    have hsum := ledger_drift userId hok hinv.replay
    have hzero : creditsUsed userId db₀.subscriptions.rows = 0 := by
      rw [creditsUsed_eq_sum]
      refine List.sum_eq_zero fun x hx => ?_
      obtain ⟨r, hr, rfl⟩ := List.mem_map.mp hx
      rw [share, hused r hr, ite_self]
    have hnil : ledgerCredits userId db₀.ledger = 0 := by rw [hledger]; rfl
    omega
  charge m a m' i userId txTime row hstep hlog := by
    rcases step_log (inv_before hstep) hstep.step with ⟨-, hsame⟩ |
      ⟨k, job, job', c, -, -, -, -, hc, hnew⟩
    · rw [hsame] at hlog
      simp at hlog
    · rw [hnew] at hlog
      obtain ⟨-, hentry⟩ := List.append_inj' hlog rfl
      cases hentry
      exact charge_rows hc.run

end

/-! ### A charge, a usage report, a reset and a lost chat -/

/-- An analysis request of Alice. -/
def analysisChat : ChatTask where
  userId := alice
  request := ⟨none, some .analysis⟩
  txTime := 1700000100

/-- The upstream stream of the sample reply. -/
def sampleChunks : List Chunk :=
  [.bytes (asBytes ("data: " ++ String.ofList usageReply ++ "\n\ndata: [DONE]\n\n"))]

/-- The steps of chat `i` up to the cap check. -/
def admitSteps (i : Nat) : List Action := [.advance i, .advance i]

/-- The steps of chat `i` from the upstream stream to the commit. -/
def chargeSteps (i : Nat) : List Action :=
  [.stream i sampleChunks fun _ => true, .advance i, .advance i, .advance i]

/-- A chat of 5 credits, a usage report, an invoice, and a chat that fails. -/
def ledgerRun : List Action :=
  [.spawn (.chat analysisChat)] ++ admitSteps 0 ++ chargeSteps 0 ++
    [.spawn (.usage alice ⟨"csv_intel", 3, none, none⟩), .advance 1, .advance 1,
      .spawn (.webhook invoiceSample.request), .advance 2, .advance 2, .advance 2, .advance 2,
      .spawn (.chat analysisChat), .advance 3, .fail 3]

/-- `ledger_never_drifts` at that run: three commits, and the five credits of
the ledger were cleared. -/
theorem ledger_never_drifts_cleared :
    ∃ s, run (next (sampleContext [invoiceSample])) (Sys.init (payingDb 0 (by decide)))
        ledgerRun = some s ∧
      s.log.length = 3 ∧ ledgerCredits alice s.db.ledger = 5 ∧
      creditsUsed alice s.db.subscriptions.rows = 0 ∧
      NoDrift (sampleContext [invoiceSample]) (payingDb 0 (by decide)) ledgerRun s := by
  have hsome : (run (next (sampleContext [invoiceSample])) (Sys.init (payingDb 0 (by decide)))
      ledgerRun).map (fun s => (s.log.length, ledgerCredits alice s.db.ledger,
        creditsUsed alice s.db.subscriptions.rows)) = some (3, 5, 0) := by
    decide +kernel
  obtain ⟨s, hs, hfacts⟩ := Option.map_eq_some_iff.mp hsome
  obtain ⟨hlength, hfacts⟩ := Prod.mk.inj hfacts
  obtain ⟨hledger, hused⟩ := Prod.mk.inj hfacts
  exact ⟨s, hs, hlength, hledger, hused,
    ledger_never_drifts _ _ _ s rfl (by simp [payingDb, payingRow]) hs⟩

end MizanConnect.Proofs.Billing
