import MizanConnect.Proofs.Billing.LedgerProvenance

/-!
# `MizanConnect.Proofs.Billing.PaidAccess`: who reaches the paid model

A chat reads the row of its user in one statement and is judged by it later,
while deliveries change the table. `Backed` says what the run so far shows for a
job: before the check, the row it read was the user's in some earlier state, and
after the check that row was a paid one. A row that was seen stays seen
(`Backed.later`), so one step of the job is all that is left to look at
(`advance_backed`).
-/

set_option autoImplicit false

namespace MizanConnect.Proofs.Billing

open MizanConnect.Billing
open MizanConnect.Billing.Repository
open MizanConnect.Billing.Subscriptions (Row afterMigrations)
open Sql (Table)
open Transition (run getElem?_set_cases getElem?_concat_cases)

/-! ### A paid row -/

/-- The quota of the row is unlimited, or has room for the estimate of a chat. The
comparison of `chat` adds two `i32`, so there is one exception: a counter so near to
the end of the range that the sum wraps. -/
def HasCredits (kind : RequestKind) (r : Row) : Prop :=
  (entitlementsOf (some (SubscriptionRow.ofRow r))).aiCreditsMonthly = UNLIMITED ∨
    r.aiCreditsUsed + kind.estimatedCost
      ≤ (entitlementsOf (some (SubscriptionRow.ofRow r))).aiCreditsMonthly ∨
    2147483647 < r.aiCreditsUsed + kind.estimatedCost

/-- The table shows a row of the user that pays for a chat: a running
subscription with managed AI, and credits. -/
def PaidRow (userId : Uuid) (kind : RequestKind) (t : Table afterMigrations) : Prop :=
  ∃ r ∈ t.rows, r.userId = userId ∧ (r.status = .active ∨ r.status = .trialing) ∧
    (entitlementsOf (some (SubscriptionRow.ofRow r))).managedAi = true ∧
    HasCredits kind r

/-- The run `as` from the tables `db₀` passed through subscriptions with `P`. -/
def Earlier (ctx : SysContext) (db₀ : BillingDb afterMigrations) (as : List Action)
    (P : Table afterMigrations → Prop) : Prop :=
  ∃ pre post m, as = pre ++ post ∧ run (next ctx) (Sys.init db₀) pre = some m ∧
    P m.db.subscriptions

/-- What the run so far shows for a job. -/
def Backed (ctx : SysContext) (db₀ : BillingDb afterMigrations) (as : List Action) : Job → Prop
  | .chat _ .received => True
  | .chat task (.fetched sub) =>
    Earlier ctx db₀ as fun t => fetchActive t task.userId = sub
  | .chat _ .finished => True
  | .chat task _ => Earlier ctx db₀ as (PaidRow task.userId task.request.requestKind)
  | _ => True

/-- The upstream stream of the chat is open, or its charge is on the way. -/
def spends : ChatPhase → Bool
  | .streaming => true
  | .charging _ => true
  | .ledgerWritten _ => true
  | .bumped _ _ => true
  | _ => false

section
variable {ctx : SysContext} {db₀ : BillingDb afterMigrations} {as : List Action}
  {job job' : Job} {s s' : Sys} {t : Table afterMigrations} {userId : Uuid} {kind : RequestKind}

/-- `fetch_active` returns a row of the table. -/
theorem fetchActive_row {sub : SubscriptionRow} (h : fetchActive t userId = some sub) :
    ∃ r ∈ t.rows, r.userId = userId ∧ sub = SubscriptionRow.ofRow r := by
  obtain ⟨r, hr, rfl⟩ := Option.map_eq_some_iff.mp h
  obtain ⟨hmem, hbill⟩ := List.mem_filter.mp (Best.best_mem hr)
  simp only [billableFor, Bool.and_eq_true, decide_eq_true_eq] at hbill
  exact ⟨r, hmem, hbill.1, rfl⟩

/-- Managed AI comes with an active or a trialing row only. -/
theorem running_of_managedAi {r : Row}
    (h : (entitlementsOf (some (SubscriptionRow.ofRow r))).managedAi = true) :
    r.status = .active ∨ r.status = .trialing := by
  unfold entitlementsOf entitlementsFor at h
  split at h
  · rename_i hstatus
    have hread : (SubscriptionRow.ofRow r).status = r.status.asStr := rfl
    rw [Option.map_some, hread] at hstatus
    cases hr : r.status <;> rw [hr] at hstatus <;> simp [SubscriptionStatus.asStr] at hstatus ⊢
  · cases h

/-- The comparison is the one over the integers, but for the wrap. -/
theorem hasCredits_of_withinCap {r : Row} (hr : r ∈ t.rows)
    (h : withinCap (some (SubscriptionRow.ofRow r)) kind = true) : HasCredits kind r := by
  have hused := isI32_used hr
  obtain ⟨hpos, -⟩ := kind.estimatedCost_bounds
  simp only [withinCap, Bool.or_eq_true, decide_eq_true_eq] at h
  rcases h with hunlimited | hsum
  · exact Or.inl hunlimited
  · have hread : ((some (SubscriptionRow.ofRow r)).map (·.aiCreditsUsed)).getD 0
        = r.aiCreditsUsed := rfl
    rw [hread] at hsum
    by_cases hrange : r.aiCreditsUsed + kind.estimatedCost ≤ 2147483647
    · have hi32 : isI32 (r.aiCreditsUsed + kind.estimatedCost) = true := by
        simp only [isI32, decide_eq_true_eq] at hused ⊢
        omega
      rw [wrapI32_eq hi32] at hsum
      exact Or.inr (Or.inl hsum)
    · exact Or.inr (Or.inr (Int.not_le.mp hrange))

/-- The check lets a chat through on a paid row only. -/
theorem paidRow_of_admitChat
    (h : admitChat (fetchActive t userId) kind = .ok ()) : PaidRow userId kind t := by
  unfold admitChat at h
  split at h
  · cases h
  · rename_i hmanaged
    split at h
    · rename_i hwithin
      cases hsub : fetchActive t userId with
      | none => exact absurd (by rw [hsub]; rfl) hmanaged
      | some sub =>
        obtain ⟨r, hr, howner, rfl⟩ := fetchActive_row hsub
        rw [hsub] at hmanaged hwithin
        have hai := Bool.eq_true_of_not_eq_false hmanaged
        exact ⟨r, hr, howner, running_of_managedAi hai, hai, hasCredits_of_withinCap hr hwithin⟩
    · cases h

/-! ### One step -/

theorem Earlier.later {P : Table afterMigrations → Prop} (h : Earlier ctx db₀ as P)
    (bs : List Action) : Earlier ctx db₀ (as ++ bs) P := by
  obtain ⟨pre, post, m, rfl, hm, hP⟩ := h
  exact ⟨pre, post ++ bs, m, by simp, hm, hP⟩

theorem Earlier.imp {P Q : Table afterMigrations → Prop} (h : Earlier ctx db₀ as P)
    (himp : ∀ t, P t → Q t) : Earlier ctx db₀ as Q := by
  obtain ⟨pre, post, m, happend, hm, hP⟩ := h
  exact ⟨pre, post, m, happend, hm, himp _ hP⟩

/-- What a run has shown stays shown. -/
theorem Backed.later (h : Backed ctx db₀ as job) (bs : List Action) :
    Backed ctx db₀ (as ++ bs) job := by
  cases job with
  | webhook req phase => exact True.intro
  | usage userId req phase => exact True.intro
  | chat task phase =>
    cases phase with
    | received => exact True.intro
    | finished => exact True.intro
    | fetched sub =>
      have hread : Earlier ctx db₀ as fun t => fetchActive t task.userId = sub := h
      exact hread.later bs
    | _ =>
      have hpaid : Earlier ctx db₀ as (PaidRow task.userId task.request.requestKind) := h
      exact hpaid.later bs

/-- A step of a job from a state of the run that does not commit keeps it backed. -/
theorem advance_backed {others : List Job}
    (hrun : run (next ctx) (Sys.init db₀) as = some s) (hjob : Backed ctx db₀ as job)
    (h : advance ctx s.db others job = some (.keep job')) : Backed ctx db₀ as job' := by
  cases job with
  | webhook req phase =>
    have htask : Job.task job' = .webhook req := advanceWebhook_task h
    cases job' with
    | webhook req' phase' => exact True.intro
    | chat task phase' => cases htask
    | usage userId req' phase' => cases htask
  | usage userId req phase =>
    cases phase with
    | received => rcases goOn_keep h with ⟨e, -, rfl⟩ | ⟨row, -, rfl⟩ <;> exact True.intro
    | written row => cases h
    | finished => cases h
  | chat task phase =>
    cases phase with
    | received =>
      rcases goOn_keep h with ⟨e, -, rfl⟩ | ⟨_, -, rfl⟩
      · exact True.intro
      · -- The row is read from the tables of this state.
        exact ⟨as, [], s, by simp, hrun, rfl⟩
    | fetched sub =>
      rcases goOn_keep h with ⟨e, -, rfl⟩ | ⟨_, hadmit, rfl⟩
      · exact True.intro
      · have hread : Earlier ctx db₀ as fun t => fetchActive t task.userId = sub := hjob
        have hpaid : Earlier ctx db₀ as (PaidRow task.userId task.request.requestKind) := by
          refine hread.imp ?_
          rintro t rfl
          exact paidRow_of_admitChat hadmit
        exact hpaid
    | streaming => cases h
    | charging usage =>
      rcases goOn_keep h with ⟨e, -, rfl⟩ | ⟨row, -, rfl⟩
      · exact True.intro
      · exact hjob
    | ledgerWritten row =>
      rcases execRows_keep h with ⟨e, -, rfl⟩ | ⟨rows, -, rfl, -⟩
      · exact True.intro
      · exact hjob
    | bumped row rows =>
      rw [advance, advanceChat] at h
      split at h <;> cases h
      exact True.intro
    | finished => cases h

/-- A job that is over needs no row. -/
theorem over_backed (answered : Bool) (job : Job) :
    Backed ctx db₀ as (Job.over answered job) := by
  cases job <;> exact True.intro

/-- Nor does a failed one. -/
theorem failed_backed (h : job.failed = some job') : Backed ctx db₀ as job' := by
  unfold Job.failed at h
  split at h <;> cases h <;> exact True.intro

/-! ### A run -/

/-- What a run shows: for each job, and for the job of each charge. -/
structure Funded (ctx : SysContext) (db₀ : BillingDb afterMigrations) (as : List Action)
    (s : Sys) : Prop where
  jobs : ∀ (i : Nat) job, s.jobs[i]? = some job → Backed ctx db₀ as job
  charges : ∀ e ∈ s.log, ∀ userId txTime row, e.2 = .charge userId txTime row →
    ∃ task, (s.jobs[e.1]?).map Job.task = some (.chat task) ∧ task.userId = userId ∧
      Earlier ctx db₀ as (PaidRow userId task.request.requestKind)

/-- A job that stays with its request leaves the requests as they were. -/
theorem map_task_set {jobs : List Job} {i : Nat} (hi : jobs[i]? = some job)
    (htask : Job.task job' = Job.task job) (k : Nat) :
    ((jobs.set i job')[k]?).map Job.task = (jobs[k]?).map Job.task := by
  rw [List.getElem?_set]
  split
  · rename_i heq
    subst heq
    rw [hi, if_pos (List.getElem?_eq_some_iff.mp hi).1, Option.map_some, Option.map_some, htask]
  · rfl

/-- A step that only moves the job `i`. -/
theorem Funded.keep {a : Action} {i : Nat} (hs : Funded ctx db₀ as s)
    (hi : s.jobs[i]? = some job) (hjob : Backed ctx db₀ as job')
    (htask : Job.task job' = Job.task job) :
    Funded ctx db₀ (as ++ [a]) (s.apply i (.keep job')) := by
  constructor
  · intro k x hk
    rcases getElem?_set_cases hi hk with ⟨-, rfl⟩ | ⟨-, hk⟩
    · exact hjob.later [a]
    · exact (hs.jobs k x hk).later [a]
  · intro e he userId txTime row hcharge
    obtain ⟨task, hat, howner, hpaid⟩ := hs.charges e he userId txTime row hcharge
    refine ⟨task, ?_, howner, hpaid.later [a]⟩
    exact (map_task_set hi htask e.1).trans hat

/-- Every reached state is funded. -/
theorem funded_run (hrun : run (next ctx) (Sys.init db₀) as = some s) :
    Funded ctx db₀ as s := by
  refine Transition.run_history ?_ ?_ hrun
  · exact ⟨fun i job hi => by simp [Sys.init] at hi, fun e he => by simp [Sys.init] at he⟩
  · rintro as a m m' hm hfunded hstep
    rcases next_cases hstep with ⟨task, -, rfl⟩ | ⟨i, job, job', -, hi, hadvance, rfl⟩ |
      ⟨i, job, db', c, answered, -, hi, hcommit, rfl⟩ | ⟨i, job, job', -, hi, hfailed, rfl⟩ |
      ⟨i, chunks, connected, job, job', -, hi, hended, rfl⟩
    · constructor
      · intro k x hk
        rcases getElem?_concat_cases hk with hk | ⟨-, rfl⟩
        · exact (hfunded.jobs k x hk).later [a]
        · cases task <;> exact True.intro
      · intro e he userId txTime row hcharge
        obtain ⟨task', hat, howner, hpaid⟩ := hfunded.charges e he userId txTime row hcharge
        refine ⟨task', ?_, howner, hpaid.later [a]⟩
        obtain ⟨x, hx, htask⟩ := Option.map_eq_some_iff.mp hat
        rw [List.getElem?_append_left (List.getElem?_eq_some_iff.mp hx).1, hx, Option.map_some,
          htask]
    · exact hfunded.keep hi (advance_backed hm (hfunded.jobs i job hi) hadvance)
        (advance_due (accounted_run hm |>.due i job hi) hadvance).1
    · have hmoved : Funded ctx db₀ (as ++ [a]) (m.apply i (.keep (Job.over answered job))) :=
        hfunded.keep hi (over_backed answered job) (over_task answered job)
      refine ⟨hmoved.jobs, ?_⟩
      intro e he userId txTime row hcharge
      rcases List.mem_append.mp he with he | he
      · exact hmoved.charges e he userId txTime row hcharge
      · rw [List.mem_singleton.mp he] at hcharge ⊢
        subst hcharge
        have hjob := hfunded.jobs i job hi
        cases hcommit with
        | charge task row rows subscriptions hsubs =>
          have hpaid : Earlier ctx db₀ as (PaidRow task.userId task.request.requestKind) := hjob
          refine ⟨task, ?_, rfl, hpaid.later [a]⟩
          have hat := map_task_set hi (over_task answered (.chat task (.bumped row rows))) i
          rw [hi] at hat
          exact hat
    · obtain ⟨htask, -⟩ := failed_due ctx as i hfailed
      exact hfunded.keep hi (failed_backed hfailed) htask
    · have hjob := hfunded.jobs i job hi
      obtain ⟨task, rfl, ⟨usage, -, rfl⟩ | rfl⟩ := endStream_cases hended
      · exact hfunded.keep hi hjob rfl
      · exact hfunded.keep hi True.intro rfl

/-- Nobody reaches the paid model without paying, whatever else runs and fails.
A chat whose upstream stream is open, or whose charge is on the way or committed,
was admitted on a row of its user that some state of the run so far held: active
or trialing, with managed AI, and with credits for the estimate. -/
theorem paid_access (ctx : SysContext) (db₀ : BillingDb afterMigrations)
    (hrun : run (next ctx) (Sys.init db₀) as = some s) :
    (∀ (i : Nat) task phase, s.jobs[i]? = some (.chat task phase) → spends phase = true →
      Earlier ctx db₀ as (PaidRow task.userId task.request.requestKind)) ∧
    ∀ (i : Nat) userId txTime row, (i, Commit.charge userId txTime row) ∈ s.log →
      ∃ task, s.jobs[i]? = some (.chat task .finished) ∧ task.userId = userId ∧
        Earlier ctx db₀ as (PaidRow userId task.request.requestKind) := by
  have hfunded := funded_run hrun
  constructor
  · intro i task phase hi hspends
    have hjob := hfunded.jobs i _ hi
    cases phase with
    | received => cases hspends
    | fetched sub => cases hspends
    | finished => cases hspends
    | _ => exact hjob
  · intro i userId txTime row hmem
    obtain ⟨task, hat, howner, hpaid⟩ := hfunded.charges _ hmem userId txTime row rfl
    obtain ⟨job, hi, hby⟩ := (inv_run hrun).committed _ hmem
    rw [hi, Option.map_some, Option.some.injEq] at hat
    refine ⟨task, ?_, howner, hpaid⟩
    cases job with
    | webhook req phase => cases hat
    | usage userId' req phase => cases hat
    | chat task' phase =>
      cases hat
      cases phase with
      | finished => exact hi
      | _ => exact hby.elim

/-- `paid_access` at a run with a committed charge of job 0 and a chat that
fails after its check. -/
theorem paid_access_charged :
    ∃ s, run (next (sampleContext [invoiceSample])) (Sys.init (payingDb 0 (by decide)))
        ledgerRun = some s ∧
      s.log.map Prod.fst = [0, 1, 2] ∧
      ∀ i userId txTime row, (i, Commit.charge userId txTime row) ∈ s.log →
        ∃ task, s.jobs[i]? = some (.chat task .finished) ∧ task.userId = userId ∧
          Earlier (sampleContext [invoiceSample]) (payingDb 0 (by decide)) ledgerRun
            (PaidRow userId task.request.requestKind) := by
  have hsome : (run (next (sampleContext [invoiceSample])) (Sys.init (payingDb 0 (by decide)))
      ledgerRun).map (fun s => s.log.map Prod.fst) = some [0, 1, 2] := by
    decide +kernel
  obtain ⟨s, hs, hlog⟩ := Option.map_eq_some_iff.mp hsome
  exact ⟨s, hs, hlog, (paid_access _ _ hs).2⟩

end

end MizanConnect.Proofs.Billing
