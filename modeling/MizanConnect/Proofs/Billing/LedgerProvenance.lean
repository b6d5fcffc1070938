import MizanConnect.Proofs.Billing.CreditLedger
import MizanConnect.Proofs.Billing.NoDeadlock
import MizanConnect.Proofs.Billing.Serial

/-!
# `MizanConnect.Proofs.Billing.LedgerProvenance`: the request behind a ledger row

What a job holds on its way to the ledger is due to its request (`Due`): a chat
holds the usage that its own stream reported before `[DONE]`, and then the row of
it, a usage report the row of its body. The stream of a chat is an action of the
run, so the invariant looks back at the actions. `Moved` is the specification of a
step of one job for this purpose, and `Accounted` the invariant: the ledger has
grown by the rows of the log, and each was left by the request of its job.
-/

set_option autoImplicit false

namespace MizanConnect.Proofs.Billing

open MizanConnect.Billing
open MizanConnect.Billing.Repository
open MizanConnect.Billing.Subscriptions (Row afterMigrations)
open Transition (run getElem?_set_cases getElem?_concat_cases)

/-! ### What a request can leave -/

/-- The usage of the upstream reply of the chat `i`, which ended with `[DONE]`. -/
def Streamed (ctx : SysContext) (as : List Action) (i : Nat) (usage : TokenUsage) : Prop :=
  ∃ chunks connected, Action.stream i chunks connected ∈ as ∧
    (runStream ctx.stream connected chunks).charged = some usage

/-- The ledger rows that the request `i` can leave. -/
def Leaves (ctx : SysContext) (as : List Action) (i : Nat) : Task → LedgerRow → Prop
  | .webhook _, _ => False
  | .chat task, row => ∃ usage, Streamed ctx as i usage ∧
      chargeLedgerRow task.userId (task.request.model.getD defaultModel)
        task.request.requestKind usage (usage.credits ctx.quotient) = .ok row
  | .usage userId req, row => req.insert userId = .ok row

/-- What the job `i` holds is due to its request. -/
def Due (ctx : SysContext) (as : List Action) (i : Nat) : Job → Prop
  | .chat _ (.charging usage) => Streamed ctx as i usage
  | .chat task (.ledgerWritten row) => Leaves ctx as i (.chat task) row
  | .chat task (.bumped row _) => Leaves ctx as i (.chat task) row
  | .usage userId req (.written row) => Leaves ctx as i (.usage userId req) row
  | _ => True

/-- The ledger row of a commit. -/
def commitRow : Commit → Option LedgerRow
  | .delivery _ _ _ => none
  | .charge _ _ row => some row
  | .usage row => some row

/-! ### A step of one job -/

section
variable {ctx : SysContext} {db db' db₀ : BillingDb afterMigrations} {others : List Job}
  {job job' : Job} {c : Commit} {s s' : Sys} {as bs : List Action} {i : Nat}

/-- What a stream has reported stays so in a longer run. -/
theorem Streamed.mono {usage : TokenUsage} (hsub : as ⊆ bs) (h : Streamed ctx as i usage) :
    Streamed ctx bs i usage := by
  obtain ⟨chunks, connected, hmem, hcharged⟩ := h
  exact ⟨chunks, connected, hsub hmem, hcharged⟩

theorem Leaves.mono {task : Task} {row : LedgerRow} (hsub : as ⊆ bs)
    (h : Leaves ctx as i task row) : Leaves ctx bs i task row := by
  cases task with
  | webhook req => exact h
  | chat task =>
    obtain ⟨usage, husage, hrow⟩ := h
    exact ⟨usage, husage.mono hsub, hrow⟩
  | usage userId req => exact h

theorem Due.mono (hsub : as ⊆ bs) (h : Due ctx as i job) : Due ctx bs i job := by
  unfold Due at h ⊢
  split
  · exact Streamed.mono hsub h
  · exact Leaves.mono hsub h
  · exact Leaves.mono hsub h
  · exact h
  · exact True.intro

/-- A step that does not commit stays with the request and what is due to it. -/
theorem advance_due (hdue : Due ctx as i job)
    (h : advance ctx db others job = some (.keep job')) :
    Job.task job' = Job.task job ∧ Due ctx as i job' := by
  cases job with
  | webhook req phase =>
    have htask : Job.task job' = .webhook req := advanceWebhook_task h
    refine ⟨htask, ?_⟩
    cases job' with
    | webhook req' phase' => exact True.intro
    | chat task phase' => cases htask
    | usage userId req' phase' => cases htask
  | chat task phase =>
    cases phase with
    | received =>
      rcases goOn_keep h with ⟨e, -, rfl⟩ | ⟨_, -, rfl⟩ <;> exact ⟨rfl, True.intro⟩
    | fetched sub =>
      rcases goOn_keep h with ⟨e, -, rfl⟩ | ⟨_, -, rfl⟩ <;> exact ⟨rfl, True.intro⟩
    | streaming => cases h
    | charging usage =>
      rcases goOn_keep h with ⟨e, -, rfl⟩ | ⟨row, hrow, rfl⟩
      · exact ⟨rfl, True.intro⟩
      · exact ⟨rfl, usage, hdue, hrow⟩
    | ledgerWritten row =>
      rcases execRows_keep h with ⟨e, -, rfl⟩ | ⟨rows, -, rfl, -⟩
      · exact ⟨rfl, True.intro⟩
      · exact ⟨rfl, hdue⟩
    | bumped row rows =>
      rw [advance, advanceChat] at h
      split at h <;> cases h
      exact ⟨rfl, True.intro⟩
    | finished => cases h
  | usage userId req phase =>
    cases phase with
    | received =>
      rcases goOn_keep h with ⟨e, -, rfl⟩ | ⟨row, hrow, rfl⟩
      · exact ⟨rfl, True.intro⟩
      · exact ⟨rfl, hrow⟩
    | written row => cases h
    | finished => cases h

/-- A job that is over holds nothing that is due. -/
theorem over_due (ctx : SysContext) (as : List Action) (i : Nat) (answered : Bool) (job : Job) :
    Due ctx as i (Job.over answered job) ∧ Finished (Job.over answered job) := by
  cases job <;> exact ⟨True.intro, rfl⟩

/-- A commit appends its row. -/
theorem CommitStep.appends (hdue : Due ctx as i job) (h : CommitStep db job db' c) :
    db'.ledger = db.ledger ++ (commitRow c).toList ∧
      ∀ row, commitRow c = some row → Leaves ctx as i (Job.task job) row := by
  cases h with
  | replay req billing env =>
    exact ⟨by simp [commitRow], fun row hrow => by cases hrow⟩
  | written req billing env rows events subscriptions hevents hsubs =>
    exact ⟨by simp [commitRow], fun row hrow => by cases hrow⟩
  | charge task row rows subscriptions hsubs =>
    refine ⟨rfl, ?_⟩
    rintro row' hrow
    cases hrow
    exact hdue
  | usage userId req row =>
    refine ⟨rfl, ?_⟩
    rintro row' hrow
    cases hrow
    exact hdue

/-- A failure stays with the request. -/
theorem failed_due (ctx : SysContext) (as : List Action) (i : Nat) (h : job.failed = some job') :
    Job.task job' = Job.task job ∧ Due ctx as i job' := by
  unfold Job.failed at h
  split at h <;> cases h <;> exact ⟨rfl, True.intro⟩

/-- The job `i` has moved by an action of `as`: it stays with its request, and what
it has committed is its row. -/
structure Moved (ctx : SysContext) (as : List Action) (s s' : Sys) (i : Nat) (job job' : Job) :
    Prop where
  at_i : s.jobs[i]? = some job
  jobs : s'.jobs = s.jobs.set i job'
  lower : stepsLeft job' < stepsLeft job
  task : Job.task job' = Job.task job
  due : Due ctx as i job'
  effect : (s'.db = s.db ∧ s'.log = s.log) ∨ ∃ c, s'.log = s.log ++ [(i, c)] ∧
    Finished job' ∧ s'.db.ledger = s.db.ledger ++ (commitRow c).toList ∧
    ∀ row, commitRow c = some row → Leaves ctx as i (Job.task job) row

/-- A step is a new request or a move of one job. -/
theorem next_moved {a : Action} (ha : a ∈ as)
    (hdue : ∀ (i : Nat) job, s.jobs[i]? = some job → Due ctx as i job)
    (h : next ctx s a = some s') :
    (∃ task, a = .spawn task ∧ s' = { s with jobs := s.jobs ++ [task.start] }) ∨
      ∃ i job job', Moved ctx as s s' i job job' := by
  rcases next_cases h with ⟨task, ha, hs'⟩ | ⟨i, job, job', -, hi, hadvance, rfl⟩ |
    ⟨i, job, db', c, answered, -, hi, hstep, rfl⟩ | ⟨i, job, job', -, hi, hfailed, rfl⟩ |
    ⟨i, chunks, connected, job, job', rfl, hi, hended, rfl⟩
  · exact Or.inl ⟨task, ha, hs'⟩
  · obtain ⟨htask, hdue'⟩ := advance_due (hdue i job hi) hadvance
    have hlowers := advance_lowers hadvance
    exact Or.inr ⟨i, job, job', hi, rfl, hlowers, htask, hdue', Or.inl ⟨rfl, rfl⟩⟩
  · obtain ⟨hdue', hover⟩ := over_due ctx as i answered job
    obtain ⟨hledger, hrow⟩ := hstep.appends (hdue i job hi)
    exact Or.inr ⟨i, job, _, hi, rfl, hstep.lowers answered, over_task answered job, hdue',
      Or.inr ⟨c, rfl, hover, hledger, hrow⟩⟩
  · obtain ⟨htask, hdue'⟩ := failed_due ctx as i hfailed
    exact Or.inr ⟨i, job, job', hi, rfl, failed_lowers hfailed, htask, hdue', Or.inl ⟨rfl, rfl⟩⟩
  · have hlower := endStream_lowers hended
    obtain ⟨task, rfl, ⟨usage, hcharged, rfl⟩ | rfl⟩ := endStream_cases hended
    -- The usage is the one that this stream has reported.
    · exact Or.inr ⟨i, _, _, hi, rfl, hlower, rfl, ⟨chunks, connected, ha, hcharged⟩,
        Or.inl ⟨rfl, rfl⟩⟩
    · exact Or.inr ⟨i, _, _, hi, rfl, hlower, rfl, True.intro, Or.inl ⟨rfl, rfl⟩⟩

/-! ### The ledger of a run -/

/-- The job `i` is over, and its request left the row. -/
def LeftBy (ctx : SysContext) (as : List Action) (s : Sys) (i : Nat) (row : LedgerRow) : Prop :=
  ∃ job, s.jobs[i]? = some job ∧ Finished job ∧ Leaves ctx as i (Job.task job) row

/-- What holds of the ledger after the run `as` that started with the tables
`db₀`. -/
structure Accounted (ctx : SysContext) (db₀ : BillingDb afterMigrations) (as : List Action)
    (s : Sys) : Prop where
  due : ∀ (i : Nat) job, s.jobs[i]? = some job → Due ctx as i job
  ledger : s.db.ledger = db₀.ledger ++ s.log.filterMap fun e => commitRow e.2
  left : ∀ e ∈ s.log, ∀ row, commitRow e.2 = some row → LeftBy ctx as s e.1 row

theorem accounted_init (ctx : SysContext) (db₀ : BillingDb afterMigrations) :
    Accounted ctx db₀ [] (Sys.init db₀) where
  due i job hi := by simp [Sys.init] at hi
  ledger := by simp [Sys.init]
  left e he := by simp [Sys.init] at he

/-- A longer run accounts for the same state. -/
theorem Accounted.mono (hsub : as ⊆ bs) (h : Accounted ctx db₀ as s) :
    Accounted ctx db₀ bs s where
  due i job hi := (h.due i job hi).mono hsub
  ledger := h.ledger
  left e he row hrow := by
    obtain ⟨job, hi, hover, hleaves⟩ := h.left e he row hrow
    exact ⟨job, hi, hover, hleaves.mono hsub⟩

/-- A job that is over stays as it is when another one moves. -/
theorem LeftBy.moved {k : Nat} {row : LedgerRow} (h : LeftBy ctx as s k row)
    (hmoved : Moved ctx as s s' i job job') : LeftBy ctx as s' k row := by
  obtain ⟨x, hk, hover, hrow⟩ := h
  have hne : k ≠ i := by
    rintro rfl
    cases hmoved.at_i.symm.trans hk
    have hlower := hmoved.lower
    rw [hover] at hlower
    omega
  refine ⟨x, ?_, hover, hrow⟩
  rw [hmoved.jobs, List.getElem?_set_ne (Ne.symm hne)]
  exact hk

theorem accounted_next {a : Action} (ha : a ∈ as) (hs : Accounted ctx db₀ as s)
    (h : next ctx s a = some s') : Accounted ctx db₀ as s' := by
  rcases next_moved ha hs.due h with ⟨task, -, rfl⟩ | ⟨i, job, job', hmoved⟩
  · refine ⟨?_, hs.ledger, ?_⟩
    · intro k x hk
      rcases getElem?_concat_cases hk with hk | ⟨-, rfl⟩
      · exact hs.due k x hk
      · cases task <;> exact True.intro
    · rintro e he row hrow
      obtain ⟨x, hk, hover, hrow'⟩ := hs.left e he row hrow
      refine ⟨x, ?_, hover, hrow'⟩
      rw [List.getElem?_append_left (List.getElem?_eq_some_iff.mp hk).1]
      exact hk
  · have hat : s'.jobs[i]? = some job' := by
      rw [hmoved.jobs]
      exact List.getElem?_set_self (List.getElem?_eq_some_iff.mp hmoved.at_i).1
    have hdue : ∀ (k : Nat) x, s'.jobs[k]? = some x → Due ctx as k x := by
      intro k x hk
      rw [hmoved.jobs] at hk
      rcases getElem?_set_cases hmoved.at_i hk with ⟨rfl, rfl⟩ | ⟨-, hk⟩
      · exact hmoved.due
      · exact hs.due k x hk
    rcases hmoved.effect with ⟨hdb, hlog⟩ | ⟨c, hlog, hover, hledger, hrow⟩
    · refine ⟨hdue, by rw [hdb, hlog]; exact hs.ledger, ?_⟩
      rw [hlog]
      exact fun e he row hrow => (hs.left e he row hrow).moved hmoved
    · refine ⟨hdue, ?_, ?_⟩
      · rw [hledger, hlog, hs.ledger, List.filterMap_append, List.append_assoc]
        cases hc : commitRow c with
        | none => simp [hc]
        | some row => simp [hc]
      · rw [hlog]
        intro e he row hcommit
        rcases List.mem_append.mp he with he | he
        · exact (hs.left e he row hcommit).moved hmoved
        · rw [List.mem_singleton.mp he] at hcommit ⊢
          refine ⟨job', hat, hover, ?_⟩
          rw [hmoved.task]
          exact hrow row hcommit

/-- Every reached state is accounted for. -/
theorem accounted_run (hrun : run (next ctx) (Sys.init db₀) as = some s) :
    Accounted ctx db₀ as s :=
  Transition.run_history (P := Accounted ctx db₀) (accounted_init ctx db₀)
    (fun as a _ _ _ hm h => accounted_next (List.mem_append_right as List.mem_cons_self)
      (hm.mono (List.subset_append_left as [a])) h) hrun

/-- The entries of a log with a row, and the rows, side by side. -/
theorem forall₂_filterMap {log : List (Nat × Commit)}
    (h : ∀ e ∈ log, ∀ row, commitRow e.2 = some row → LeftBy ctx as s e.1 row) :
    List.Forall₂ (LeftBy ctx as s) ((log.filter fun e => (commitRow e.2).isSome).map Prod.fst)
      (log.filterMap fun e => commitRow e.2) := by
  induction log with
  | nil => exact .nil
  | cons e log ih =>
    have hrest := ih fun x hx => h x (List.mem_cons_of_mem e hx)
    cases hrow : commitRow e.2 with
    | none => simpa [hrow] using hrest
    | some row =>
      simp only [List.filter_cons, hrow, Option.isSome_some, if_true, List.map_cons,
        List.filterMap_cons]
      exact .cons (h e List.mem_cons_self row hrow) hrest

/-- The ledger only grows, and every row that it has gained was left by one
finished request. No two rows are of the same request. A chat leaves the charge of
the usage that its own stream reported before `[DONE]`, for its own user, a usage
report what its body says, and a delivery nothing, whatever else runs and fails. -/
theorem ledger_provenance (ctx : SysContext)
    (hrun : run (next ctx) (Sys.init db₀) as = some s) :
    ∃ jobs rows, s.db.ledger = db₀.ledger ++ rows ∧ jobs.Nodup ∧
      List.Forall₂ (LeftBy ctx as s) jobs rows := by
  have hs : Accounted ctx db₀ as s := accounted_run hrun
  refine ⟨_, _, hs.ledger, ?_, forall₂_filterMap hs.left⟩
  exact (inv_run hrun).once.sublist (List.filter_sublist.map Prod.fst)

/-- `ledger_provenance` at a run with a chat, a usage report, an invoice and a
chat that fails: two rows, of the jobs 0 and 1. -/
theorem ledger_provenance_two :
    ∃ s, run (next (sampleContext [invoiceSample])) (Sys.init (payingDb 0 (by decide)))
        ledgerRun = some s ∧
      s.db.ledger.length = 2 ∧
      ∃ jobs rows, s.db.ledger = (payingDb 0 (by decide)).ledger ++ rows ∧ jobs.Nodup ∧
        List.Forall₂ (LeftBy (sampleContext [invoiceSample]) ledgerRun s) jobs rows := by
  have hsome : (run (next (sampleContext [invoiceSample])) (Sys.init (payingDb 0 (by decide)))
      ledgerRun).map (fun s => s.db.ledger.length) = some 2 := by
    decide +kernel
  obtain ⟨s, hs, hlength⟩ := Option.map_eq_some_iff.mp hsome
  exact ⟨s, hs, hlength, ledger_provenance _ hs⟩

end

end MizanConnect.Proofs.Billing
