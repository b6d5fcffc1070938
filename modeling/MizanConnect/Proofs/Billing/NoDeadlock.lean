import MizanConnect.Lib.Progress
import MizanConnect.Proofs.Billing.WebhookAtomic

/-!
# `MizanConnect.Proofs.Billing.NoDeadlock`: the lock waits of the billing handlers

A statement waits for the rows and the `stripe_events` key that other open
transactions hold. `Free` is a state in which no row is held. A transaction that
holds rows has only its commit left, so it never waits (`advance_of_rows`). In a
free state a delivery can wait only for the key of another one, which itself has
no row to wait for (`advance_of_event`). So some job can always go on, and
`stepsLeft` counts how often. A step of another job, or a new request, takes nothing
from that count (`next_job`), so it bounds the steps of each job in every run.
-/

set_option autoImplicit false

namespace MizanConnect.Proofs.Billing

open MizanConnect.Billing
open MizanConnect.Billing.Repository
open MizanConnect.Billing.Subscriptions (Row afterMigrations)
open Transition (run Drains)

/-! ### The steps that are left -/

/-- The job after an effect. -/
def jobAfter : Effect → Job
  | .keep job => job
  | .commit job _ _ => job

/-- The most steps that a job can still take. -/
def stepsLeft : Job → Nat
  | .webhook _ .received => 5
  | .webhook _ (.begun _ _) => 4
  | .webhook _ (.recorded _ _) => 3
  | .webhook _ (.resolved _ _ _ _) => 2
  | .webhook _ (.replay _ _) => 1
  | .webhook _ (.written _ _ _) => 1
  | .webhook _ (.finished _) => 0
  | .chat _ .received => 6
  | .chat _ (.fetched _) => 5
  | .chat _ .streaming => 4
  | .chat _ (.charging _) => 3
  | .chat _ (.ledgerWritten _) => 2
  | .chat _ (.bumped _ _) => 1
  | .chat _ .finished => 0
  | .usage _ _ .received => 2
  | .usage _ _ (.written _) => 1
  | .usage _ _ .finished => 0

/-- The handler has answered, or its task is over. -/
def Finished (job : Job) : Prop := stepsLeft job = 0

/-- A step of a job: no new request, and no failure. -/
def Progresses : Action → Prop
  | .spawn _ => False
  | .advance _ => True
  | .fail _ => False
  | .unanswered _ => False
  | .stream _ _ _ => True

/-- The steps that all jobs together can still take. -/
def workLeft (s : Sys) : Nat := (s.jobs.map stepsLeft).sum

/-- The most steps that the request `i` can still take, also while it has not come
in. -/
def requestLeft (i : Nat) (s : Sys) : Nat :=
  match s.jobs[i]? with
  | some job => stepsLeft job
  | none => 6

section
variable {ctx : SysContext} {db : BillingDb afterMigrations} {others : List Job} {job : Job}
  {effect : Effect}

theorem stepsLeft_le (job : Job) : stepsLeft job ≤ 6 := by
  unfold stepsLeft
  split <;> omega

/-- Both ways of a check have fewer steps left. -/
theorem goOn_lowers {ε α : Type} {result : Except ε α} {onError : ε → Job} {onOk : α → Job}
    {n : Nat} (herror : ∀ e, stepsLeft (onError e) < n) (hok : ∀ a, stepsLeft (onOk a) < n)
    (h : some (goOn result onError onOk) = some effect) : stepsLeft (jobAfter effect) < n := by
  cases h
  unfold goOn
  cases result with
  | error e => exact herror e
  | ok a => exact hok a

theorem execRows_lowers {ε : Type} {result : Except ε (List Row)} {onError : ε → Job}
    {onRows : List Row → Job} {n : Nat} (herror : ∀ e, stepsLeft (onError e) < n)
    (hrows : ∀ rows, stepsLeft (onRows rows) < n)
    (h : execRows others result onError onRows = some effect) :
    stepsLeft (jobAfter effect) < n := by
  unfold execRows at h
  cases result with
  | error e =>
    cases h
    exact herror e
  | ok rows =>
    dsimp only at h
    split at h
    · cases h
      exact hrows rows
    · cases h

theorem advanceWebhook_lowers {wctx : WebhookContext} {req : WebhookRequest}
    {phase : WebhookPhase} (h : advanceWebhook wctx db others req phase = some effect) :
    stepsLeft (jobAfter effect) < stepsLeft (.webhook req phase) := by
  cases phase with
  | received =>
    exact goOn_lowers (n := 5) (fun _ => by simp [stepsLeft]) (fun _ => by simp [stepsLeft]) h
  | begun billing env =>
    rw [advanceWebhook] at h
    split at h
    · cases h
    · split at h <;> cases h <;> simp [jobAfter, stepsLeft]
  | replay billing env =>
    cases h
    simp [jobAfter, stepsLeft]
  | recorded billing env =>
    rw [advanceWebhook] at h
    split at h
    · split at h
      · cases h
        simp [jobAfter, stepsLeft]
      · split at h <;> cases h <;> simp [jobAfter, stepsLeft]
    · split at h
      · split at h
        · cases h
          simp [jobAfter, stepsLeft]
        · split at h
          · exact execRows_lowers (n := 3) (fun _ => by simp [stepsLeft])
              (fun _ => by simp [stepsLeft]) h
          · cases h
            simp [jobAfter, stepsLeft]
      · cases h
        simp [jobAfter, stepsLeft]
  | resolved billing env sub userId =>
    exact execRows_lowers (n := 2) (fun _ => by simp [stepsLeft]) (fun _ => by simp [stepsLeft]) h
  | written billing env rows =>
    rw [advanceWebhook] at h
    split at h <;> cases h <;> simp [jobAfter, stepsLeft]
  | finished result => cases h

theorem advanceChat_lowers {task : ChatTask} {phase : ChatPhase}
    (h : advanceChat ctx db others task phase = some effect) :
    stepsLeft (jobAfter effect) < stepsLeft (.chat task phase) := by
  cases phase with
  | received =>
    exact goOn_lowers (n := 6) (fun _ => by simp [stepsLeft]) (fun _ => by simp [stepsLeft]) h
  | fetched sub =>
    exact goOn_lowers (n := 5) (fun _ => by simp [stepsLeft]) (fun _ => by simp [stepsLeft]) h
  | streaming => cases h
  | charging usage =>
    exact goOn_lowers (n := 3) (fun _ => by simp [stepsLeft]) (fun _ => by simp [stepsLeft]) h
  | ledgerWritten row =>
    exact execRows_lowers (n := 2) (fun _ => by simp [stepsLeft]) (fun _ => by simp [stepsLeft]) h
  | bumped row rows =>
    rw [advanceChat] at h
    split at h <;> cases h <;> simp [jobAfter, stepsLeft]
  | finished => cases h

theorem advanceUsage_lowers {userId : Uuid} {req : UsageRequest} {phase : UsagePhase}
    (h : advanceUsage db userId req phase = some effect) :
    stepsLeft (jobAfter effect) < stepsLeft (.usage userId req phase) := by
  cases phase with
  | received =>
    exact goOn_lowers (n := 2) (fun _ => by simp [stepsLeft]) (fun _ => by simp [stepsLeft]) h
  | written row =>
    cases h
    simp [jobAfter, stepsLeft]
  | finished => cases h

/-- A step of a job leaves it fewer. -/
theorem advance_lowers (h : advance ctx db others job = some effect) :
    stepsLeft (jobAfter effect) < stepsLeft job := by
  cases job with
  | webhook req phase => exact advanceWebhook_lowers h
  | chat task phase => exact advanceChat_lowers h
  | usage userId req phase => exact advanceUsage_lowers h

/-- So does the end of its stream. -/
theorem endStream_lowers {chunks : List Chunk} {connected : Nat → Bool} {job' : Job}
    (h : endStream ctx chunks connected job = some job') : stepsLeft job' < stepsLeft job := by
  unfold endStream at h
  split at h
  · split at h <;> cases h <;> simp [stepsLeft]
  · cases h

/-- And an error. -/
theorem failed_lowers {job' : Job} (h : job.failed = some job') :
    stepsLeft job' < stepsLeft job := by
  cases job with
  | webhook req phase =>
    cases phase with
    | finished result => cases h
    | _ =>
      cases h
      simp [stepsLeft]
  | chat task phase =>
    cases phase with
    | finished => cases h
    | _ =>
      cases h
      simp [stepsLeft]
  | usage userId req phase =>
    cases phase with
    | finished => cases h
    | _ =>
      cases h
      simp [stepsLeft]

/-- And a commit, with or without its answer. -/
theorem CommitStep.lowers {db' : BillingDb afterMigrations} {c : Commit}
    (h : CommitStep db job db' c) (answered : Bool) :
    stepsLeft (Job.over answered job) < stepsLeft job := by
  cases h <;> simp [Job.over, stepsLeft]

/-! ### Who waits for whom -/

/-- A transaction that holds rows commits next. -/
theorem advance_of_rows (ctx : SysContext) (db : BillingDb afterMigrations) (others : List Job)
    (hrows : job.rows ≠ []) :
    ∃ effect, advance ctx db others job = some effect := by
  cases job with
  | webhook req phase =>
    cases phase with
    | written billing env rows =>
      rw [advance, advanceWebhook]
      split
      · exact ⟨_, rfl⟩
      · exact ⟨_, rfl⟩
    | _ => exact absurd rfl hrows
  | chat task phase =>
    cases phase with
    | bumped row rows =>
      rw [advance, advanceChat]
      split
      · exact ⟨_, rfl⟩
      · exact ⟨_, rfl⟩
    | _ => exact absurd rfl hrows
  | usage userId req phase => exact absurd rfl hrows

/-- No open transaction holds a row. -/
def Free (others : List Job) : Prop := ∀ job ∈ others, job.rows = []

/-- Then no statement waits for one. -/
theorem execRows_of_free {ε : Type} (hfree : Free others) (result : Except ε (List Row))
    (onError : ε → Job) (onRows : List Row → Job) :
    ∃ effect, execRows others result onError onRows = some effect := by
  unfold execRows
  cases result with
  | error e => exact ⟨_, rfl⟩
  | ok rows =>
    have hlocks : rowsFree others rows = true := by
      rw [rowsFree, List.all_eq_true]
      intro other hother
      rw [hfree other hother]
      rfl
    simp [hlocks]

/-- A delivery that has inserted its key goes on. -/
theorem advance_of_event (ctx : SysContext) (db : BillingDb afterMigrations)
    (hfree : Free others) (hevent : job.eventId ≠ none) :
    ∃ effect, advance ctx db others job = some effect := by
  cases job with
  | webhook req phase =>
    cases phase with
    | recorded billing env =>
      rw [advance, advanceWebhook]
      split
      · split
        · exact ⟨_, rfl⟩
        · split
          · exact ⟨_, rfl⟩
          · exact ⟨_, rfl⟩
      · split
        · split
          · exact ⟨_, rfl⟩
          · split
            · exact execRows_of_free hfree _ _ _
            · exact ⟨_, rfl⟩
        · exact ⟨_, rfl⟩
    | resolved billing env sub userId => exact execRows_of_free hfree _ _ _
    | written billing env rows =>
      rw [advance, advanceWebhook]
      split
      · exact ⟨_, rfl⟩
      · exact ⟨_, rfl⟩
    | _ => exact absurd rfl hevent
  | chat task phase => exact absurd rfl hevent
  | usage userId req phase => exact absurd rfl hevent

/-- Every other job goes on, unless it streams, is over, or waits for a key that
another delivery holds. -/
theorem advance_or_wait (ctx : SysContext) (db : BillingDb afterMigrations)
    (hfree : Free others) (hlive : ¬ Finished job) :
    (∃ effect, advance ctx db others job = some effect) ∨ (∃ task, job = .chat task .streaming) ∨
      ∃ other ∈ others, other.eventId ≠ none := by
  by_cases hevent : job.eventId = none
  · cases job with
    | webhook req phase =>
      cases phase with
      | received => exact Or.inl ⟨_, rfl⟩
      | begun billing env =>
        rw [advance, advanceWebhook]
        by_cases hheld : (others.any fun other => other.eventId = some env.id) = true
        · obtain ⟨other, hother, hid⟩ := List.any_eq_true.mp hheld
          refine Or.inr (Or.inr ⟨other, hother, ?_⟩)
          rw [of_decide_eq_true hid]
          exact Option.some_ne_none _
        · rw [if_neg hheld]
          split
          · exact Or.inl ⟨_, rfl⟩
          · exact Or.inl ⟨_, rfl⟩
      | replay billing env => exact Or.inl ⟨_, rfl⟩
      | recorded billing env => exact absurd hevent (Option.some_ne_none _)
      | resolved billing env sub userId => exact absurd hevent (Option.some_ne_none _)
      | written billing env rows => exact absurd hevent (Option.some_ne_none _)
      | finished result => exact absurd rfl hlive
    | chat task phase =>
      cases phase with
      | received => exact Or.inl ⟨_, rfl⟩
      | fetched sub => exact Or.inl ⟨_, rfl⟩
      | streaming => exact Or.inr (Or.inl ⟨task, rfl⟩)
      | charging usage => exact Or.inl ⟨_, rfl⟩
      | ledgerWritten row => exact Or.inl (execRows_of_free hfree _ _ _)
      | bumped row rows =>
        rw [advance, advanceChat]
        split
        · exact Or.inl ⟨_, rfl⟩
        · exact Or.inl ⟨_, rfl⟩
      | finished => exact absurd rfl hlive
    | usage userId req phase =>
      cases phase with
      | received => exact Or.inl ⟨_, rfl⟩
      | written row => exact Or.inl ⟨_, rfl⟩
      | finished => exact absurd rfl hlive
  · exact Or.inl (advance_of_event ctx db hfree hevent)

/-! ### The service -/

variable {s s' : Sys}

/-- The job `i` takes a step. -/
theorem next_advance {i : Nat} (hi : s.jobs[i]? = some job)
    (h : advance ctx s.db (s.jobs.eraseIdx i) job = some effect) :
    next ctx s (.advance i) = some (s.apply i effect) := by
  simp [next, hi, h]

/-- While some job is not over, some job can go on. -/
theorem some_job_advances (ctx : SysContext) (hlive : ¬ ∀ job ∈ s.jobs, Finished job) :
    ∃ a s', Progresses a ∧ next ctx s a = some s' := by
  have hstep : ∀ i job effect, s.jobs[i]? = some job →
      advance ctx s.db (s.jobs.eraseIdx i) job = some effect →
      ∃ a s', Progresses a ∧ next ctx s a = some s' :=
    fun i _ _ hi h => ⟨.advance i, _, True.intro, next_advance hi h⟩
  by_cases hheld : ∃ (i : Nat) (job : Job), s.jobs[i]? = some job ∧ job.rows ≠ []
  · obtain ⟨i, job, hi, hrows⟩ := hheld
    obtain ⟨effect, heffect⟩ := advance_of_rows ctx s.db (s.jobs.eraseIdx i) hrows
    exact hstep i job effect hi heffect
  · have hfree : ∀ i, Free (s.jobs.eraseIdx i) := by
      intro i job hjob
      obtain ⟨k, hk⟩ := List.mem_iff_getElem?.mp (List.mem_of_mem_eraseIdx hjob)
      by_contra hrows
      exact hheld ⟨k, job, hk, hrows⟩
    push Not at hlive
    obtain ⟨job, hjob, hlive⟩ := hlive
    obtain ⟨i, hi⟩ := List.mem_iff_getElem?.mp hjob
    rcases advance_or_wait ctx s.db (hfree i) hlive with
      ⟨effect, heffect⟩ | ⟨task, rfl⟩ | ⟨other, hother, hevent⟩
    · exact hstep i job effect hi heffect
    · -- The upstream stream ends at once.
      refine ⟨.stream i [] fun _ => true, s.apply i (.keep (.chat task .finished)), True.intro, ?_⟩
      simp [next, hi, endStream, runStream, pump, StreamEnd.charged]
    · -- The job waits for the key of another one, which goes on.
      obtain ⟨k, hk⟩ := List.mem_iff_getElem?.mp (List.mem_of_mem_eraseIdx hother)
      obtain ⟨effect, heffect⟩ := advance_of_event ctx s.db (hfree k) hevent
      exact hstep k other effect hk heffect

/-- A step is a new request, or a job that has fewer steps left. -/
theorem next_job {a : Action} (h : next ctx s a = some s') :
    (∃ task, a = .spawn task ∧ s'.jobs = s.jobs ++ [task.start]) ∨
      ∃ i job job', Action.job a = some i ∧ s.jobs[i]? = some job ∧
        s'.jobs = s.jobs.set i job' ∧ stepsLeft job' < stepsLeft job := by
  rcases next_cases h with ⟨task, rfl, rfl⟩ | ⟨i, job, job', rfl, hi, hadvance, rfl⟩ |
    ⟨i, job, db', c, answered, rfl, hi, hstep, rfl⟩ | ⟨i, job, job', rfl, hi, hfailed, rfl⟩ |
    ⟨i, chunks, connected, job, job', rfl, hi, hended, rfl⟩
  · exact Or.inl ⟨task, rfl, rfl⟩
  · have hlowers := advance_lowers hadvance
    exact Or.inr ⟨i, job, job', rfl, hi, rfl, hlowers⟩
  · refine Or.inr ⟨i, job, _, ?_, hi, rfl, hstep.lowers answered⟩
    cases answered <;> rfl
  · exact Or.inr ⟨i, job, job', rfl, hi, rfl, failed_lowers hfailed⟩
  · exact Or.inr ⟨i, job, job', rfl, hi, rfl, endStream_lowers hended⟩

/-- A step of a job lowers the work that is left. -/
theorem progress_lowers {a : Action} (ha : Progresses a) (h : next ctx s a = some s') :
    workLeft s' < workLeft s := by
  rcases next_job h with ⟨task, rfl, -⟩ | ⟨i, job, job', -, hi, hjobs, hlower⟩
  · exact ha.elim
  · rw [workLeft, workLeft, hjobs]
    exact Transition.sum_map_set_lt hi hlower

/-- No step gives a request steps back. -/
theorem requestLeft_le {i : Nat} {a : Action} (h : next ctx s a = some s') :
    requestLeft i s' ≤ requestLeft i s := by
  rcases next_job h with ⟨task, -, hjobs⟩ | ⟨k, job, job', -, hk, hjobs, hlower⟩
  -- A new request comes in behind the others, with no more than six steps.
  · unfold requestLeft
    cases hi : s.jobs[i]? with
    | some job =>
      have hlt : i < s.jobs.length := (List.getElem?_eq_some_iff.mp hi).1
      rw [hjobs, List.getElem?_append_left hlt, hi]
    | none =>
      cases s'.jobs[i]? with
      | some job' => exact stepsLeft_le job'
      | none => exact Nat.le_refl 6
  -- A step of another job does not touch this one.
  · by_cases hik : i = k
    · subst hik
      rw [requestLeft, requestLeft, hjobs, hk,
        List.getElem?_set_self (List.getElem?_eq_some_iff.mp hk).1]
      exact Nat.le_of_lt hlower
    · rw [requestLeft, requestLeft, hjobs, List.getElem?_set_ne (Ne.symm hik)]

/-- A step of the request takes one. -/
theorem requestLeft_lt {i : Nat} {a : Action} (ha : Action.job a = some i)
    (h : next ctx s a = some s') : requestLeft i s' < requestLeft i s := by
  rcases next_job h with ⟨task, rfl, -⟩ | ⟨k, job, job', hk, hi, hjobs, hlower⟩
  · cases ha
  · cases ha.symm.trans hk
    rw [requestLeft, requestLeft, hjobs, hi,
      List.getElem?_set_self (List.getElem?_eq_some_iff.mp hi).1]
    exact hlower

/-- A request takes at most six steps in a run, its failure among them, whatever
the other requests do. -/
theorem steps_of_request {as : List Action} (i : Nat) (hrun : run (next ctx) s as = some s') :
    as.countP (fun a => Action.job a = some i) ≤ 6 := by
  have hcount : as.countP (fun a => Action.job a = some i) + requestLeft i s'
      ≤ requestLeft i s :=
    Transition.countP_add_measure_le (fun _ _ _ h => requestLeft_le h)
      (fun _ _ _ ha h => requestLeft_lt (of_decide_eq_true ha) h) hrun
  have hleft : requestLeft i s ≤ 6 := by
    unfold requestLeft
    split
    · exact stepsLeft_le _
    · exact Nat.le_refl 6
  omega

/-- The steps of the jobs bring the service to rest. -/
theorem jobs_drain (ctx : SysContext) :
    Drains (next ctx) Progresses (fun s => ∀ job ∈ s.jobs, Finished job) workLeft where
  lowers _ _ _ ha h := progress_lowers ha h
  enabled _ hlive := some_job_advances ctx hlive

/-- The lock waits of deliveries, chats and usage reports never deadlock. No
request takes more than six steps in a run, while others come in, go on and fail.
When no job can take a step every job is over, and until then the steps of the jobs
can be continued to that point. -/
theorem no_deadlock (ctx : SysContext) {as : List Action}
    (hrun : run (next ctx) s as = some s') :
    (∀ i, as.countP (fun a => Action.job a = some i) ≤ 6) ∧
      ((∀ a, Progresses a → next ctx s' a = none) → ∀ job ∈ s'.jobs, Finished job) ∧
      (∃ bs t, (∀ a ∈ bs, Progresses a) ∧ run (next ctx) s' bs = some t ∧
        ∀ job ∈ t.jobs, Finished job) ∧
      ((∀ a ∈ as, Progresses a) → as.length ≤ 6 * s.jobs.length) :=
  ⟨fun i => steps_of_request i hrun, (jobs_drain ctx).rest, (jobs_drain ctx).run_to_rest s',
    fun has => Nat.le_trans ((jobs_drain ctx).length_le has hrun)
      (Transition.sum_map_le stepsLeft_le)⟩

end

/-! ### A delivery that waits for its duplicate -/

/-- Two deliveries of one invoice, up to where the second waits for the key of the
first. -/
def waitingRun : List Action :=
  [.spawn (.webhook invoiceSample.request), .spawn (.webhook invoiceSample.request), .advance 0,
    .advance 1, .advance 0]

/-- The first goes on to its commit, and then the second to its own. -/
def resumedRun : List Action := [.advance 0, .advance 0, .advance 1, .advance 1]

/-- `no_deadlock` from where the second delivery waits. -/
theorem no_deadlock_duplicate :
    ∃ s s', run (next (sampleContext [invoiceSample])) (Sys.init (payingDb 7 (by decide)))
        waitingRun = some s ∧
      (next (sampleContext [invoiceSample]) s (.advance 1)).isNone = true ∧
      run (next (sampleContext [invoiceSample])) s resumedRun = some s' ∧
      (∀ i, resumedRun.countP (fun a => Action.job a = some i) ≤ 6) ∧
      resumedRun.length ≤ 6 * s.jobs.length := by
  have hsome : (run (next (sampleContext [invoiceSample])) (Sys.init (payingDb 7 (by decide)))
      waitingRun).map (fun s => ((next (sampleContext [invoiceSample]) s (.advance 1)).isNone,
        (run (next (sampleContext [invoiceSample])) s resumedRun).isSome)) = some (true, true) := by
    decide +kernel
  obtain ⟨s, hs, hfacts⟩ := Option.map_eq_some_iff.mp hsome
  obtain ⟨hwaits, hresumed⟩ := Prod.mk.inj hfacts
  obtain ⟨s', hs'⟩ := Option.isSome_iff_exists.mp hresumed
  have hsteps : ∀ a ∈ resumedRun, Progresses a := by
    intro a ha
    simp only [resumedRun, List.mem_cons, List.not_mem_nil, or_false] at ha
    rcases ha with rfl | rfl | rfl | rfl <;> exact True.intro
  obtain ⟨hcount, -, -, hlength⟩ := no_deadlock _ hs'
  exact ⟨s, s', hs, hwaits, hs', hcount, hlength hsteps⟩

end MizanConnect.Proofs.Billing
