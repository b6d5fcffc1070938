import MizanConnect.Proofs.Billing.Serial

/-!
# `MizanConnect.Proofs.Billing.WebhookAtomic`: deliveries, once and whole

The webhook handler records the event id and writes `subscriptions` in one
transaction, and a recorded id makes the rest of the handler a no-op.
`deliveries_atomic` is what follows for every run of the service, whatever
the deliveries, their interleaving and their failures are, and beside any
chats and usage reports:

* a delivery answered with an error never changed a table (`rejected`), unless
  its COMMIT took effect and only the answer to it was lost: then it has taken
  effect like one that was answered with `Ok` (`unanswered`);
* the id of a delivery answered with `Ok` is in `stripe_events` (`accepted`);
* a delivery changes the tables in one step, its commit, and only when no
  delivery with the same id has committed before (`first`);
* the tables are those of the commits in order, without the repeated
  deliveries (`replay`).

`unanswered_delivery_resets` is a delivery whose answer is lost. Stripe will send
it again, and the recorded id makes that a no-op.
-/

set_option autoImplicit false

namespace MizanConnect.Proofs.Billing

open MizanConnect.Billing
open MizanConnect.Billing.Repository
open MizanConnect.Billing.Subscriptions (Row afterMigrations)
open Sql (Table)
open Transition (run StepOf)

/-- The event id of a committed delivery. -/
def eventOf : Commit → Option String
  | .delivery _ env _ => some env.id
  | _ => none

/-- The job that an action moves. -/
def Action.job : Action → Option Nat
  | .spawn _ => none
  | .advance i => some i
  | .fail i => some i
  | .unanswered i => some i
  | .stream i _ _ => some i

/-- The commits without the deliveries of an id that was seen before. -/
def firstDeliveries (seen : List String) : List Commit → List Commit
  | [] => []
  | c :: cs =>
    match eventOf c with
    | none => c :: firstDeliveries seen cs
    | some id =>
      if id ∈ seen then firstDeliveries seen cs else c :: firstDeliveries (id :: seen) cs

section
variable {ctx : SysContext} {db db' db₀ : BillingDb afterMigrations} {c : Commit}
  {s s' : Sys} {as : List Action}

/-! ### The event log -/

/-- A delivery of a recorded event changes nothing. -/
theorem run_recorded {id : String} (hid : eventOf c = some id) (h : Recorded db id) :
    Commit.run ctx db c = some db := by
  cases c with
  | delivery billing env req =>
    cases hid
    exact run_delivery.mpr (webhookTx_recorded h)
  | charge userId txTime row => cases hid
  | usage row => cases hid

/-- A commit records its event id, and no other. -/
theorem recorded_run (h : Commit.run ctx db c = some db') (id : String) :
    Recorded db' id ↔ Recorded db id ∨ eventOf c = some id := by
  cases c with
  | delivery billing env req =>
    by_cases hrec : Recorded db env.id
    · cases (run_recorded rfl hrec).symm.trans h
      constructor
      · exact Or.inl
      · rintro (h | hid)
        · exact h
        · cases hid
          exact hrec
    · obtain ⟨rows, events, subscriptions, -, hevents, -, rfl⟩ :=
        (webhookTx_new hrec).mp (run_delivery.mp h)
      rw [eventOf, Option.some.injEq]
      exact recorded_write hevents id
  | charge userId txTime row =>
    obtain ⟨rows, subscriptions, -, -, rfl⟩ := chargeTx_ok.mp (run_charge.mp h)
    simp [eventOf, Recorded]
  | usage row =>
    cases h
    simp [eventOf, Recorded]

/-- The commits give the same tables without the repeated deliveries. -/
theorem run_firstDeliveries {cs : List Commit} {seen : List String}
    (hseen : ∀ id ∈ seen, Recorded db id) (h : run (Commit.run ctx) db cs = some db') :
    run (Commit.run ctx) db (firstDeliveries seen cs) = some db' := by
  induction cs generalizing db seen with
  | nil => exact h
  | cons c cs ih =>
    obtain ⟨m, hm, hrest⟩ := Transition.run_cons_eq_some.mp h
    have hkeep : ∀ id ∈ seen, Recorded m id :=
      fun id hid => (recorded_run hm id).mpr (Or.inl (hseen id hid))
    rw [firstDeliveries]
    cases hid : eventOf c with
    | none => exact Transition.run_cons_eq_some.mpr ⟨m, hm, ih hkeep hrest⟩
    | some id =>
      dsimp only
      split
      · rename_i hmem
        cases (run_recorded hid (hseen id hmem)).symm.trans hm
        exact ih hseen hrest
      · refine Transition.run_cons_eq_some.mpr ⟨m, hm, ih (fun x hx => ?_) hrest⟩
        rcases List.mem_cons.mp hx with rfl | hx
        · exact (recorded_run hm x).mpr (Or.inr hid)
        · exact hkeep x hx

/-- The event ids of a list of commits are recorded after it. -/
theorem recorded_of_mem {cs : List Commit} (h : run (Commit.run ctx) db cs = some db')
    (hc : c ∈ cs) {id : String} (hid : eventOf c = some id) : Recorded db' id := by
  obtain ⟨pre, post, rfl⟩ := List.append_of_mem hc
  obtain ⟨m, -, hrest⟩ := Transition.run_append.mp h
  obtain ⟨m', hm', hpost⟩ := Transition.run_cons_eq_some.mp hrest
  -- The commit records its id, and no later one takes it away.
  exact Transition.run_invariant (P := fun db => Recorded db id) (C := fun _ _ => True)
    (fun db c db' hdb _ hc => (recorded_run hc id).mpr (Or.inl hdb))
    ((recorded_run hm' id).mpr (Or.inr hid)) (Transition.along_true _ _) hpost

/-- The event ids of the committed deliveries are recorded. -/
theorem Inv.recorded (h : Inv ctx db₀ s) {e : Nat × Commit} (he : e ∈ s.log) {id : String}
    (hid : eventOf e.2 = some id) : Recorded s.db id :=
  recorded_of_mem h.replay (List.mem_map_of_mem he) hid

/-! ### Runs -/

/-- The deliveries of the run `as` take effect whole, and each event once. -/
structure DeliveriesAtomic (ctx : SysContext) (db₀ : BillingDb afterMigrations)
    (as : List Action) (s : Sys) : Prop where
  rejected : ∀ i req e, s.jobs[i]? = some (.webhook req (.finished (.error e))) →
    ∀ m a m', StepOf (next ctx) (Sys.init db₀) as m a m' → Action.job a = some i →
      a ≠ .unanswered i → m'.db = m.db
  unanswered : ∀ (i : Nat) req phase m m',
    StepOf (next ctx) (Sys.init db₀) as m (.unanswered i) m' →
    m.jobs[i]? = some (.webhook req phase) →
    s.jobs[i]? = some (.webhook req (.finished (.error (AppError.ofDb .connection)))) ∧
      ∃ billing env, admitWebhook ctx.webhook req = .ok (billing, env) ∧ Recorded s.db env.id
  accepted : ∀ (i : Nat) req, s.jobs[i]? = some (.webhook req (.finished (.ok ()))) →
    ∃ billing env, admitWebhook ctx.webhook req = .ok (billing, env) ∧ Recorded s.db env.id
  first : ∀ i req phase m a m', StepOf (next ctx) (Sys.init db₀) as m a m' →
    Action.job a = some i → m.jobs[i]? = some (.webhook req phase) → m'.db ≠ m.db →
    ∃ billing env, admitWebhook ctx.webhook req = .ok (billing, env) ∧
      m'.log = m.log ++ [(i, .delivery billing env req)] ∧
      Commit.run ctx m.db (.delivery billing env req) = some m'.db ∧
      ∀ e ∈ m.log, eventOf e.2 ≠ some env.id
  replay : run (Commit.run ctx) db₀ (firstDeliveries [] (s.log.map Prod.snd)) = some s.db

/-- The job of a commit is over: no step of the service changes it. -/
theorem next_over {a : Action} {i : Nat} {job : Job} (hby : CommittedBy ctx job c)
    (hi : s.jobs[i]? = some job) (h : next ctx s a = some s') : s'.jobs[i]? = some job := by
  have hset : ∀ {k : Nat} {x x' : Job}, s.jobs[k]? = some x → x ≠ job →
      (s.jobs.set k x')[i]? = some job := by
    intro k x x' hk hne
    rw [List.getElem?_set_ne, hi]
    rintro rfl
    exact hne (Option.some.inj (hk.symm.trans hi))
  obtain ⟨hadvance, hfailed, hstream⟩ := committedBy_over hby
  rcases next_cases h with ⟨task, -, rfl⟩ | ⟨k, x, x', -, hk, hx, rfl⟩ |
    ⟨k, x, db', c', answered, -, hk, hx, rfl⟩ | ⟨k, x, x', -, hk, hx, rfl⟩ |
    ⟨k, chunks, connected, x, x', -, hk, hx, rfl⟩
  · exact (List.getElem?_append_left (List.getElem?_eq_some_iff.mp hi).1).trans hi
  · refine hset hk ?_
    rintro rfl
    cases (hadvance _ _).symm.trans hx
  · refine hset hk ?_
    rintro rfl
    exact hx.live c hby
  · refine hset hk ?_
    rintro rfl
    cases hfailed.symm.trans hx
  · refine hset hk ?_
    rintro rfl
    cases (hstream _ _).symm.trans hx

/-- Nor does a run. -/
theorem run_over {i : Nat} {job : Job} (hby : CommittedBy ctx job c) (hi : s.jobs[i]? = some job)
    (h : run (next ctx) s as = some s') : s'.jobs[i]? = some job :=
  Transition.run_invariant (P := fun x => x.jobs[i]? = some job) (C := fun _ _ => True)
    (fun _ _ _ hx _ hnext => next_over hby hx hnext) hi (Transition.along_true _ _) h

/-- The commit of a delivery is of its own event. -/
theorem committedBy_webhook {job : Job} {req : WebhookRequest} (h : CommittedBy ctx job c)
    (htask : Job.task job = .webhook req) :
    ∃ billing env, c = .delivery billing env req ∧
      admitWebhook ctx.webhook req = .ok (billing, env) := by
  unfold CommittedBy at h
  split at h
  · rename_i req' billing env req''
    cases htask
    obtain ⟨rfl, hchecked⟩ := h
    exact ⟨billing, env, rfl, hchecked⟩
  · cases htask
  · cases htask
  · exact h.elim

/-- A step that commits has left the job over in every later state. -/
theorem over_of_stepOf {m m' : Sys} {a : Action} {i : Nat} {job : Job} {answered : Bool}
    (hstep : StepOf (next ctx) (Sys.init db₀) as m a m') (hi : m.jobs[i]? = some job)
    (hjobs : m'.jobs = m.jobs.set i (Job.over answered job))
    (hc : Committed ctx m.db m'.db job c)
    (hrun : run (next ctx) (Sys.init db₀) as = some s) :
    s.jobs[i]? = some (Job.over answered job) := by
  obtain ⟨post, hpost⟩ := hstep.rest hrun
  refine run_over (hc.by_job answered) ?_ hpost
  rw [hjobs]
  exact List.getElem?_set_self (List.getElem?_eq_some_iff.mp hi).1

/-- A COMMIT without an answer is a commit. -/
theorem commit_of_unanswered {m m' : Sys} {i : Nat} (hinv : Inv ctx db₀ m)
    (h : next ctx m (.unanswered i) = some m') :
    ∃ job c, m.jobs[i]? = some job ∧ m'.jobs = m.jobs.set i (Job.over false job) ∧
      Committed ctx m.db m'.db job c ∧ m'.log = m.log ++ [(i, c)] := by
  rcases next_cases h with ⟨task, ha, -⟩ | ⟨k, job, job', ha, -⟩ |
    ⟨k, job, db', c, answered, ha, hk, hstep, rfl⟩ | ⟨k, job, job', ha, -⟩ |
    ⟨k, chunks, connected, job, job', ha, -⟩
  · cases ha
  · cases ha
  · cases answered with
    | true => cases ha
    | false =>
      cases ha
      exact ⟨job, c, hk, rfl, hstep.committed (hinv.ok i job hk), rfl⟩
  · cases ha
  · cases ha

/-- Every run of the service processes its deliveries atomically and at most
once. -/
theorem deliveries_atomic (ctx : SysContext) (db₀ : BillingDb afterMigrations)
    (as : List Action) (s : Sys) (hrun : run (next ctx) (Sys.init db₀) as = some s) :
    DeliveriesAtomic ctx db₀ as s where
  rejected i req e hi m a m' hstep ha hanswered := by
    rcases step_log (inv_before hstep) hstep.step with ⟨hdb, -⟩ |
      ⟨k, job, c, answered, rfl, hk, hjobs, -, hc, -⟩
    · exact hdb
    -- A commit that is answered is answered with `Ok`.
    · cases answered with
      | false =>
        cases ha
        exact absurd rfl hanswered
      | true =>
        cases ha
        have hover := over_of_stepOf hstep hk hjobs hc hrun
        cases job with
        | webhook req' phase => cases hi.symm.trans hover
        | chat task phase => cases hi.symm.trans hover
        | usage userId req' phase => cases hi.symm.trans hover
  unanswered i req phase m m' hstep hi := by
    obtain ⟨job, c, hk, hjobs, hc, hlog⟩ := commit_of_unanswered (inv_before hstep) hstep.step
    cases hi.symm.trans hk
    obtain ⟨billing, env, rfl, hchecked⟩ := committedBy_webhook (hc.by_job false) rfl
    obtain ⟨post, hpost⟩ := hstep.rest hrun
    have hmem : (i, .delivery billing env req) ∈ s.log :=
      (run_log hpost).subset (by rw [hlog]; simp)
    exact ⟨over_of_stepOf hstep hk hjobs hc hrun, billing, env, hchecked,
      (inv_run hrun).recorded hmem rfl⟩
  accepted i req hi := (inv_run hrun).ok i _ hi
  first i req phase m a m' hstep ha hi hne := by
    have hinv := inv_before hstep
    rcases step_log hinv hstep.step with ⟨hdb, -⟩ |
      ⟨k, job, c, answered, rfl, hk, -, -, hc, hlog⟩
    · exact absurd hdb hne
    · obtain rfl : k = i := by cases answered <;> exact Option.some.inj ha
      cases hi.symm.trans hk
      obtain ⟨billing, env, rfl, hchecked⟩ := committedBy_webhook (hc.by_job answered) rfl
      refine ⟨billing, env, hchecked, hlog, hc.run, fun e he hid => hne ?_⟩
      exact Option.some.inj (hc.run.symm.trans (run_recorded rfl (hinv.recorded he hid)))
  replay := run_firstDeliveries (by simp) (inv_run hrun).replay

end

/-! ### A delivery, its duplicate and a broken one -/

/-- An `invoice.paid` event of `sub_1`. -/
def invoiceEnvelope (id periodStart : String) : Envelope where
  id := id
  eventType := "invoice.paid"
  object := .obj [("subscription", .str "sub_1"), ("period_start", .num periodStart)]

/-- The body of `invoiceEnvelope`. -/
def invoiceBody (id periodStart : String) : String :=
  "\x7b\"id\":\"" ++ id ++ "\",\"type\":\"invoice.paid\",\"data\":\x7b\"object\":" ++
    "\x7b\"subscription\":\"sub_1\",\"period_start\":" ++ periodStart ++ "\x7d\x7d\x7d"

/-- The invoice of the period that starts at 1700000000. -/
def invoiceSample : Sample where
  body := invoiceBody "evt_1" "1700000000"
  tag := "98210bd8ce092f062694a069e252c83338e70b296ffeae6f0b275e4524b4bde7"
  envelope := .ok (invoiceEnvelope "evt_1" "1700000000")

/-- A body that is cut off. -/
def brokenSample : Sample where
  body := "\x7b\"id\":\"evt_3\""
  tag := "21a852b8f89cc285d7c2bb88348591633427934ed0f53bf270d120c78e8a2406"
  envelope := .error "EOF while parsing an object at line 1 column 13"

/-- The reply of a chat that used 5000 prompt tokens. -/
def usageReply : List Char :=
  ("\x7b\"usage\":\x7b\"prompt_tokens\":5000,\"completion_tokens\":0," ++
    "\"total_tokens\":5000\x7d\x7d").toList

/-- The parsers of the stream on that reply. -/
def sampleStream : StreamContext where
  parseJson payload :=
    if payload = usageReply then
      some (.obj [("usage", .obj [("prompt_tokens", .num "5000"),
        ("completion_tokens", .num "0"), ("total_tokens", .num "5000")])])
    else none
  decodeUsage usage :=
    match readInt usage "prompt_tokens", readInt usage "completion_tokens",
      readInt usage "total_tokens" with
    | some p, some c, some t =>
      some ⟨UInt32.ofNat p.toNat, UInt32.ofNat c.toNat, UInt32.ofNat t.toNat⟩
    | _, _, _ => none

/-- The service with the samples. -/
def sampleContext (samples : List Sample) : SysContext where
  webhook := sampleWebhook samples
  stream := sampleStream
  ai := ⟨true, true⟩
  quotient w := (w : Rat) / 1000

/-- Alice's active basic subscription, with `used` credits. -/
def payingRow (used : Int) : Row :=
  { stubRow with
    stripeSubscriptionId := some "sub_1", status := .active, aiCreditsUsed := used }

/-- The tables with that row. -/
def payingDb (used : Int) (h : isI32 used = true) : BillingDb afterMigrations where
  subscriptions := ⟨[payingRow used],
    by simp [payingRow, stubRow, afterMigrations, Subscriptions.baseViolation, h,
      Subscriptions.tierSlugs],
    by simp, by simp⟩
  events := Table.empty
  ledger := []

/-- Two deliveries of one invoice side by side, and a broken one. -/
def duplicateRun : List Action :=
  [.spawn (.webhook invoiceSample.request), .spawn (.webhook invoiceSample.request),
    .spawn (.webhook brokenSample.request), .advance 0, .advance 1, .advance 2, .advance 0,
    .advance 0, .advance 0, .advance 1, .advance 1]

/-- `deliveries_atomic` at that run: both deliveries commit, and the counter
was reset once. -/
theorem deliveries_atomic_duplicate :
    ∃ s, run (next (sampleContext [invoiceSample, brokenSample]))
        (Sys.init (payingDb 7 (by decide))) duplicateRun = some s ∧
      s.log.length = 2 ∧ s.db.subscriptions.rows.map (·.aiCreditsUsed) = [0] ∧
      DeliveriesAtomic (sampleContext [invoiceSample, brokenSample])
        (payingDb 7 (by decide)) duplicateRun s := by
  have hsome : (run (next (sampleContext [invoiceSample, brokenSample]))
      (Sys.init (payingDb 7 (by decide))) duplicateRun).map
        (fun s => (s.log.length, s.db.subscriptions.rows.map (·.aiCreditsUsed)))
      = some (2, [0]) := by decide +kernel
  obtain ⟨s, hs, hlog⟩ := Option.map_eq_some_iff.mp hsome
  obtain ⟨hlength, hused⟩ := Prod.mk.inj hlog
  exact ⟨s, hs, hlength, hused, deliveries_atomic _ _ _ s hs⟩

/-- A delivery whose COMMIT takes effect without an answer. -/
def unansweredRun : List Action :=
  [.spawn (.webhook invoiceSample.request), .advance 0, .advance 0, .advance 0, .unanswered 0]

/-- The delivery is answered with an error, and its last step has reset the counter:
an error alone does not say that the tables are as they were. -/
theorem unanswered_delivery_resets :
    ∃ s, run (next (sampleContext [invoiceSample])) (Sys.init (payingDb 7 (by decide)))
        unansweredRun = some s ∧
      s.jobs[0]? = some (.webhook invoiceSample.request
        (.finished (.error (AppError.ofDb .connection)))) ∧
      ¬ ∀ i req e, s.jobs[i]? = some (.webhook req (.finished (.error e))) →
        ∀ m a m', StepOf (next (sampleContext [invoiceSample]))
          (Sys.init (payingDb 7 (by decide))) unansweredRun m a m' → Action.job a = some i →
          m'.db = m.db := by
  -- The state before the COMMIT and the one after it.
  have hbefore : (run (next (sampleContext [invoiceSample])) (Sys.init (payingDb 7 (by decide)))
      (unansweredRun.take 4)).map (fun m => m.db.subscriptions.rows.map (·.aiCreditsUsed))
        = some [7] := by decide +kernel
  have hafter : ((run (next (sampleContext [invoiceSample])) (Sys.init (payingDb 7 (by decide)))
      (unansweredRun.take 4)).bind fun m => (next (sampleContext [invoiceSample]) m
        (.unanswered 0)).map (fun s => s.db.subscriptions.rows.map (·.aiCreditsUsed)))
        = some [0] := by decide +kernel
  obtain ⟨m, hm, hused⟩ := Option.map_eq_some_iff.mp hbefore
  rw [hm, Option.bind_some] at hafter
  obtain ⟨s, hs, hreset⟩ := Option.map_eq_some_iff.mp hafter
  have hrun : run (next (sampleContext [invoiceSample])) (Sys.init (payingDb 7 (by decide)))
      unansweredRun = some s :=
    Transition.run_append.mpr ⟨m, hm, Transition.run_cons_eq_some.mpr ⟨s, hs, rfl⟩⟩
  have hjob : (run (next (sampleContext [invoiceSample])) (Sys.init (payingDb 7 (by decide)))
      unansweredRun).bind (fun s => s.jobs[0]?) = some (.webhook invoiceSample.request
        (.finished (.error (AppError.ofDb .connection)))) := rfl
  rw [hrun, Option.bind_some] at hjob
  refine ⟨s, hrun, hjob, fun hall => ?_⟩
  have hsame := hall 0 _ _ hjob m (.unanswered 0) s (Transition.stepOf_last hm hs) rfl
  rw [hsame, hused] at hreset
  exact absurd hreset (by decide)

end MizanConnect.Proofs.Billing
