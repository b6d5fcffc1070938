import Mathlib.Data.List.Dedup
import MizanConnect.Billing.Pool
import MizanConnect.Proofs.Billing.WebhookAtomic

/-!
# `MizanConnect.Proofs.Billing.PoolStarvation`: when the pool starves itself

A delivery of a subscription event holds its transaction while it waits for
a second connection. With `n` of them at this point, the pool of `n` is
empty and none of them goes on (`Starved`).

Every step with the pool is a step of the service or moves a connection only
(`Moved.service`), so the invariant `Inv` of the service holds beside the
pool (`inv_run`). It says that open transactions have different event ids,
none of them recorded. So the deliveries of a starved state have `n`
different ids, all among the `contenders` of the requests. In the other
direction, `n` contenders brought to `resolve_user_id` one after the other
starve the pool. `never_starved_iff` puts the two together.
-/

set_option autoImplicit false

namespace MizanConnect.Proofs.Billing.PoolStarvation

open MizanConnect.Billing
open MizanConnect.Billing.Pool (Stage State)
open MizanConnect.Billing.Repository
open MizanConnect.Billing.Subscriptions (afterMigrations)
open Transition (run)

/-- Every connection is held by a transaction that waits for another one. -/
structure Starved (n : Nat) (s : State) : Prop where
  exhausted : s.held = n
  waiting : ∀ d ∈ s.deliveries, d.stage.connections ≠ 0 → d.stage.isAcquiring = true

/-- The tables and the deliveries as a state of the service. -/
def service (s : State) (log : List (Nat × Commit)) : Sys := ⟨s.db, s.jobs, log⟩

/-- What a delivery in `resolve_user_id` has decoded. -/
def StageOk (ctx : SysContext) : Stage → Prop
  | .acquiring _ env sub | .querying _ env sub => isSubscriptionEvent env.eventType = true ∧
      decodeObject "subscription" ctx.webhook.decodeSubscription env.object = .ok sub
  | _ => True

section
variable {n i : Nat} {ctx : SysContext} {db₀ : BillingDb afterMigrations}
  {requests : List WebhookRequest} {s s' : State} {d d' : Pool.Delivery}

/-! ### A step of one delivery -/

/-- A step with the pool: one delivery moves, it takes at most one free
connection, and the service makes a step or none. -/
structure Moved (n : Nat) (ctx : SysContext) (s : State) (i : Nat) (d d' : Pool.Delivery)
    (s' : State) : Prop where
  deliveries : s'.deliveries = s.deliveries.set i d'
  request : d'.request = d.request
  stage : StageOk ctx d'.stage
  connections : d'.stage.connections ≤ d.stage.connections ∨
    s.held < n ∧ d'.stage.connections = d.stage.connections + 1
  service : ∀ log, service s' log = service s log ∨
    ∃ a log', Billing.next ctx (service s log) a = some (service s' log')

/-- The jobs after a delivery was replaced. -/
theorem jobs_put (s : State) (i : Nat) (d : Pool.Delivery) :
    (s.put i d).jobs = s.jobs.set i d.job :=
  List.map_set ..

/-- A delivery that was replaced, as a state of the service. -/
theorem service_put (s : State) (i : Nat) (d : Pool.Delivery) (log : List (Nat × Commit)) :
    service (s.put i d) log = { service s log with jobs := s.jobs.set i d.job } := by
  rw [service, jobs_put]
  rfl

theorem jobs_getElem? (hi : s.deliveries[i]? = some d) : s.jobs[i]? = some d.job := by
  simp [State.jobs, hi]

/-- The connections in use after a delivery was replaced. -/
theorem held_put (hi : s.deliveries[i]? = some d) (d' : Pool.Delivery) :
    (s.put i d').held + d.stage.connections = s.held + d'.stage.connections := by
  obtain ⟨hlt, hget⟩ := List.getElem?_eq_some_iff.mp hi
  obtain ⟨pre, post, hsplit, -, hset⟩ : ∃ pre post, s.deliveries = pre ++ s.deliveries[i] :: post ∧
      pre.length = i ∧ s.deliveries.set i d' = pre ++ d' :: post := List.exists_of_set hlt
  -- The sum runs over the deliveries before, at and behind `i`.
  rw [hget] at hsplit
  rw [State.held, State.held, State.put, hset, hsplit]
  simp only [List.map_append, List.map_cons, List.sum_append, List.sum_cons]
  omega

/-- The requests stay what they are. -/
theorem map_request_set (hi : s.deliveries[i]? = some d) (d' : Pool.Delivery)
    (hrequest : d'.request = d.request) :
    (s.deliveries.set i d').map (·.request) = s.deliveries.map (·.request) := by
  obtain ⟨hlt, hget⟩ := List.getElem?_eq_some_iff.mp hi
  rw [List.map_set, hrequest, ← hget, ← List.getElem_map (fun d : Pool.Delivery => d.request),
    List.set_getElem_self]
  simpa using hlt

/-- The delivery after a statement is the job that the statement left. -/
theorem after_job (d : Pool.Delivery) (phase : WebhookPhase) :
    (d.after (.webhook d.request phase)).job = .webhook d.request phase := by
  cases phase <;> rfl

/-- A statement gives connections back or keeps the one of the transaction. -/
theorem after_ok (ctx : SysContext) (d : Pool.Delivery) (phase : WebhookPhase) :
    (d.after (.webhook d.request phase)).request = d.request ∧
      StageOk ctx (d.after (.webhook d.request phase)).stage ∧
      (d.after (.webhook d.request phase)).stage.connections ≤ 1 := by
  cases phase <;> exact ⟨rfl, True.intro, by simp [Pool.Delivery.after, Stage.connections]⟩

/-- A move that leaves the handler where it is. -/
theorem moved_of_job (hi : s.deliveries[i]? = some d) (hrequest : d'.request = d.request)
    (hjob : d'.job = d.job) (hstage : StageOk ctx d'.stage)
    (hconnections : d'.stage.connections ≤ d.stage.connections ∨
      s.held < n ∧ d'.stage.connections = d.stage.connections + 1) :
    Moved n ctx s i d d' (s.put i d') where
  deliveries := rfl
  request := hrequest
  stage := hstage
  connections := hconnections
  service log := by
    refine Or.inl ?_
    have hset : s.jobs.set i d.job = s.jobs := by
      obtain ⟨hlt, hget⟩ := List.getElem?_eq_some_iff.mp (jobs_getElem? hi)
      rw [← hget, List.set_getElem_self]
    rw [service_put, hjob, hset]
    rfl

/-- A step of the handler. -/
theorem moved_of_keep (hi : s.deliveries[i]? = some d) (hrequest : d'.request = d.request)
    (hstage : StageOk ctx d'.stage) (hconnections : d'.stage.connections ≤ d.stage.connections)
    (hadvance : advance ctx s.db (s.jobs.eraseIdx i) d.job = some (.keep d'.job)) :
    Moved n ctx s i d d' (s.put i d') where
  deliveries := rfl
  request := hrequest
  stage := hstage
  connections := Or.inl hconnections
  service log := by
    refine Or.inr ⟨.advance i, log, ?_⟩
    rw [service_put]
    simp only [next, service, jobs_getElem? hi, hadvance, bind, Option.bind, pure, Sys.apply]

/-- A statement of the transaction. -/
theorem moved_of_statement {phase : WebhookPhase} (hi : s.deliveries[i]? = some d)
    (hphase : d.stage = .transaction phase) (h : s.statement ctx i d phase = some s') :
    ∃ d', Moved n ctx s i d d' s' := by
  have hjob : d.job = .webhook d.request phase := by rw [Pool.Delivery.job, hphase]; rfl
  have hone : d.stage.connections = 1 := by rw [hphase]; rfl
  unfold State.statement at h
  cases heffect : advanceWebhook ctx.webhook s.db (s.jobs.eraseIdx i) d.request phase with
  | none =>
    rw [heffect] at h
    cases h
  | some effect =>
    have hadvance : advance ctx s.db (s.jobs.eraseIdx i) d.job = some effect := by
      rw [hjob]
      exact heffect
    rw [heffect] at h
    -- A statement leaves the tables, or is the commit.
    cases effect with
    | keep job =>
      cases h
      obtain ⟨phase', rfl⟩ : ∃ phase', job = .webhook d.request phase' := by
        have htask := advanceWebhook_task heffect
        cases job with
        | webhook req phase' =>
          cases htask
          exact ⟨phase', rfl⟩
        | chat task phase' => cases htask
        | usage userId req phase' => cases htask
      obtain ⟨hrequest, hstage, hle⟩ := after_ok ctx d phase'
      refine ⟨_, moved_of_keep hi hrequest hstage (by omega) ?_⟩
      rw [hadvance, after_job]
    | commit job db c =>
      cases h
      obtain ⟨phase', rfl⟩ : ∃ phase', job = .webhook d.request phase' := by
        obtain ⟨-, rfl⟩ := advanceWebhook_commit heffect
        exact ⟨_, rfl⟩
      obtain ⟨hrequest, hstage, hle⟩ := after_ok ctx d phase'
      refine ⟨d.after (.webhook d.request phase'), rfl, hrequest, hstage, Or.inl (by omega), ?_⟩
      intro log
      refine Or.inr ⟨.advance i, log ++ [(i, c)], ?_⟩
      have hjobs := jobs_put s i (d.after (.webhook d.request phase'))
      rw [after_job] at hjobs
      simp only [next, service, jobs_getElem? hi, hadvance, bind, Option.bind, pure, Sys.apply,
        ← hjobs]
      rfl

/-- A step of a delivery. -/
theorem moved_of_advance (hi : s.deliveries[i]? = some d) (hok : StageOk ctx d.stage)
    (h : s.advance n ctx i d = some s') : ∃ d', Moved n ctx s i d d' s' := by
  obtain ⟨req, stage⟩ := d
  cases stage with
  | received =>
    rw [State.advance] at h
    have hadvance : advance ctx s.db (s.jobs.eraseIdx i) (Pool.Delivery.job ⟨req, .received⟩) =
        some (goOn (admitWebhook ctx.webhook req) (fun e => .webhook req (.finished (.error e)))
          fun admitted => .webhook req (.begun admitted.1 admitted.2)) := rfl
    cases hadmitted : admitWebhook ctx.webhook req with
    | error e =>
      rw [hadmitted] at h hadvance
      cases h
      exact ⟨_, moved_of_keep hi rfl True.intro (Nat.le_refl 0) hadvance⟩
    | ok admitted =>
      rw [hadmitted] at h hadvance
      cases h
      exact ⟨_, moved_of_keep hi rfl True.intro (Nat.le_refl 0) hadvance⟩
  | beginning billing env =>
    simp only [State.advance] at h
    split at h
    · rename_i hfree
      cases h
      exact ⟨_, moved_of_job hi rfl rfl True.intro (Or.inr ⟨hfree, rfl⟩)⟩
    · cases h
  | transaction phase =>
    -- Only a recorded subscription event leaves the connection of its transaction.
    by_cases hlookup : ∃ billing env, phase = .recorded billing env ∧
        isSubscriptionEvent env.eventType = true
    · obtain ⟨billing, env, rfl, htype⟩ := hlookup
      simp only [State.advance, if_pos htype] at h
      cases hdecode : decodeObject "subscription" ctx.webhook.decodeSubscription env.object with
      | error e =>
        rw [hdecode] at h
        cases h
        refine ⟨_, moved_of_keep hi rfl True.intro (Nat.zero_le _) ?_⟩
        simp only [Pool.Delivery.job, Stage.phase, advance, advanceWebhook, if_pos htype, hdecode]
      | ok sub =>
        rw [hdecode] at h
        cases h
        exact ⟨_, moved_of_job hi rfl rfl ⟨htype, hdecode⟩ (Or.inl (Nat.le_refl 1))⟩
    · refine moved_of_statement hi rfl (h.symm.trans ?_).symm
      cases phase with
      | recorded billing env =>
        have htype : ¬ isSubscriptionEvent env.eventType = true :=
          fun htype => hlookup ⟨billing, env, rfl, htype⟩
        simp only [State.advance, if_neg htype]
      | _ => rfl
  | acquiring billing env sub =>
    simp only [State.advance] at h
    split at h
    · rename_i hfree
      cases h
      exact ⟨_, moved_of_job hi rfl rfl hok (Or.inr ⟨hfree, rfl⟩)⟩
    · cases h
  | querying billing env sub =>
    obtain ⟨htype, hdecode⟩ := hok
    simp only [State.advance] at h
    cases huser : resolveUserId s.db.subscriptions sub with
    | none =>
      rw [huser] at h
      cases h
      refine ⟨_, moved_of_keep hi rfl True.intro (Nat.le_succ 1) ?_⟩
      simp only [Pool.Delivery.job, Stage.phase, advance, advanceWebhook, if_pos htype, hdecode,
        huser]
    | some userId =>
      rw [huser] at h
      cases h
      refine ⟨_, moved_of_keep hi rfl True.intro (Nat.le_succ 1) ?_⟩
      simp only [Pool.Delivery.job, Stage.phase, advance, advanceWebhook, if_pos htype, hdecode,
        huser]
  | finished result => cases h

/-- The answer of a delivery that fails. -/
theorem failed_webhook {req : WebhookRequest} {phase : WebhookPhase} {job : Job}
    (h : Job.failed (.webhook req phase) = some job) :
    job = .webhook req (.finished (.error (AppError.ofDb .connection))) := by
  cases phase <;> cases h <;> rfl

/-- A delivery that fails gives its connections back. -/
theorem moved_of_fail {job : Job} (hi : s.deliveries[i]? = some d)
    (h : d.job.failed = some job) : Moved n ctx s i d (d.after job) (s.put i (d.after job)) := by
  obtain rfl := failed_webhook h
  refine ⟨rfl, rfl, True.intro, Or.inl (Nat.zero_le _), fun log => Or.inr ⟨.fail i, log, ?_⟩⟩
  rw [service_put]
  simp only [next, service, jobs_getElem? hi, h, bind, Option.bind, pure, Sys.apply]
  rfl

/-- A delivery whose COMMIT is not answered has failed after it. -/
theorem moved_of_unanswered (hi : s.deliveries[i]? = some d)
    (h : s.unanswered ctx i d = some s') : ∃ d', Moved n ctx s i d d' s' := by
  unfold State.unanswered at h
  split at h
  · rename_i job db c failed hadvance hfailed
    cases h
    obtain rfl := failed_webhook hfailed
    refine ⟨_, rfl, rfl, True.intro, Or.inl (Nat.zero_le _), ?_⟩
    intro log
    refine Or.inr ⟨.unanswered i, log ++ [(i, c)], ?_⟩
    have hjobs := jobs_put s i (d.after (.webhook d.request
      (.finished (.error (AppError.ofDb .connection)))))
    rw [after_job] at hjobs
    simp only [next, service, jobs_getElem? hi, hadvance, hfailed, Effect.unanswered, bind,
      Option.bind, Option.map, pure, Sys.apply, ← hjobs]
    rfl
  · cases h

/-- The three ways of a step. -/
theorem moved_of_next {a : Pool.Action} (hok : ∀ d ∈ s.deliveries, StageOk ctx d.stage)
    (h : Pool.next n ctx s a = some s') :
    ∃ i d d', s.deliveries[i]? = some d ∧ Moved n ctx s i d d' s' := by
  cases a with
  | advance i =>
    simp only [Pool.next, bind, Option.bind_eq_some_iff] at h
    obtain ⟨d, hi, h⟩ := h
    obtain ⟨d', hmoved⟩ := moved_of_advance hi (hok d (List.mem_of_getElem? hi)) h
    exact ⟨i, d, d', hi, hmoved⟩
  | fail i =>
    simp only [Pool.next, bind, Option.bind_eq_some_iff, pure, Option.some.injEq] at h
    obtain ⟨d, hi, job, hfailed, rfl⟩ := h
    exact ⟨i, d, d.after job, hi, moved_of_fail hi hfailed⟩
  | unanswered i =>
    simp only [Pool.next, bind, Option.bind_eq_some_iff] at h
    obtain ⟨d, hi, h⟩ := h
    obtain ⟨d', hmoved⟩ := moved_of_unanswered hi h
    exact ⟨i, d, d', hi, hmoved⟩

/-! ### The invariant -/

/-- The invariant of a run that started with the tables `db₀` and the
requests. -/
structure PoolInv (n : Nat) (ctx : SysContext) (db₀ : BillingDb afterMigrations)
    (requests : List WebhookRequest) (s : State) : Prop where
  service : ∃ log, Inv ctx db₀ (service s log)
  requests : s.deliveries.map (·.request) = requests
  stages : ∀ d ∈ s.deliveries, StageOk ctx d.stage
  held : s.held ≤ n

/-- The deliveries before they come in. -/
theorem mem_init (hd : d ∈ (State.init db₀ requests).deliveries) :
    d.request ∈ requests ∧ d.stage = .received := by
  obtain ⟨request, hrequest, rfl⟩ := List.mem_map.mp hd
  exact ⟨hrequest, rfl⟩

theorem held_init (db₀ : BillingDb afterMigrations) (requests : List WebhookRequest) :
    (State.init db₀ requests).held = 0 := by
  rw [State.held, List.sum_eq_zero]
  intro x hx
  obtain ⟨d, hd, rfl⟩ := List.mem_map.mp hx
  rw [(mem_init hd).2]
  rfl

theorem inv_init (n : Nat) (ctx : SysContext) (db₀ : BillingDb afterMigrations)
    (requests : List WebhookRequest) : PoolInv n ctx db₀ requests (State.init db₀ requests) := by
  have hjobs : ∀ (k : Nat) job, (State.init db₀ requests).jobs[k]? = some job →
      ∃ req, job = .webhook req .received := by
    intro k job hk
    obtain ⟨d, hd, rfl⟩ := List.mem_map.mp (List.mem_of_getElem? hk)
    exact ⟨d.request, by rw [Pool.Delivery.job, (mem_init hd).2]; rfl⟩
  refine ⟨⟨[], rfl, ?_, ?_, List.nodup_nil, by simp [service]⟩, ?_, ?_, ?_⟩
  · intro k job hk
    obtain ⟨req, rfl⟩ := hjobs k job hk
    exact True.intro
  · intro j k a b _ ha _
    obtain ⟨req, rfl⟩ := hjobs j a ha
    exact apart_of_idle b rfl rfl
  · rw [State.init, List.map_map]
    exact List.map_id requests
  · intro d hd
    rw [(mem_init hd).2]
    exact True.intro
  · rw [held_init]
    exact Nat.zero_le n

/-- Every step keeps the invariant. -/
theorem inv_step {a : Pool.Action} (h : PoolInv n ctx db₀ requests s)
    (hnext : Pool.next n ctx s a = some s') : PoolInv n ctx db₀ requests s' := by
  obtain ⟨i, d, d', hi, hmoved⟩ := moved_of_next h.stages hnext
  have hput : s'.deliveries = (s.put i d').deliveries := hmoved.deliveries
  refine ⟨?_, ?_, ?_, ?_⟩
  -- The step is one of the service, whose invariant it keeps, or none.
  · obtain ⟨log, hinv⟩ := h.service
    rcases hmoved.service log with hsame | ⟨a, log', hstep⟩
    · exact ⟨log, hsame ▸ hinv⟩
    · exact ⟨log', Billing.inv_step hinv hstep⟩
  · rw [hmoved.deliveries, map_request_set hi d' hmoved.request, h.requests]
  · intro x hx
    rw [hmoved.deliveries] at hx
    rcases List.mem_or_eq_of_mem_set hx with hx | rfl
    · exact h.stages x hx
    · exact hmoved.stage
  · have hsum := held_put hi d'
    have hheld : s'.held = (s.put i d').held := by rw [State.held, hput, State.held]
    have hle := h.held
    rcases hmoved.connections with hless | ⟨hfree, hone⟩ <;> omega

/-- Every reached state has the invariant. -/
theorem inv_run {as : List Pool.Action}
    (h : run (Pool.next n ctx) (State.init db₀ requests) as = some s) :
    PoolInv n ctx db₀ requests s :=
  Transition.run_invariant (C := fun _ _ => True) (fun _ _ _ hs _ hnext => inv_step hs hnext)
    (inv_init n ctx db₀ requests) (Transition.along_true _ _) h

/-- A recorded event stays recorded. -/
theorem PoolInv.recorded (h : PoolInv n ctx db₀ requests s) {id : String}
    (hid : Recorded db₀ id) : Recorded s.db id := by
  obtain ⟨log, hinv⟩ := h.service
  exact Transition.run_invariant (P := fun db => Recorded db id) (C := fun _ _ => True)
    (fun db c db' hdb _ hc => (recorded_run hc id).mpr (Or.inl hdb)) hid
    (Transition.along_true _ _) hinv.replay

/-! ### The deliveries that wait -/

/-- The event that a delivery looks a user up for. -/
def lookupId (ctx : SysContext) (req : WebhookRequest) : Option String :=
  match admitWebhook ctx.webhook req with
  | .error _ => none
  | .ok (_, env) =>
    if isSubscriptionEvent env.eventType ∧
        (decodeObject "subscription" ctx.webhook.decodeSubscription env.object).isOk = true then
      some env.id
    else none

/-- The new subscription events among the requests, each once. -/
def contenders (ctx : SysContext) (db : BillingDb afterMigrations)
    (requests : List WebhookRequest) : List String :=
  ((requests.filterMap (lookupId ctx)).filter fun id =>
    !db.events.rows.any fun e => e.stripeEventId = id).dedup

/-- The event that a waiting delivery has recorded. -/
def waitingId (d : Pool.Delivery) : Option String :=
  match d.stage with
  | .acquiring _ env _ => some env.id
  | _ => none

theorem mem_contenders {id : String} : id ∈ contenders ctx db₀ requests ↔
    (∃ req ∈ requests, lookupId ctx req = some id) ∧ ¬ Recorded db₀ id := by
  simp [contenders, Recorded]

theorem lookupId_eq_some {req : WebhookRequest} {id : String} : lookupId ctx req = some id ↔
    ∃ billing env sub, admitWebhook ctx.webhook req = .ok (billing, env) ∧ env.id = id ∧
      isSubscriptionEvent env.eventType = true ∧
      decodeObject "subscription" ctx.webhook.decodeSubscription env.object = .ok sub := by
  unfold lookupId
  cases hadmitted : admitWebhook ctx.webhook req with
  | error e => simp
  | ok admitted =>
    obtain ⟨billing, env⟩ := admitted
    cases hdecode : decodeObject "subscription" ctx.webhook.decodeSubscription env.object with
    | error e => simp [hdecode, Except.isOk, Except.toBool]
    | ok sub => simp [hdecode, Except.isOk, Except.toBool, and_comm]

theorem waitingId_eq_some {id : String} : waitingId d = some id ↔
    ∃ billing env sub, d.stage = .acquiring billing env sub ∧ env.id = id := by
  unfold waitingId
  cases d.stage <;> simp

/-- A waiting delivery is of a contender. -/
theorem PoolInv.contender (h : PoolInv n ctx db₀ requests s) (hd : d ∈ s.deliveries) {id : String}
    (hid : waitingId d = some id) : id ∈ contenders ctx db₀ requests := by
  obtain ⟨billing, env, sub, hstage, rfl⟩ := waitingId_eq_some.mp hid
  obtain ⟨log, hinv⟩ := h.service
  obtain ⟨i, hi⟩ := List.mem_iff_getElem?.mp hd
  -- The open transaction has inserted its event, so nobody recorded it before.
  have hok : JobOk ctx s.db d.job := hinv.ok i d.job (jobs_getElem? hi)
  rw [Pool.Delivery.job, hstage] at hok
  have hlookup := h.stages d hd
  rw [hstage] at hlookup
  refine mem_contenders.mpr ⟨⟨d.request, ?_, ?_⟩, fun hrec => hok.2 (h.recorded hrec)⟩
  · rw [← h.requests]
    exact List.mem_map_of_mem hd
  · exact lookupId_eq_some.mpr ⟨billing, env, sub, hok.1, rfl, hlookup.1, hlookup.2⟩

/-- Waiting deliveries are of different events. -/
theorem PoolInv.waiting_nodup (h : PoolInv n ctx db₀ requests s) :
    (s.deliveries.filterMap waitingId).Nodup := by
  obtain ⟨log, hinv⟩ := h.service
  rw [List.Nodup, List.pairwise_filterMap, List.pairwise_iff_getElem]
  rintro i j hi hj hlt a ha b hb rfl
  obtain ⟨billing, env, sub, hstage, rfl⟩ := waitingId_eq_some.mp ha
  obtain ⟨billing', env', sub', hstage', hsame⟩ := waitingId_eq_some.mp hb
  have hi' := jobs_getElem? (List.getElem?_eq_some_iff.mpr ⟨hi, rfl⟩)
  have hj' := jobs_getElem? (List.getElem?_eq_some_iff.mpr ⟨hj, rfl⟩)
  -- Two open transactions have inserted different events.
  refine (hinv.apart i j _ _ (Nat.ne_of_lt hlt) hi' hj').event env.id ?_ ?_
  · rw [Pool.Delivery.job, hstage]
    rfl
  · rw [Pool.Delivery.job, hstage', ← hsame]
    rfl

/-- In a starved state every connection is of a waiting delivery. -/
theorem Starved.length_waiting (h : Starved n s) :
    (s.deliveries.filterMap waitingId).length = n := by
  rw [← h.exhausted, State.held]
  have hwaiting := h.waiting
  generalize s.deliveries = ds at hwaiting ⊢
  -- A delivery adds a connection and an event, or neither.
  induction ds with
  | nil => rfl
  | cons d ds ih =>
    have hrest := ih (fun x hx => hwaiting x (List.mem_cons_of_mem d hx))
    have hd := hwaiting d List.mem_cons_self
    rw [List.map_cons, List.sum_cons, ← hrest]
    cases hstage : d.stage <;>
      simp_all [waitingId, Stage.connections, Stage.isAcquiring, Nat.add_comm]

/-- A starved state has as many contenders as connections. -/
theorem PoolInv.le_of_starved (h : PoolInv n ctx db₀ requests s) (hstarved : Starved n s) :
    n ≤ (contenders ctx db₀ requests).length := by
  rw [← hstarved.length_waiting]
  refine (List.subperm_of_subset h.waiting_nodup ?_).length_le
  intro id hid
  obtain ⟨d, hd, hid⟩ := List.mem_filterMap.mp hid
  exact h.contender hd hid

/-- Nothing but the checks of new requests goes on in a starved state. -/
theorem Starved.stuck (h : Starved n s) (hi : s.deliveries[i]? = some d)
    (hnext : Pool.next n ctx s (.advance i) = some s') : d.stage = .received := by
  simp only [Pool.next, hi, bind, Option.bind] at hnext
  have hfull : ¬ s.held < n := by rw [h.exhausted]; exact Nat.lt_irrefl n
  have hd := h.waiting d (List.mem_of_getElem? hi)
  cases hstage : d.stage with
  | received => rfl
  | beginning billing env => simp [State.advance, hstage, hfull] at hnext
  | transaction phase => simp [hstage, Stage.connections, Stage.isAcquiring] at hd
  | acquiring billing env sub => simp [State.advance, hstage, hfull] at hnext
  | querying billing env sub => simp [hstage, Stage.connections, Stage.isAcquiring] at hd
  | finished result => simp [State.advance, hstage] at hnext

/-! ### A run to a starved state -/

/-- The deliveries of the events `ids` wait, and no other has come in. -/
structure Lined (ctx : SysContext) (db₀ : BillingDb afterMigrations)
    (requests : List WebhookRequest) (ids : List String) (s : State) : Prop where
  db : s.db = db₀
  requests : s.deliveries.map (·.request) = requests
  stages : ∀ d ∈ s.deliveries, d.stage = .received ∨
    ∃ id ∈ ids, waitingId d = some id ∧ lookupId ctx d.request = some id
  held : s.held = ids.length

/-- A new subscription event comes in, begins, is recorded, and waits. -/
theorem run_to_acquiring {req : WebhookRequest} {billing : BillingConfig} {env : Envelope}
    {sub : SubscriptionObject} (hi : s.deliveries[i]? = some ⟨req, .received⟩)
    (hfree : s.held < n) (hadmitted : admitWebhook ctx.webhook req = .ok (billing, env))
    (htype : isSubscriptionEvent env.eventType = true)
    (hdecode : decodeObject "subscription" ctx.webhook.decodeSubscription env.object = .ok sub)
    (hnew : ¬ Recorded s.db env.id) (hunlocked : ∀ d ∈ s.deliveries, d.job.eventId ≠ some env.id) :
    run (Pool.next n ctx) s (List.replicate 4 (.advance i)) =
      some (s.put i ⟨req, .acquiring billing env sub⟩) := by
  have hlt : i < s.deliveries.length := (List.getElem?_eq_some_iff.mp hi).1
  have hget : ∀ d, (s.put i d).deliveries[i]? = some d :=
    fun d => List.getElem?_set_self hlt
  have hput : ∀ d d', (s.put i d).put i d' = s.put i d' := by
    intro d d'
    rw [State.put, State.put, State.put, List.set_set]
  have hreceived : Pool.next n ctx s (.advance i) =
      some (s.put i ⟨req, .beginning billing env⟩) := by
    simp only [Pool.next, hi, bind, Option.bind, State.advance, hadmitted]
  have hbeginning : Pool.next n ctx (s.put i ⟨req, .beginning billing env⟩) (.advance i) =
      some (s.put i ⟨req, .transaction (.begun billing env)⟩) := by
    have hsum := held_put hi ⟨req, .beginning billing env⟩
    have hheld : (s.put i ⟨req, .beginning billing env⟩).held < n := by
      simp only [Stage.connections] at hsum
      omega
    simp only [Pool.next, hget, bind, Option.bind, State.advance, if_pos hheld, hput]
  have hbegun : Pool.next n ctx (s.put i ⟨req, .transaction (.begun billing env)⟩) (.advance i) =
      some (s.put i ⟨req, .transaction (.recorded billing env)⟩) := by
    have hothers : ¬ ((s.put i ⟨req, .transaction (.begun billing env)⟩).jobs.eraseIdx i).any
        (fun job => job.eventId = some env.id) = true := by
      rw [List.any_eq_true]
      rintro ⟨job, hjob, hlocked⟩
      rw [jobs_put, List.eraseIdx_set_eq] at hjob
      obtain ⟨d, hd, rfl⟩ := List.mem_map.mp (List.mem_of_mem_eraseIdx hjob)
      exact hunlocked d hd (of_decide_eq_true hlocked)
    rcases tryRecordStripeEvent_cases s.db.events env.id env.eventType with ⟨hrec, -⟩ | ⟨-, heq⟩
    · exact absurd hrec hnew
    · simp only [Pool.next, hget, bind, Option.bind, State.advance, State.statement,
        advanceWebhook, if_neg hothers]
      rw [State.put, heq]
      simp only [Pool.Delivery.after]
      exact congrArg some (hput _ _)
  have hrecorded : Pool.next n ctx (s.put i ⟨req, .transaction (.recorded billing env)⟩)
      (.advance i) = some (s.put i ⟨req, .acquiring billing env sub⟩) := by
    simp only [Pool.next, hget, bind, Option.bind, State.advance, if_pos htype, hdecode, hput]
  simp only [List.replicate, run, hreceived, hbeginning, hbegun, hrecorded, Option.bind]

/-- One more contender is brought to `resolve_user_id`. -/
theorem Lined.extend {ids : List String} {id : String} (h : Lined ctx db₀ requests ids s)
    (hid : id ∈ contenders ctx db₀ requests) (hother : id ∉ ids) (hfree : ids.length < n) :
    ∃ as s', run (Pool.next n ctx) s as = some s' ∧ Lined ctx db₀ requests (id :: ids) s' := by
  obtain ⟨⟨req, hreq, hlookup⟩, hnew⟩ := mem_contenders.mp hid
  obtain ⟨billing, env, sub, hadmitted, rfl, htype, hdecode⟩ := lookupId_eq_some.mp hlookup
  rw [← h.requests] at hreq
  obtain ⟨d, hd, rfl⟩ := List.mem_map.mp hreq
  obtain ⟨i, hi⟩ := List.mem_iff_getElem?.mp hd
  -- Its event is not in the list, so the delivery has not come in.
  have hreceived : d.stage = .received := by
    rcases h.stages d hd with hstage | ⟨id', hid', -, hlookup'⟩
    · exact hstage
    · cases hlookup.symm.trans hlookup'
      exact absurd hid' hother
  -- And no open transaction holds the row of the event.
  have hunlocked : ∀ x ∈ s.deliveries, x.job.eventId ≠ some env.id := by
    intro x hx hevent
    rcases h.stages x hx with hstage | ⟨id', hid', hwaiting, -⟩
    · rw [Pool.Delivery.job, hstage] at hevent
      cases hevent
    · obtain ⟨billing', env', sub', hstage, rfl⟩ := waitingId_eq_some.mp hwaiting
      rw [Pool.Delivery.job, hstage] at hevent
      have hsame : env'.id = env.id := Option.some.inj hevent
      exact hother (hsame ▸ hid')
  have hdelivery : d = ⟨d.request, .received⟩ := by rw [← hreceived]
  rw [hdelivery] at hi
  refine ⟨_, _, run_to_acquiring hi (h.held ▸ hfree) hadmitted htype hdecode (h.db ▸ hnew)
    hunlocked, h.db, ?_, ?_, ?_⟩
  · have hset := map_request_set hi ⟨d.request, .acquiring billing env sub⟩ rfl
    exact hset.trans h.requests
  · intro x hx
    rcases List.mem_or_eq_of_mem_set hx with hx | rfl
    · rcases h.stages x hx with hstage | ⟨id', hid', hwaiting⟩
      · exact Or.inl hstage
      · exact Or.inr ⟨id', List.mem_cons_of_mem _ hid', hwaiting⟩
    · exact Or.inr ⟨env.id, List.mem_cons_self, rfl, hlookup⟩
  · have hsum := held_put hi ⟨d.request, .acquiring billing env sub⟩
    simp only [Stage.connections, h.held] at hsum
    rw [List.length_cons]
    omega

/-- Any contenders can be brought there, when there are connections for them. -/
theorem exists_lined (ids : List String) (hnodup : ids.Nodup)
    (hids : ∀ id ∈ ids, id ∈ contenders ctx db₀ requests) (hle : ids.length ≤ n) :
    ∃ as s, run (Pool.next n ctx) (State.init db₀ requests) as = some s ∧
      Lined ctx db₀ requests ids s := by
  -- The contenders come in one after the other, the last of the list first.
  induction ids with
  | nil =>
    refine ⟨[], _, rfl, rfl, (inv_init n ctx db₀ requests).requests, ?_, held_init db₀ requests⟩
    exact fun d hd => Or.inl (mem_init hd).2
  | cons id ids ih =>
    obtain ⟨hother, hnodup⟩ := List.nodup_cons.mp hnodup
    rw [List.length_cons] at hle
    obtain ⟨as, s, hrun, hlined⟩ :=
      ih hnodup (fun x hx => hids x (List.mem_cons_of_mem id hx)) (by omega)
    obtain ⟨bs, s', hrest, hlined'⟩ :=
      hlined.extend (n := n) (hids id List.mem_cons_self) hother (by omega)
    exact ⟨as ++ bs, s', Transition.run_append.mpr ⟨s, hrun, hrest⟩, hlined'⟩

/-- The deliveries of as many events as there are connections starve the
pool. -/
theorem Lined.starved {ids : List String} (h : Lined ctx db₀ requests ids s)
    (hlength : ids.length = n) : Starved n s := by
  refine ⟨h.held.trans hlength, ?_⟩
  intro d hd hconnections
  rcases h.stages d hd with hstage | ⟨id, -, hwaiting, -⟩
  · rw [hstage] at hconnections
    exact absurd rfl hconnections
  · obtain ⟨billing, env, sub, hstage, -⟩ := waitingId_eq_some.mp hwaiting
    rw [hstage]
    rfl

/-- A pool of `n` connections is never starved by its webhook transactions
exactly when there are fewer than `n` new subscription events among the
requests. -/
theorem never_starved_iff (n : Nat) (ctx : SysContext) (db₀ : BillingDb afterMigrations)
    (requests : List WebhookRequest) :
    (∀ as s, run (Pool.next n ctx) (State.init db₀ requests) as = some s → ¬ Starved n s) ↔
      (contenders ctx db₀ requests).length < n := by
  constructor
  · intro hnever
    by_contra hmany
    have hlength : ((contenders ctx db₀ requests).take n).length = n := by
      rw [List.length_take]
      omega
    -- The first `n` contenders starve the pool.
    obtain ⟨as, s, hrun, hlined⟩ := exists_lined ((contenders ctx db₀ requests).take n)
      ((List.nodup_dedup _).sublist (List.take_sublist n _))
      (fun id hid => List.mem_of_mem_take hid) (Nat.le_of_eq hlength)
    exact hnever as s hrun (hlined.starved hlength)
  · intro hfew as s hrun hstarved
    have hle := (inv_run hrun).le_of_starved hstarved
    omega

end

/-- One subscription event starves a pool of one connection. -/
theorem one_connection_starved :
    ∃ s, run (Pool.next 1 (sampleContext [createdSample])) (State.init stubDb [createdRequest])
        [.advance 0, .advance 0, .advance 0, .advance 0] = some s ∧ Starved 1 s := by
  have hnew : ¬ Recorded stubDb "evt_1" := by
    rintro ⟨e, he, -⟩
    cases he
  have hunlocked : ∀ d ∈ (State.init stubDb [createdRequest]).deliveries,
      d.job.eventId ≠ some "evt_1" := by
    intro d hd
    rw [Pool.Delivery.job, (mem_init hd).2]
    exact nofun
  have hdecode : decodeObject "subscription"
      (sampleContext [createdSample]).webhook.decodeSubscription createdEnvelope.object
        = .ok createdSub := rfl
  refine ⟨_, run_to_acquiring rfl Nat.zero_lt_one createdRequest_admitted rfl hdecode hnew
    hunlocked, rfl, ?_⟩
  intro d hd _
  rw [List.mem_singleton.mp hd]
  rfl

end MizanConnect.Proofs.Billing.PoolStarvation
