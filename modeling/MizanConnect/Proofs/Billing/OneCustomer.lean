import Mathlib.Data.Fintype.EquivFin
import MizanConnect.Billing.Checkout
import MizanConnect.Proofs.Billing.SnapshotUpsert

/-!
# `MizanConnect.Proofs.Billing.OneCustomer`: one Stripe customer for each user

The checkout creates a customer for a user who has none stored and then persists
it by `upsert_customer_stub`. After 0005 this INSERT always fails, since it has
no `team_id`. So a user without a stored customer gets another customer at each
checkout, and no session.

`Stage` is where a request stands. `one_customer_iff` says for whom the service
keeps to one customer, and `two_customers` is a user with two.
-/

set_option autoImplicit false

namespace MizanConnect.Proofs.Billing

open Concurrent (Program next_advance_last)
open MizanConnect.Billing
open MizanConnect.Billing.Checkout
open MizanConnect.Billing.Repository (fetchCustomerId)
open MizanConnect.Billing.Subscriptions (afterMigrations)
open MizanConnect.Users (User)
open Sql (Table)
open Transition (Along run)

/-- The id of the customer that is created. -/
def createdId : Creation → Option String
  | .refused _ => none
  | .created id => some id
  | .unanswered id _ => some id

/-- A customer about to be created has an id that nobody has. -/
def freshCustomer (s : PaymentSys) : Concurrent.Action payments Request → Prop
  | .spawn _ => True
  | .advance i input => ∀ r email userId k id,
      s.jobs[i]? = some ⟨r, .perform (.createCustomer email userId) k⟩ →
      createdId (input (.createCustomer email userId)) = some id →
      (∀ c ∈ s.state.customers, c.id ≠ id) ∧
        ∀ row ∈ s.state.subscriptions.rows, row.stripeCustomerId ≠ some id

/-- The customer that a call opens a session for. -/
def sessionCustomer : Op → Option String
  | .createCheckoutSession params => some params.customerId
  | .createBillingPortalSession customerId _ => some customerId
  | _ => none

/-- At most one customer has been created for the user. It is the one stored, or
about to be. Every session that a request of the user opens is for the one
stored. -/
structure OneCustomer (userId : Uuid) (s : PaymentSys) : Prop where
  once : (s.state.customers.filter fun c => c.userId = userId).length ≤ 1
  stored : ∀ c ∈ s.state.customers, c.userId = userId →
    fetchCustomerId s.state.subscriptions userId = some c.id ∨
      ∃ r k, (⟨r, .perform (.upsertCustomerStub userId c.id) k⟩ : Concurrent.Job _ _ _ _) ∈ s.jobs
  used : ∀ job ∈ s.jobs, job.request.user.id = userId → ∀ o k customerId,
    job.rest = .perform o k → sessionCustomer o = some customerId →
    fetchCustomerId s.state.subscriptions userId = some customerId

/-- Some plan is for sale. -/
def Sells (ctx : Option BillingInner) : Prop :=
  ∃ inner req priceId, Handler.billing ctx = .ok inner ∧ Handler.priceOf inner req = .ok priceId

/-! ### Where a request stands -/

section
variable (inner : BillingInner) (user : User) (priceId customerId : String)

/-- `create_checkout_session` before its session. -/
def opening : Program Op Op.Answer (Except AppError String) :=
  .perform (.createCheckoutSession
    { customerId, priceId
      successUrl := inner.returnUrl ++ "?status=success"
      cancelUrl := inner.returnUrl ++ "?status=canceled"
      clientReferenceId := user.id }) fun reply => .done (reply.mapError stripeToAppError)

/-- `create_checkout_session` before it persists the customer. -/
def persisting : Program Op Op.Answer (Except AppError String) :=
  .perform (.upsertCustomerStub user.id customerId) fun x =>
    match x with
    | .error e => .done (.error e)
    | .ok _ => opening inner user priceId customerId

/-- `create_checkout_session` before it creates the customer. -/
def creating : Program Op Op.Answer (Except AppError String) :=
  .perform (.createCustomer user.email user.id) fun x =>
    match x with
    | .error e => .done (.error (stripeToAppError e))
    | .ok id => persisting inner user priceId id

/-- `create_checkout_session` before its lookup. -/
def fetching : Program Op Op.Answer (Except AppError String) :=
  .perform (.fetchCustomerId user.id) fun x =>
    match x with
    | .error e => .done (.error e)
    | .ok (some id) => opening inner user priceId id
    | .ok none => creating inner user priceId

/-- `create_portal_session` before its session. -/
def portalOpening : Program Op Op.Answer (Except AppError String) :=
  .perform (.createBillingPortalSession customerId inner.returnUrl) fun reply =>
    .done (reply.mapError stripeToAppError)

/-- `create_portal_session` before its lookup. -/
def portalFetching : Program Op Op.Answer (Except AppError String) :=
  .perform (.fetchCustomerId user.id) fun x =>
    match x with
    | .error e => .done (.error e)
    | .ok (some id) => portalOpening inner id
    | .ok none => .done (.error (.notFound "no Stripe customer for this user"))

end

theorem ofExcept_bind {α β : Type} (x : Except AppError α) (f : α → Handler β) :
    (Handler.ofExcept x >>= f).run =
      match x with
      | .error e => .done (.error e)
      | .ok a => (f a).run := by
  cases x with
  | error e => rfl
  | ok a => rfl

/-- The customer and then the session. -/
theorem ensureCustomer_session (inner : BillingInner) (user : User) (priceId : String) :
    (Handler.ensureCustomer user >>= fun customerId =>
      Handler.createCheckoutSession
        { customerId, priceId
          successUrl := inner.returnUrl ++ "?status=success"
          cancelUrl := inner.returnUrl ++ "?status=canceled"
          clientReferenceId := user.id }).run = fetching inner user priceId := by
  refine congrArg (Program.perform (Op.fetchCustomerId user.id)) (funext ?_)
  intro x
  cases x with
  | error e => rfl
  | ok stored =>
    -- A stored customer is used, and otherwise one is created and persisted.
    cases stored with
    | some id => rfl
    | none =>
      refine congrArg (Program.perform (Op.createCustomer user.email user.id)) (funext ?_)
      intro reply
      cases reply with
      | error e => rfl
      | ok id =>
        refine congrArg (Program.perform (Op.upsertCustomerStub user.id id)) (funext ?_)
        intro x
        cases x with
        | error e => rfl
        | ok _ => rfl

theorem handle_checkout (ctx : Option BillingInner) (user : User) (req : CheckoutRequest) :
    (handle ctx (.checkout user req)).run =
      match Handler.billing ctx with
      | .error e => .done (.error e)
      | .ok inner =>
        match Handler.priceOf inner req with
        | .error e => .done (.error e)
        | .ok priceId => fetching inner user priceId := by
  unfold handle Handler.checkoutSession
  dsimp only
  rw [ofExcept_bind]
  cases Handler.billing ctx with
  | error e => rfl
  | ok inner =>
    dsimp only
    rw [ofExcept_bind]
    cases Handler.priceOf inner req with
    | error e => rfl
    | ok priceId => exact ensureCustomer_session inner user priceId

theorem handle_portal (ctx : Option BillingInner) (user : User) :
    (handle ctx (.portal user)).run =
      match Handler.billing ctx with
      | .error e => .done (.error e)
      | .ok inner => portalFetching inner user := by
  unfold handle Handler.portalSession
  dsimp only
  rw [ofExcept_bind]
  cases Handler.billing ctx with
  | error e => rfl
  | ok inner =>
    refine congrArg (Program.perform (Op.fetchCustomerId user.id)) (funext ?_)
    intro x
    cases x with
    | error e => rfl
    | ok stored =>
      cases stored with
      | none => rfl
      | some id => rfl

/-- Where a request stands, when the table is `t`. A checkout creates a customer
for a user without one. -/
inductive Stage (ctx : Option BillingInner) (t : Table afterMigrations) :
    Request → Program Op Op.Answer (Except AppError String) → Prop where
  | fetching {inner : BillingInner} {user : User} {req : CheckoutRequest} {priceId : String}
      (hsells : Sells ctx) : Stage ctx t (.checkout user req) (fetching inner user priceId)
  | creating {inner : BillingInner} {user : User} {req : CheckoutRequest} {priceId : String}
      (hsells : Sells ctx) (hnone : fetchCustomerId t user.id = none) :
      Stage ctx t (.checkout user req) (creating inner user priceId)
  | persisting {inner : BillingInner} {user : User} {req : CheckoutRequest}
      {priceId id : String} : Stage ctx t (.checkout user req) (persisting inner user priceId id)
  | opening {inner : BillingInner} {user : User} {req : CheckoutRequest} {priceId id : String}
      (hid : fetchCustomerId t user.id = some id) :
      Stage ctx t (.checkout user req) (opening inner user priceId id)
  | portalFetching {inner : BillingInner} {user : User} :
      Stage ctx t (.portal user) (portalFetching inner user)
  | portalOpening {inner : BillingInner} {user : User} {id : String}
      (hid : fetchCustomerId t user.id = some id) :
      Stage ctx t (.portal user) (portalOpening inner id)
  | ended {r : Request} {answer : Except AppError String} : Stage ctx t r (.done answer)

section
variable {ctx : Option BillingInner} {t : Table afterMigrations} {db : CheckoutDb}

theorem stage_handle (ctx : Option BillingInner) (t : Table afterMigrations) (r : Request) :
    Stage ctx t r (handle ctx r).run := by
  cases r with
  | checkout user req =>
    rw [handle_checkout]
    cases hbilling : Handler.billing ctx with
    | error e => exact .ended
    | ok inner =>
      dsimp only
      cases hprice : Handler.priceOf inner req with
      | error e => exact .ended
      | ok priceId => exact .fetching ⟨inner, req, priceId, hbilling, hprice⟩
  | portal user =>
    rw [handle_portal]
    cases Handler.billing ctx with
    | error e => exact .ended
    | ok inner => exact .portalFetching

/-- No customer is ever persisted. -/
theorem persistCustomer_fails (db : CheckoutDb) (attempt : Attempt) (userId : Uuid)
    (customerId : String) :
    ∃ e, persistCustomer db attempt userId customerId = (.error e, db) := by
  cases attempt with
  | lost => exact ⟨connectionError, rfl⟩
  | run now newId acknowledged =>
    refine ⟨AppError.ofDb (.violation (.notNull "team_id")), ?_⟩
    simp only [persistCustomer, upsertCustomerStub_afterMigrations]

/-- No operation changes the table. -/
theorem subscriptions_exec (db : CheckoutDb) (o : Op) (i : o.Input) :
    (exec db o i).2.subscriptions = db.subscriptions := by
  -- The upsert of the stub is the only write, and it fails after 0005.
  cases o with
  | fetchCustomerId userId => rfl
  | createCustomer email userId =>
    cases (i : Creation) with
    | refused e => rfl
    | created id => rfl
    | unanswered id e => rfl
  | upsertCustomerStub userId customerId =>
    obtain ⟨e, he⟩ := persistCustomer_fails db i userId customerId
    exact congrArg (fun out => out.2.subscriptions) he
  | createCheckoutSession params => rfl
  | createBillingPortalSession customerId returnUrl => rfl

/-- The next stage, and the customers after the operation: a new one is of a user
without a stored one. -/
theorem stage_exec {r : Request} {o : Op}
    {k : o.Answer → Program Op Op.Answer (Except AppError String)} (i : o.Input)
    (h : Stage ctx db.subscriptions r (.perform o k)) :
    Stage ctx db.subscriptions r (k (exec db o i).1) ∧
      ∀ c ∈ (exec db o i).2.customers, c ∈ db.customers ∨
        fetchCustomerId db.subscriptions c.userId = none ∧ Sells ctx := by
  cases h with
  | @fetching inner user req priceId hsells =>
    refine ⟨?_, fun c hc => Or.inl hc⟩
    have hexec : exec db (.fetchCustomerId user.id) i
        = (Attempt.query i (fetchCustomerId db.subscriptions user.id), db) := rfl
    rw [hexec]
    cases hquery : Attempt.query i (fetchCustomerId db.subscriptions user.id) with
    | error e => exact .ended
    | ok stored =>
      have hstored := Attempt.query_eq_ok hquery
      cases stored with
      | none => exact .creating hsells hstored.symm
      | some id => exact .opening hstored.symm
  | @creating inner user req priceId hsells hnone =>
    have hadded : ∀ id, ∀ c ∈ db.customers ++ [⟨id, user.id⟩], c ∈ db.customers ∨
        fetchCustomerId db.subscriptions c.userId = none ∧ Sells ctx := by
      intro id c hc
      rcases List.mem_append.mp hc with hc | hc
      · exact Or.inl hc
      · rw [List.mem_singleton.mp hc]
        exact Or.inr ⟨hnone, hsells⟩
    -- A customer can be there although the call has failed.
    cases (i : Creation) with
    | refused e => exact ⟨.ended, fun c hc => Or.inl hc⟩
    | created id => exact ⟨.persisting, hadded id⟩
    | unanswered id e => exact ⟨.ended, hadded id⟩
  | @persisting inner user req priceId id =>
    obtain ⟨e, he⟩ := persistCustomer_fails db i user.id id
    have hexec : exec db (.upsertCustomerStub user.id id) i = (.error e, db) := he
    rw [hexec]
    exact ⟨.ended, fun c hc => Or.inl hc⟩
  | opening hid => exact ⟨.ended, fun c hc => Or.inl hc⟩
  | @portalFetching inner user =>
    refine ⟨?_, fun c hc => Or.inl hc⟩
    have hexec : exec db (.fetchCustomerId user.id) i
        = (Attempt.query i (fetchCustomerId db.subscriptions user.id), db) := rfl
    rw [hexec]
    cases hquery : Attempt.query i (fetchCustomerId db.subscriptions user.id) with
    | error e => exact .ended
    | ok stored =>
      have hstored := Attempt.query_eq_ok hquery
      cases stored with
      | none => exact .ended
      | some id => exact .portalOpening hstored.symm
  | portalOpening hid => exact ⟨.ended, fun c hc => Or.inl hc⟩

/-- A session is opened for the customer that is stored. -/
theorem stage_session {r : Request} {o : Op}
    {k : o.Answer → Program Op Op.Answer (Except AppError String)} {customerId : String}
    (h : Stage ctx t r (.perform o k)) (hsession : sessionCustomer o = some customerId) :
    fetchCustomerId t r.user.id = some customerId := by
  cases h with
  | fetching hsells => cases hsession
  | creating hsells hnone => cases hsession
  | persisting => cases hsession
  | opening hid =>
    cases hsession
    exact hid
  | portalFetching => cases hsession
  | portalOpening hid =>
    cases hsession
    exact hid

end

/-! ### Runs -/

/-- What a run without a single persisted customer looks like. -/
structure Unpersisted (ctx : Option BillingInner) (t : Table afterMigrations) (s : PaymentSys) :
    Prop where
  table : s.state.subscriptions = t
  stages : ∀ job ∈ s.jobs, Stage ctx t job.request job.rest
  customers : ∀ c ∈ s.state.customers, fetchCustomerId t c.userId = none ∧ Sells ctx

section
variable {ctx : Option BillingInner} {t : Table afterMigrations} {s s' : PaymentSys}
  {a : Concurrent.Action payments Request} {as : List (Concurrent.Action payments Request)}

theorem unpersisted_next (hs : Unpersisted ctx t s) (h : paymentNext ctx s a = some s') :
    Unpersisted ctx t s' := by
  rcases Concurrent.next_cases h with ⟨r, rfl, rfl⟩ | ⟨i, input, r, o, k, rfl, hjob, rfl⟩
  · refine ⟨hs.table, ?_, hs.customers⟩
    intro job hmem
    rcases List.mem_append.mp hmem with hmem | hmem
    · exact hs.stages job hmem
    · rw [List.mem_singleton.mp hmem]
      exact stage_handle ctx t r
  · have hstage : Stage ctx s.state.subscriptions r (.perform o k) := by
      rw [hs.table]
      exact hs.stages _ (List.mem_of_getElem? hjob)
    obtain ⟨hnext, hcustomers⟩ := stage_exec (input o) hstage
    rw [hs.table] at hnext hcustomers
    refine ⟨(subscriptions_exec s.state o (input o)).trans hs.table, ?_, ?_⟩
    · intro job hmem
      rcases List.mem_or_eq_of_mem_set hmem with hmem | rfl
      · exact hs.stages job hmem
      · exact hnext
    · intro c hc
      exact (hcustomers c hc).elim (hs.customers c) id

theorem unpersisted_run (hrun : run (paymentNext ctx) (Concurrent.Sys.init ⟨t, []⟩) as = some s) :
    Unpersisted ctx t s := by
  have hinit : Unpersisted ctx t (Concurrent.Sys.init ⟨t, []⟩) :=
    ⟨rfl, fun job hjob => (nomatch hjob), fun c hc => nomatch hc⟩
  exact Transition.run_invariant (P := Unpersisted ctx t) (C := fun _ _ => True)
    (fun _ _ _ hs _ h => unpersisted_next hs h) hinit (Transition.along_true _ _) hrun

/-- Without a customer of the user, the service keeps to one. -/
theorem oneCustomer_of_unpersisted {userId : Uuid} (hs : Unpersisted ctx t s)
    (hnone : ∀ c ∈ s.state.customers, c.userId ≠ userId) : OneCustomer userId s where
  once := by
    -- No customer of the user is no second one.
    have hempty : (s.state.customers.filter fun c => c.userId = userId) = [] := by
      rw [List.filter_eq_nil_iff]
      intro c hc huser
      exact hnone c hc (by simpa using huser)
    rw [hempty]
    exact Nat.zero_le 1
  stored c hc huser := absurd huser (hnone c hc)
  used job hjob huser o k customerId hrest hsession := by
    rw [hs.table]
    have hstage := hs.stages job hjob
    rw [hrest] at hstage
    rw [← huser]
    exact stage_session hstage hsession

end

/-! ### One customer, and two -/

/-- A user as the checkout sees one. -/
def shopper (userId : Uuid) : User where
  id := userId
  supabaseUserId := userId
  email := "shopper@example.com"
  displayName := none
  avatarUrl := none
  createdAt := 0
  updatedAt := 0
  deletedAt := none

/-- Every statement runs, and Stripe creates the customer `id`. -/
def creates (id : String) : (o : Op) → payments.In o
  | .fetchCustomerId _ => Attempt.run 0 ⟨0⟩ true
  | .createCustomer _ _ => Creation.created id
  | .upsertCustomerStub _ _ => Attempt.run 0 ⟨0⟩ true
  | .createCheckoutSession _ => Except.ok "https://checkout.stripe.com"
  | .createBillingPortalSession _ _ => Except.ok "https://billing.stripe.com"

/-- One checkout: its lookup, its customer and its stub. -/
def checkoutTurns (i : Nat) (user : User) (req : CheckoutRequest) (id : String) :
    List (Concurrent.Action payments Request) :=
  [.spawn (.checkout user req), .advance i (creates id), .advance i (creates id),
    .advance i (creates id)]

section
variable {ctx : Option BillingInner} {t : Table afterMigrations}

/-- A checkout request comes in. -/
theorem next_checkout (db : CheckoutDb)
    (jobs : List (Concurrent.Job Request Op Op.Answer (Except AppError String)))
    {inner : BillingInner} (user : User) {req : CheckoutRequest} {priceId : String}
    (hbilling : Handler.billing ctx = .ok inner)
    (hprice : Handler.priceOf inner req = .ok priceId) :
    paymentNext ctx ⟨db, jobs⟩ (.spawn (.checkout user req))
      = some ⟨db, jobs ++ [⟨.checkout user req, fetching inner user priceId⟩]⟩ := by
  have hhandle : (handle ctx (.checkout user req)).run = fetching inner user priceId := by
    rw [handle_checkout, hbilling]
    dsimp only
    rw [hprice]
  exact congrArg (fun program =>
    some (⟨db, jobs ++ [⟨.checkout user req, program⟩]⟩ : PaymentSys)) hhandle

variable (customers : List Customer)
  (jobs : List (Concurrent.Job Request Op Op.Answer (Except AppError String)))
  (inner : BillingInner) (user : User) (req : CheckoutRequest) (priceId id : String)

/-- Its lookup finds nothing. -/
theorem next_fetching (hnone : fetchCustomerId t user.id = none) :
    paymentNext ctx
        ⟨⟨t, customers⟩, jobs ++ [⟨.checkout user req, fetching inner user priceId⟩]⟩
        (.advance jobs.length (creates id))
      = some ⟨⟨t, customers⟩, jobs ++ [⟨.checkout user req, creating inner user priceId⟩]⟩ := by
  unfold paymentNext fetching
  rw [next_advance_last]
  have hexec : payments.exec ⟨t, customers⟩ (.fetchCustomerId user.id) (creates id _)
      = (.ok none, ⟨t, customers⟩) := by
    show (Attempt.query (.run 0 ⟨0⟩ true) (fetchCustomerId t user.id), _) = _
    rw [hnone]
    rfl
  rw [hexec]

/-- Its customer is created. -/
theorem next_creating :
    paymentNext ctx
        ⟨⟨t, customers⟩, jobs ++ [⟨.checkout user req, creating inner user priceId⟩]⟩
        (.advance jobs.length (creates id))
      = some ⟨⟨t, customers ++ [⟨id, user.id⟩]⟩,
          jobs ++ [⟨.checkout user req, persisting inner user priceId id⟩]⟩ :=
  next_advance_last _ _ _ _ _ _ _

variable (ctx t) in
/-- Its stub fails. -/
theorem next_persisting : ∃ e,
    paymentNext ctx
        ⟨⟨t, customers⟩, jobs ++ [⟨.checkout user req, persisting inner user priceId id⟩]⟩
        (.advance jobs.length (creates id))
      = some ⟨⟨t, customers⟩, jobs ++ [⟨.checkout user req, .done (.error e)⟩]⟩ := by
  obtain ⟨e, hfails⟩ := persistCustomer_fails ⟨t, customers⟩ (.run 0 ⟨0⟩ true) user.id id
  refine ⟨e, ?_⟩
  unfold paymentNext persisting
  rw [next_advance_last]
  have hexec : payments.exec ⟨t, customers⟩ (.upsertCustomerStub user.id id) (creates id _)
      = (.error e, ⟨t, customers⟩) := hfails
  rw [hexec]

variable {inner req priceId}

/-- A checkout for a user without a stored customer creates a customer and stores
none. -/
theorem run_checkout (hbilling : Handler.billing ctx = .ok inner)
    (hprice : Handler.priceOf inner req = .ok priceId)
    (hnone : fetchCustomerId t user.id = none) :
    ∃ e, run (paymentNext ctx) ⟨⟨t, customers⟩, jobs⟩ (checkoutTurns jobs.length user req id)
      = some ⟨⟨t, customers ++ [⟨id, user.id⟩]⟩,
          jobs ++ [⟨.checkout user req, .done (.error e)⟩]⟩ := by
  obtain ⟨e, hpersisting⟩ := next_persisting ctx t (customers ++ [⟨id, user.id⟩]) jobs inner
    user req priceId id
  refine ⟨e, ?_⟩
  simp only [checkoutTurns, run, next_checkout ⟨t, customers⟩ jobs user hbilling hprice,
    next_fetching customers jobs inner user req priceId id hnone,
    next_creating customers jobs inner user req priceId id, hpersisting, Option.bind_some]

/-- A new id stays new until its customer is created. -/
theorem freshCustomer_creates (i : Nat) (hcustomers : ∀ c ∈ customers, c.id ≠ id)
    (hrows : ∀ row ∈ t.rows, row.stripeCustomerId ≠ some id) :
    freshCustomer ⟨⟨t, customers⟩, jobs⟩ (.advance i (creates id)) := by
  intro r email userId k id' _ hid
  cases hid
  exact ⟨hcustomers, hrows⟩

/-- The customer that a checkout creates has a new id. -/
theorem along_checkout (hbilling : Handler.billing ctx = .ok inner)
    (hprice : Handler.priceOf inner req = .ok priceId)
    (hnone : fetchCustomerId t user.id = none) (hcustomers : ∀ c ∈ customers, c.id ≠ id)
    (hrows : ∀ row ∈ t.rows, row.stripeCustomerId ≠ some id) :
    Along (paymentNext ctx) freshCustomer ⟨⟨t, customers⟩, jobs⟩
      (checkoutTurns jobs.length user req id) := by
  obtain ⟨e, hpersisting⟩ := next_persisting ctx t (customers ++ [⟨id, user.id⟩]) jobs inner
    user req priceId id
  refine Transition.along_cons True.intro
    (next_checkout ⟨t, customers⟩ jobs user hbilling hprice) ?_
  refine Transition.along_cons (freshCustomer_creates _ _ _ _ hcustomers hrows)
    (next_fetching customers jobs inner user req priceId id hnone) ?_
  refine Transition.along_cons (freshCustomer_creates _ _ _ _ hcustomers hrows)
    (next_creating customers jobs inner user req priceId id) ?_
  refine Transition.along_cons ?_ hpersisting True.intro
  -- The operation of the last turn is the stub.
  intro r email userId k id' hjob _
  rw [List.getElem?_concat_length] at hjob
  cases hjob

end

/-- The service keeps to one customer of a user, in every run, exactly when the
user has a stored one at the start or nothing is for sale. -/
theorem one_customer_iff (ctx : Option BillingInner) (t : Table afterMigrations) (userId : Uuid) :
    (∀ as s, Along (paymentNext ctx) freshCustomer (Concurrent.Sys.init ⟨t, []⟩) as →
      run (paymentNext ctx) (Concurrent.Sys.init ⟨t, []⟩) as = some s → OneCustomer userId s) ↔
    (fetchCustomerId t userId).isSome ∨ ¬ Sells ctx := by
  constructor
  · intro hall
    by_contra hcond
    rw [not_or, not_not, Bool.not_eq_true, Option.isSome_eq_false_iff,
      Option.isNone_iff_eq_none] at hcond
    obtain ⟨hnone, inner, req, priceId, hbilling, hprice⟩ := hcond
    -- One checkout is enough: its customer is not stored.
    obtain ⟨id, hid⟩ := Infinite.exists_notMem_finset
      (t.rows.filterMap (·.stripeCustomerId)).toFinset
    have hrows : ∀ row ∈ t.rows, row.stripeCustomerId ≠ some id := by
      intro row hrow heq
      exact hid (List.mem_toFinset.mpr (List.mem_filterMap.mpr ⟨row, hrow, heq⟩))
    have halong := along_checkout [] [] (shopper userId) id hbilling hprice hnone
      (fun c hc => nomatch hc) hrows
    obtain ⟨e, hrun⟩ := run_checkout [] [] (shopper userId) id hbilling hprice hnone
    have hone := hall _ _ halong hrun
    rcases hone.stored ⟨id, userId⟩ List.mem_cons_self rfl with hstored | ⟨r, k, hjob⟩
    · rw [hnone] at hstored
      cases hstored
    · cases List.mem_singleton.mp hjob
  · intro hcond as s _ hrun
    have hs := unpersisted_run hrun
    refine oneCustomer_of_unpersisted hs ?_
    intro c hc huser
    obtain ⟨hnone, hsells⟩ := hs.customers c hc
    rw [huser] at hnone
    rcases hcond with hsome | hnothing
    · rw [hnone] at hsome
      cases hsome
    · exact hnothing hsells

/-- One plan for sale. -/
def basicOnly : BillingInner where
  prices := ⟨"price_1", "", "", "", "", ""⟩
  returnUrl := "https://mizan.app/billing"

/-- The two checkouts of a user, one after the other. -/
def twoCheckouts : List (Concurrent.Action payments Request) :=
  checkoutTurns 0 (shopper alice) ⟨"basic", "monthly"⟩ "cus_1" ++
    checkoutTurns 1 (shopper alice) ⟨"basic", "monthly"⟩ "cus_2"

/-- A user checks out twice: two customers, and none stored. -/
theorem two_customers :
    ∃ s, run (paymentNext (some basicOnly)) (Concurrent.Sys.init ⟨Table.empty, []⟩) twoCheckouts
        = some s ∧
      Along (paymentNext (some basicOnly)) freshCustomer (Concurrent.Sys.init ⟨Table.empty, []⟩)
        twoCheckouts ∧
      s.state.customers = [⟨"cus_1", alice⟩, ⟨"cus_2", alice⟩] ∧
      fetchCustomerId s.state.subscriptions alice = none ∧ ¬ OneCustomer alice s := by
  have hbilling : Handler.billing (some basicOnly) = .ok basicOnly := rfl
  have hprice : Handler.priceOf basicOnly ⟨"basic", "monthly"⟩ = .ok "price_1" := by decide
  have hnone : fetchCustomerId (Table.empty : Table afterMigrations) alice = none := rfl
  obtain ⟨e, hfirst⟩ := run_checkout [] [] (shopper alice) "cus_1" hbilling hprice hnone
  obtain ⟨e', hsecond⟩ := run_checkout [⟨"cus_1", alice⟩]
    [⟨.checkout (shopper alice) ⟨"basic", "monthly"⟩, .done (.error e)⟩] (shopper alice) "cus_2"
    hbilling hprice hnone
  refine ⟨_, Transition.run_append.mpr ⟨_, hfirst, hsecond⟩, ?_, rfl, rfl, ?_⟩
  · refine Transition.along_of_append
      (along_checkout [] [] (shopper alice) "cus_1" hbilling hprice hnone (by simp)
        fun row hrow => nomatch hrow) ?_
    intro m hm
    cases hfirst.symm.trans hm
    exact along_checkout [⟨"cus_1", alice⟩] _ (shopper alice) "cus_2" hbilling hprice hnone
      (by simp) fun row hrow => nomatch hrow
  · intro hone
    have honce : 2 ≤ 1 := hone.once
    omega

end MizanConnect.Proofs.Billing
