import MizanConnect.Billing.Prices
import MizanConnect.Billing.Repository
import MizanConnect.Lib.Program
import MizanConnect.Statement
import MizanConnect.Users.Repository

/-!
# `MizanConnect.Billing.Checkout`: checkout and portal sessions

`create_checkout_session` and `create_portal_session` of
`src/billing/handlers.rs`, as programs, with the calls of
`src/billing/stripe_client.rs` that they make. Between two operations other
requests may move, each statement may fail, and Stripe may refuse a call. The
state has the table `subscriptions` after all migrations and the customers that
Stripe has created.
-/

set_option autoImplicit false

namespace MizanConnect.Billing.Checkout

open Concurrent (Machine Program)
open Repository
open MizanConnect.Users (User)
open Sql (Table)
open Subscriptions (afterMigrations)

/-! ### Stripe -/

/-- `StripeError`. -/
inductive StripeError where
  | transport
  | api (status : Nat) (body : String)
  | signature (reason : String)
deriving DecidableEq, Repr

/-- `stripe_to_app_error`. -/
def stripeToAppError : StripeError → AppError
  | .transport => .serviceUnavailable "upstream payment service unreachable"
  | .api _ _ => .serviceUnavailable "payment service returned an error"
  | .signature _ => .unauthorized "invalid webhook signature"

/-- A customer at Stripe, with its `metadata[user_id]`. -/
structure Customer where
  id : String
  userId : Uuid
deriving DecidableEq, Repr

/-- What comes of `create_customer`. A customer can be created and the answer
be lost. -/
inductive Creation where
  | refused (e : StripeError)
  | created (id : String)
  | unanswered (id : String) (e : StripeError)
deriving DecidableEq, Repr

/-- `CheckoutSessionParams`. -/
structure CheckoutSessionParams where
  customerId : String
  priceId : String
  successUrl : String
  cancelUrl : String
  clientReferenceId : Uuid
deriving DecidableEq, Repr

/-! ### Operations -/

/-- An operation of the two handlers. -/
inductive Op where
  | fetchCustomerId (userId : Uuid)
  | createCustomer (email : String) (userId : Uuid)
  | upsertCustomerStub (userId : Uuid) (stripeCustomerId : String)
  | createCheckoutSession (params : CheckoutSessionParams)
  | createBillingPortalSession (customerId returnUrl : String)

/-- What an operation is answered with. A session is answered with its URL. -/
def Op.Answer : Op → Type
  | .fetchCustomerId _ => Except AppError (Option String)
  | .createCustomer _ _ => Except StripeError String
  | .upsertCustomerStub _ _ => Except AppError Unit
  | .createCheckoutSession _ => Except StripeError String
  | .createBillingPortalSession _ _ => Except StripeError String

/-- What the environment decides about an operation. -/
def Op.Input : Op → Type
  | .fetchCustomerId _ => Attempt
  | .createCustomer _ _ => Creation
  | .upsertCustomerStub _ _ => Attempt
  | .createCheckoutSession _ => Except StripeError String
  | .createBillingPortalSession _ _ => Except StripeError String

/-- The table and the customers at Stripe. -/
structure CheckoutDb where
  subscriptions : Table afterMigrations
  customers : List Customer

/-- `upsert_customer_stub` on the pool. -/
def persistCustomer (db : CheckoutDb) (attempt : Attempt) (userId : Uuid)
    (stripeCustomerId : String) : Except AppError Unit × CheckoutDb :=
  match attempt with
  | .lost => (.error connectionError, db)
  | .run now newId acknowledged =>
    match upsertCustomerStub db.subscriptions now newId userId stripeCustomerId with
    | .error e => (.error (AppError.ofDb e), db)
    | .ok subscriptions =>
      (if acknowledged then .ok () else .error connectionError, { db with subscriptions })

/-- What an operation does. -/
def exec (db : CheckoutDb) : (o : Op) → o.Input → o.Answer × CheckoutDb
  | .fetchCustomerId userId, attempt =>
    (Attempt.query attempt (fetchCustomerId db.subscriptions userId), db)
  | .createCustomer _ userId, creation =>
    match (creation : Creation) with
    | .refused e => (.error e, db)
    | .created id => (.ok id, { db with customers := db.customers ++ [⟨id, userId⟩] })
    | .unanswered id e => (.error e, { db with customers := db.customers ++ [⟨id, userId⟩] })
  | .upsertCustomerStub userId stripeCustomerId, attempt =>
    persistCustomer db attempt userId stripeCustomerId
  | .createCheckoutSession _, reply => (reply, db)
  | .createBillingPortalSession _ _, reply => (reply, db)

/-- The database and Stripe as the two handlers see them. -/
def payments : Machine CheckoutDb Op Op.Answer where
  In := Op.Input
  exec := exec

/-! ### Handlers -/

/-- What the handlers use of `BillingInner`. -/
structure BillingInner where
  prices : StripePrices
  returnUrl : String

/-- `CheckoutRequest`. -/
structure CheckoutRequest where
  plan : String
  interval : String

/-- A handler: it ends with an error or a value. -/
abbrev Handler (α : Type) := ExceptT AppError (Program Op Op.Answer) α

namespace Handler

/-- A result that is there already. -/
def ofExcept {α : Type} (x : Except AppError α) : Handler α := .done x

def fetchCustomerId (userId : Uuid) : Handler (Option String) :=
  .perform (.fetchCustomerId userId) .done

def createCustomer (email : String) (userId : Uuid) : Handler String :=
  .perform (.createCustomer email userId) fun reply => .done (reply.mapError stripeToAppError)

def upsertCustomerStub (userId : Uuid) (stripeCustomerId : String) : Handler Unit :=
  .perform (.upsertCustomerStub userId stripeCustomerId) .done

def createCheckoutSession (params : CheckoutSessionParams) : Handler String :=
  .perform (.createCheckoutSession params) fun reply => .done (reply.mapError stripeToAppError)

def createBillingPortalSession (customerId returnUrl : String) : Handler String :=
  .perform (.createBillingPortalSession customerId returnUrl) fun reply =>
    .done (reply.mapError stripeToAppError)

/-- The billing configuration. -/
def billing (ctx : Option BillingInner) : Except AppError BillingInner :=
  match ctx with
  | some inner => .ok inner
  | none => .error (.notImplemented "billing is not configured on this server")

/-- The price of the requested plan and interval. -/
def priceOf (inner : BillingInner) (req : CheckoutRequest) : Except AppError String := do
  let plan ← (CheckoutPlan.fromStr req.plan).mapError AppError.badRequest
  let interval ← (BillingInterval.fromStr req.interval).mapError AppError.badRequest
  match inner.prices.lookup plan interval with
  | some priceId => .ok priceId
  | none => .error (.badRequest "plan/interval not available")

/-- The user's Stripe customer: looked up, or created and persisted. -/
def ensureCustomer (user : User) : Handler String := do
  let stored ← fetchCustomerId user.id
  match stored with
  | some id => return id
  | none =>
    -- Nothing holds the user between the lookup and the upsert.
    let id ← createCustomer user.email user.id
    upsertCustomerStub user.id id
    return id

/-- `create_checkout_session`. -/
def checkoutSession (ctx : Option BillingInner) (user : User) (req : CheckoutRequest) :
    Handler String := do
  let inner ← ofExcept (billing ctx)
  let priceId ← ofExcept (priceOf inner req)
  let customerId ← ensureCustomer user
  createCheckoutSession
    { customerId, priceId
      successUrl := inner.returnUrl ++ "?status=success"
      cancelUrl := inner.returnUrl ++ "?status=canceled"
      clientReferenceId := user.id }

/-- The customer of a portal session. -/
def requireCustomer (stored : Option String) : Except AppError String :=
  match stored with
  | some id => .ok id
  | none => .error (.notFound "no Stripe customer for this user")

/-- `create_portal_session`. -/
def portalSession (ctx : Option BillingInner) (user : User) : Handler String := do
  let inner ← ofExcept (billing ctx)
  let stored ← fetchCustomerId user.id
  let customerId ← ofExcept (requireCustomer stored)
  createBillingPortalSession customerId inner.returnUrl

end Handler

/-! ### Requests -/

/-- A request to one of the two endpoints, by the user that the extractor
found. -/
inductive Request where
  | checkout (user : User) (req : CheckoutRequest)
  | portal (user : User)

/-- The user of a request. -/
def Request.user : Request → User
  | .checkout user _ => user
  | .portal user => user

/-- The handler of a request. Both answer with the URL of a session. -/
def handle (ctx : Option BillingInner) : Request → Handler String
  | .checkout user req => Handler.checkoutSession ctx user req
  | .portal user => Handler.portalSession ctx user

/-- The service with the requests in progress. -/
abbrev PaymentSys := Concurrent.Sys CheckoutDb Request Op Op.Answer (Except AppError String)

/-- A request comes in, or one performs its next operation. -/
abbrev paymentNext (ctx : Option BillingInner) :
    PaymentSys → Concurrent.Action payments Request → Option PaymentSys :=
  Concurrent.next payments fun r => (handle ctx r).run

end MizanConnect.Billing.Checkout
