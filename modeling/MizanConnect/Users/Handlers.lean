import MizanConnect.Auth.Upsert
import MizanConnect.Billing.Entitlements
import MizanConnect.Billing.Repository

/-!
# `MizanConnect.Users.Handlers`: `GET /v1/me` and `PATCH /v1/me`

`src/users/handlers.rs`, behind the extractor. `serve` is one authenticated
request of the service against the table `users`. A request carries what it
brings from outside: its header and body, the clock, the identifier an
INSERT would draw, the `subscriptions` table that `fetch_active` reads, and
the queries that lose their connection.
-/

set_option autoImplicit false

namespace MizanConnect.Users

open Sql (Table)
open MizanConnect.Auth
open MizanConnect.Billing (Entitlements entitlementsFor UNLIMITED)
open MizanConnect.Billing.Repository (SubscriptionRow fetchActive)

/-! ### Response shape -/

/-- `AiCredits`. -/
structure AiCredits where
  monthly : Int
  used : Int
  resetsAt : Option Timestamp
deriving DecidableEq, Repr

/-- `TeamDto`, without its fields that are always null. -/
structure TeamDto where
  id : Uuid
  name : String
  plan : Option String
  subscriptionStatus : Option String
  subscriptionCurrentPeriodEnd : Option String
  subscriptionCancelAtPeriodEnd : Option Bool
  createdAt : Option String
  entitlements : Entitlements
  aiCredits : AiCredits
deriving DecidableEq, Repr

/-- `MeResponse`. -/
structure MeResponse where
  id : Uuid
  supabaseUserId : Uuid
  email : String
  displayName : Option String
  avatarUrl : Option String
  createdAt : Timestamp
  updatedAt : Timestamp
  teamId : Option Uuid
  teamRole : Option String
  team : Option TeamDto
deriving DecidableEq, Repr

/-- `build_me`. `formatRfc3339` is `OffsetDateTime::format`. -/
def buildMe (formatRfc3339 : Timestamp → Option String) (user : User)
    (sub : Option SubscriptionRow) : MeResponse :=
  let plan := sub.map (·.tier)
  let status := sub.map (·.status)
  let entitlements := entitlementsFor plan status
  let used := (sub.map (·.aiCreditsUsed)).getD 0
  { id := user.id
    supabaseUserId := user.supabaseUserId
    email := user.email
    displayName := user.displayName
    avatarUrl := user.avatarUrl
    createdAt := user.createdAt
    updatedAt := user.updatedAt
    teamId := some user.id
    teamRole := some "owner"
    team := some
      { id := user.id
        name := user.displayName.getD user.email
        plan := plan
        subscriptionStatus := status
        subscriptionCurrentPeriodEnd :=
          (sub.bind (·.currentPeriodEnd)).bind formatRfc3339
        subscriptionCancelAtPeriodEnd := sub.map (·.cancelAtPeriodEnd)
        createdAt := formatRfc3339 user.createdAt
        entitlements := entitlements
        aiCredits :=
          { monthly := entitlements.aiCreditsMonthly
            used := if entitlements.aiCreditsMonthly = UNLIMITED then 0 else used
            resetsAt := sub.bind (·.currentPeriodEnd) } } }

/-! ### Requests -/

/-- `PatchMeRequest`. -/
structure PatchMeRequest where
  displayName : Option String

/-- `req.validate()`: the length counts characters. -/
def PatchMeRequest.validate (req : PatchMeRequest) : Except AppError Unit :=
  if req.displayName.all fun s => 1 ≤ s.length && s.length ≤ 100 then .ok ()
  else .error (.unprocessable
    "validation failed: display_name: display_name must be 1-100 chars")

/-- The trimmed name of the body, unless it is empty. -/
def PatchMeRequest.newName (req : PatchMeRequest) : Option String :=
  (req.displayName.map trim).filter fun s => !s.isEmpty

/-- The endpoints, by what they do to `users`. The body of the PATCH is
`none` when the JSON extractor rejects it. Every other authenticated handler
leaves `users` to the extractor. -/
inductive Endpoint where
  | getMe
  | patchMe (body : Option PatchMeRequest)
  | other

/-- The queries of the two handlers. -/
inductive Query where
  | upsertUser
  | updateDisplayName
  | fetchActive
deriving DecidableEq, Repr

/-- One authenticated request. -/
structure Request where
  endpoint : Endpoint
  authorization : AuthorizationHeader
  now : Timestamp
  newId : Uuid
  subscriptions : Table Billing.Subscriptions.afterMigrations
  unreachable : Query → Bool

/-- The answer. `bodyRejected` is the rejection of the JSON extractor, and
`other` the answer of another handler. -/
inductive Reply where
  | me (response : MeResponse)
  | error (e : AppError)
  | bodyRejected
  | other

/-- What the handlers use from outside. -/
structure UsersContext (Key : Type) where
  jwt : JwtContext Key
  parseUuid : String → Option Uuid
  formatRfc3339 : Timestamp → Option String

variable {Key : Type}

/-- `from_request_parts` of `AuthenticatedUser`. -/
def authenticate (ctx : UsersContext Key) (req : Request) (t : Table users) :
    Except AppError (Table users × User) := do
  let claims ← claimsOf ctx.jwt req.authorization
  upsertUserFromClaims ctx.parseUuid (!req.unreachable .upsertUser) t req.now req.newId claims

/-- The answer with `build_me`, once `fetch_active` has its connection. -/
def answerMe (ctx : UsersContext Key) (req : Request) (user : User) : Reply :=
  if req.unreachable .fetchActive then .error (AppError.ofDb .connection)
  else .me (buildMe ctx.formatRfc3339 user (fetchActive req.subscriptions user.id))

/-- `patch_me`. -/
def patchMe (ctx : UsersContext Key) (req : Request) (body : PatchMeRequest) (user : User)
    (t : Table users) : Reply × Table users :=
  match body.validate with
  | .error e => (.error e, t)
  | .ok () =>
    if req.unreachable .updateDisplayName then (.error (AppError.ofDb .connection), t)
    else
      match Repository.updateDisplayName t req.now user.id body.newName with
      | .error e => (.error (AppError.ofDb e), t)
      | .ok (t', updated) => (answerMe ctx req updated, t')

/-- The handler of an endpoint, for the user the extractor found. -/
def handle (ctx : UsersContext Key) (req : Request) (user : User) (t : Table users) :
    Reply × Table users :=
  match req.endpoint with
  | .getMe => (answerMe ctx req user, t)
  | .patchMe none => (.bodyRejected, t)
  | .patchMe (some body) => patchMe ctx req body user t
  | .other => (.other, t)

/-- One request: the extractor, then the handler. -/
def serve (ctx : UsersContext Key) (req : Request) (t : Table users) : Reply × Table users :=
  match authenticate ctx req t with
  | .error e => (.error e, t)
  | .ok (t', user) => handle ctx req user t'

end MizanConnect.Users
