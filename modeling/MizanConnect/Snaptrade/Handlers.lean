import MizanConnect.Lib.Program
import MizanConnect.Snaptrade.Client
import MizanConnect.Statement

/-!
# `MizanConnect.Snaptrade.Handlers`: the brokerage endpoints

`src/snaptrade/handlers.rs`, each handler as a program over the statements,
the calls of the client, the clock and the rate limiter. Between two of these
operations other requests may move. `Snaptrade.snaptradeCallback` is the
callback in one piece.

AES-GCM, the JWT codec, the RFC 3339 parser and the redirect URL are
parameters (`BrokerContext`), and so are the replies of SnapTrade.
-/

set_option autoImplicit false

namespace MizanConnect.Snaptrade

open Concurrent (Program Machine)
open Repository (StoredConnection)

/-- What the handlers use from outside. `redirectWithState` appends the state
token to `SNAPTRADE_REDIRECT_URI`, unless that is no URL. -/
structure BrokerContext extends SnaptradeContext where
  encrypt : String → Option (List UInt8)
  encodeState : StateClaims → Option String
  redirectWithState : String → Option String

/-! ### Operations -/

/-- An operation of a handler. -/
inductive Op where
  | checkLimit (userId : Uuid)
  | fetchActiveForUser (userId : Uuid)
  | fetchAnyForUser (userId : Uuid)
  | fetchByAuthorizationIdForUser (userId : Uuid) (authorizationId : String)
  | insertPending (userId : Uuid) (snaptradeUserId : String) (blob : List UInt8)
  | markCompleted (connectionId : Uuid) (authorizationId : String)
      (brokerSlug institutionName : Option String)
  | softDelete (userId connectionId : Uuid)
  | recordEvent (event : AuditEvent)
  | call (c : Call)
  | now
  | newUuid

/-- What an operation is answered with. `LoginPortalLimiter::check` answers
with the seconds to wait when it refuses. -/
def Op.Answer : Op → Type
  | .checkLimit _ => Except Int Unit
  | .fetchActiveForUser _ => Except AppError (Option StoredConnection)
  | .fetchAnyForUser _ => Except AppError (Option StoredConnection)
  | .fetchByAuthorizationIdForUser _ _ => Except AppError (Option StoredConnection)
  | .insertPending _ _ _ => Except AppError Uuid
  | .markCompleted _ _ _ _ => Except AppError Unit
  | .softDelete _ _ => Except AppError Nat
  | .recordEvent _ => Unit
  | .call c => Except SnaptradeError c.Reply
  | .now => Timestamp
  | .newUuid => Uuid

/-- What the environment decides about an operation. The limiter, the clock
and SnapTrade are part of it. -/
def Op.Input : Op → Type
  | .checkLimit _ => Except Int Unit
  | .call c => Except SnaptradeError c.Reply
  | .now => Timestamp
  | .newUuid => Uuid
  | _ => Attempt

/-- `mark_completed` as a statement with no result. -/
def markCompletedStatement (connectionId : Uuid) (authorizationId : String)
    (brokerSlug institutionName : Option String) (t : Sql.Table BrokerConnections.schema)
    (now : Timestamp) (_newId : Uuid) :
    Except Sql.Violation (Sql.Table BrokerConnections.schema × Unit) :=
  (Repository.markCompleted t now connectionId authorizationId brokerSlug
    institutionName).map fun t' => (t', ())

/-- A write to `broker_connections`. -/
def BrokerDb.write {α : Type} (db : BrokerDb) (attempt : Attempt)
    (statement : Sql.Table BrokerConnections.schema → Timestamp → Uuid →
      Except Sql.Violation (Sql.Table BrokerConnections.schema × α)) :
    Except AppError α × BrokerDb :=
  let out := attempt.write db.connections (statement db.connections)
  (out.1, { db with connections := out.2 })

/-- What an operation does to the tables. -/
def exec (db : BrokerDb) : (o : Op) → o.Input → o.Answer × BrokerDb
  | .checkLimit _, verdict => (verdict, db)
  | .fetchActiveForUser userId, attempt =>
    (Attempt.query attempt (Repository.fetchActiveForUser db.connections userId), db)
  | .fetchAnyForUser userId, attempt =>
    (Attempt.query attempt (Repository.fetchAnyForUser db.connections userId), db)
  | .fetchByAuthorizationIdForUser userId authorizationId, attempt =>
    (Attempt.query attempt
      (Repository.fetchByAuthorizationIdForUser db.connections userId authorizationId), db)
  | .insertPending userId snaptradeUserId blob, attempt =>
    db.write attempt fun t => Repository.insertPending t userId snaptradeUserId blob
  | .markCompleted connectionId authorizationId brokerSlug institutionName, attempt =>
    db.write attempt
      (markCompletedStatement connectionId authorizationId brokerSlug institutionName)
  | .softDelete userId connectionId, attempt =>
    db.write attempt fun t now _ => Repository.softDelete t userId connectionId now
  | .recordEvent event, attempt =>
    -- Callers ignore whether the event was written.
    match attempt with
    | .lost => ((), db)
    | .run _ _ _ => ((), db.recordEvent event)
  | .call _, reply => (reply, db)
  | .now, time => (time, db)
  | .newUuid, uuid => (uuid, db)

/-- The service as the handlers see it. -/
def brokerage : Machine BrokerDb Op Op.Answer where
  In := Op.Input
  exec := exec

/-! ### Handlers as programs -/

/-- A handler: it ends with an error or a value. -/
abbrev Handler (α : Type) := ExceptT AppError (Program Op Op.Answer) α

namespace Handler

/-- A result that is there already. -/
def ofExcept {α : Type} (x : Except AppError α) : Handler α := .done x

/-- `ok_or` and `map_err` on an optional result. -/
def ofOption {α : Type} (x : Option α) (e : AppError) : Handler α :=
  .done (match x with
    | some a => .ok a
    | none => .error e)

def fetchActiveForUser (userId : Uuid) : Handler (Option StoredConnection) :=
  .perform (.fetchActiveForUser userId) .done

def fetchAnyForUser (userId : Uuid) : Handler (Option StoredConnection) :=
  .perform (.fetchAnyForUser userId) .done

def fetchByAuthorizationIdForUser (userId : Uuid) (authorizationId : String) :
    Handler (Option StoredConnection) :=
  .perform (.fetchByAuthorizationIdForUser userId authorizationId) .done

def insertPending (userId : Uuid) (snaptradeUserId : String) (blob : List UInt8) :
    Handler Uuid :=
  .perform (.insertPending userId snaptradeUserId blob) .done

def markCompleted (connectionId : Uuid) (authorizationId : String)
    (brokerSlug institutionName : Option String) : Handler Unit :=
  .perform (.markCompleted connectionId authorizationId brokerSlug institutionName) .done

def softDelete (userId connectionId : Uuid) : Handler Nat :=
  .perform (.softDelete userId connectionId) .done

def recordEvent (event : AuditEvent) : Handler Unit :=
  .perform (.recordEvent event) fun _ => .done (.ok ())

/-- A call of the client, and what to do before its error is returned. -/
def callOr (c : Call) (onError : Handler Unit) : Handler c.Reply :=
  .perform (.call c) fun
    | .ok reply => .done (.ok reply)
    | .error e => do
      let _ ← onError.run
      .done (.error e.toAppError)

/-- A call of the client with `?`. -/
def call (c : Call) : Handler c.Reply := callOr c (.done (.ok ()))

def now : Handler Timestamp := .perform .now fun time => .done (.ok time)

def newUuid : Handler Uuid := .perform .newUuid fun uuid => .done (.ok uuid)

end Handler

/-! ### `POST /api/v1/sync/brokerage/login-portal` -/

/-- `LoginPortalResponse`. -/
structure LoginPortalResponse where
  url : String
  expiresAt : Timestamp

/-- `PORTAL_TTL_MINUTES` in seconds. -/
def portalTtl : Int := 5 * 60

/-- `TTL` of the state token in seconds. -/
def stateTtl : Int := 10 * 60

/-- The rate limit of `login_portal`. -/
def requireLoginSlot (userId : Uuid) : Handler Unit :=
  .perform (.checkLimit userId) fun
    | .ok () => .done (.ok ())
    | .error _ =>
      .done (.error ⟨.tooManyRequests, "too many login-portal requests; try again later"⟩)

/-- `state_token::issue`. -/
def issueState (ctx : BrokerContext) (userId : Uuid) : Handler String := do
  let time ← Handler.now
  let nonce ← Handler.newUuid
  let claims : StateClaims := ⟨userId, nonce, "mizan-snaptrade-state", time + stateTtl, time⟩
  Handler.ofOption (ctx.encodeState claims) (.internal "could not issue state token")

/-- The registration of `login_portal`: a fresh pair, and its pending row. -/
def registerUser (ctx : BrokerContext) (userId : Uuid) : Handler (String × String) := do
  let resp ← Handler.call (.registerUser userId.toString)
  Handler.recordEvent ⟨some userId, "broker.connect.initiated",
    .obj [("snaptrade_user_id", .str resp.userId)]⟩
  let blob ← Handler.ofOption (ctx.encrypt resp.userSecret) (.internal "broker integration error")
  let _ ← Handler.insertPending userId resp.userId blob
  return (resp.userId, resp.userSecret)

/-- The `(userId, userSecret)` pair of `login_portal`: the stored one, or one
that is registered now. -/
def snaptradeUser (ctx : BrokerContext) (userId : Uuid) : Option StoredConnection →
    Handler (String × String)
  | some row => do
    let secret ← Handler.ofExcept (decryptSecret ctx.toSnaptradeContext
      row.snaptradeUserSecretEncrypted)
    return (row.snaptradeUserId, secret)
  | none => registerUser ctx userId

/-- `login_portal`. -/
def loginPortal (ctx : BrokerContext) (userId : Uuid) : Handler LoginPortalResponse := do
  requireLoginSlot userId
  let stored ← Handler.fetchAnyForUser userId
  let user ← snaptradeUser ctx userId stored
  let stateJwt ← issueState ctx userId
  let redirect ← Handler.ofOption (ctx.redirectWithState stateJwt)
    (.internal "broker integration misconfigured")
  let login ← Handler.call (.loginUser user.1 user.2 redirect)
  let time ← Handler.now
  return ⟨login.redirectUri, time + portalTtl⟩

/-! ### `GET /api/v1/sync/snaptrade/callback` -/

/-- `record_failure_locked`. The source spawns a detached task for the INSERT and
goes on without it. The model writes in line, so the event comes before the
answer, and a task that is lost is a failing INSERT. -/
def recordFailureEvent (userId : Option Uuid) (errorCode : String) : Handler Unit :=
  Handler.recordEvent
    ⟨userId, "broker.connect.failed", .obj [("error_code", .str errorCode)]⟩

/-- A failure of the callback: its event, then the error. -/
def failWith {α : Type} (userId : Option Uuid) (errorCode : String) (e : AppError) :
    Handler α := do
  recordFailureEvent userId errorCode
  Handler.ofExcept (.error e)

/-- The claims of the `state` parameter. -/
def requireState (ctx : BrokerContext) (q : CallbackQuery) : Handler StateClaims :=
  match q.state with
  | none => failWith none "missing_state" (.badRequest "missing state token")
  | some token =>
    match verifyState ctx.toSnaptradeContext token with
    | .error e => failWith none "bad_state" e
    | .ok claims => Handler.ofExcept (.ok claims)

/-- The row of the user, and the check of the `userId` parameter. -/
def requireRow (q : CallbackQuery) (userId : Uuid) : Option StoredConnection →
    Handler StoredConnection
  | none =>
    failWith (some userId) "no_pending_connection"
      (.badRequest "no pending connection for this user")
  | some row =>
    if q.userId.any fun returned => returned ≠ row.snaptradeUserId then
      failWith (some userId) "user_id_mismatch" (.badRequest "snaptrade userId mismatch")
    else Handler.ofExcept (.ok row)

/-- The end of the callback: the chosen authorization is persisted, or the row
is left as it is. -/
def finishCallback (userId : Uuid) (row : StoredConnection) :
    Option StAuthorization → Handler CallbackPage
  | some auth => do
    let brokerSlug := auth.brokerage.map (·.slug)
    let institutionName := auth.brokerage.map fun b => b.displayName.getD b.name
    Handler.markCompleted row.id auth.id brokerSlug institutionName
    Handler.recordEvent ⟨some userId, "broker.connect.completed",
      .obj [("authorization_id", .str auth.id),
        ("broker_slug", (brokerSlug.map Json.str).getD .null)]⟩
    return .success
  | none =>
    if row.snaptradeAuthorizationId.isSome then return .success
    else do
      recordFailureEvent (some userId) "no_new_authorization"
      return .connectionFailed

/-- `snaptrade_callback`. -/
def callback (ctx : BrokerContext) (q : CallbackQuery) : Handler CallbackPage := do
  let claims ← requireState ctx q
  let found ← Handler.fetchAnyForUser claims.sub
  let row ← requireRow q claims.sub found
  let secret ← Handler.ofExcept (decryptSecret ctx.toSnaptradeContext
    row.snaptradeUserSecretEncrypted)
  let authorizations : List StAuthorization ←
    Handler.callOr (.listAuthorizations row.snaptradeUserId secret)
      (recordFailureEvent (some claims.sub) "list_authorizations_failed")
  finishCallback claims.sub row
    (pickNewestAuthorization ctx.toSnaptradeContext authorizations row.snaptradeAuthorizationId)

/-! ### `GET /api/v1/sync/brokerage/connections` and `/accounts` -/

/-- `BrokerageDto`. -/
structure BrokerageDto where
  id : String
  slug : String
  name : String
  displayName : Option String
  awsS3LogoUrl : Option String
  awsS3SquareLogoUrl : Option String

/-- `BrokerConnectionDto`. -/
structure BrokerConnectionDto where
  id : String
  name : Option String
  authType : Option String
  disabled : Bool
  status : String
  brokerage : Option BrokerageDto
  createdDate : Option String
  updatedDate : Option String

/-- `BrokerAccountDto`. -/
structure BrokerAccountDto where
  id : String
  brokerageAuthorization : Option String
  name : Option String
  number : Option String
  institutionName : Option String
  status : Option String
  rawType : Option String
  balance : Option Json
  syncStatus : Option Json
  isPaper : Bool

/-- `map_authorization`. -/
def mapAuthorization (a : StAuthorization) : BrokerConnectionDto where
  id := a.id
  name := a.name
  authType := a.authType
  disabled := a.disabled
  status := if a.disabled then "disconnected" else "connected"
  brokerage := a.brokerage.map fun b =>
    ⟨b.id, b.slug, b.name, b.displayName, b.awsS3LogoUrl, b.awsS3SquareLogoUrl⟩
  createdDate := a.createdDate
  updatedDate := a.updatedDate

/-- `map_account`. -/
def mapAccount (a : StAccount) : BrokerAccountDto where
  id := a.id
  brokerageAuthorization := a.brokerageAuthorization
  name := a.name
  number := a.number
  institutionName := a.institutionName
  status := a.status
  rawType := a.rawType
  balance := a.balance
  syncStatus := a.syncStatus
  isPaper := a.isPaper.getD false

/-- What every read of an active connection starts with: its row, its secret,
and the call that it is for. -/
def withSecret {α : Type} (ctx : BrokerContext) (row : StoredConnection)
    (f : String → Handler α) : Handler α := do
  let secret ← Handler.ofExcept (decryptSecret ctx.toSnaptradeContext
    row.snaptradeUserSecretEncrypted)
  f secret

/-- `list_connections`. -/
def listConnections (ctx : BrokerContext) (userId : Uuid) :
    Handler (List BrokerConnectionDto) := do
  let found ← Handler.fetchActiveForUser userId
  match found with
  | none => return []
  | some row => withSecret ctx row fun secret => do
    let auths : List StAuthorization ←
      Handler.call (.listAuthorizations row.snaptradeUserId secret)
    return auths.map mapAuthorization

/-- `list_accounts`. -/
def listAccounts (ctx : BrokerContext) (userId : Uuid) : Handler (List BrokerAccountDto) := do
  let found ← Handler.fetchActiveForUser userId
  match found with
  | none => return []
  | some row => withSecret ctx row fun secret => do
    let accts : List StAccount ← Handler.call (.listAccounts row.snaptradeUserId secret)
    return accts.map mapAccount

/-! ### `GET /api/v1/sync/brokerage/accounts/:id/holdings` and `/activities` -/

/-- The active connection, without which there is nothing to read. -/
def requireActive (userId : Uuid) : Handler StoredConnection := do
  let found ← Handler.fetchActiveForUser userId
  Handler.ofOption found (.notFound "no active broker connection")

/-- `account_holdings`. -/
def accountHoldings (ctx : BrokerContext) (userId : Uuid) (accountId : String) :
    Handler Json := do
  let row ← requireActive userId
  withSecret ctx row fun secret =>
    Handler.call (.accountHoldings row.snaptradeUserId secret accountId)

/-- `ActivitiesQuery`. -/
structure ActivitiesQuery where
  cursor : Option String
  limit : Option UInt32
  startDate : Option String
  endDate : Option String
deriving DecidableEq, Repr

/-- `str::parse::<u32>`: an optional plus sign, then at least one decimal
digit, in range. -/
def parseU32 (s : String) : Option Nat :=
  let digits := match s.toList with
    | '+' :: rest => rest
    | rest => rest
  if digits.isEmpty ∨ ¬ digits.all Char.isDigit then none
  else
    let n := digits.foldl (fun acc c => acc * 10 + (c.toNat - '0'.toNat)) 0
    if n ≤ 4294967295 then some n else none

/-- The `params` of `account_activities`: the limit is clamped to
`1..=ACTIVITIES_MAX_LIMIT`, and the cursor is an offset. -/
def ActivitiesQuery.params (q : ActivitiesQuery) : List (String × String) :=
  let limit := min 100 (max 1 ((q.limit.map UInt32.toNat).getD 25))
  let offset := (q.cursor.bind parseU32).getD 0
  [("limit", toString limit), ("offset", toString offset)]
    ++ (q.startDate.map fun s => ("startDate", s)).toList
    ++ (q.endDate.map fun s => ("endDate", s)).toList

/-- `account_activities`. -/
def accountActivities (ctx : BrokerContext) (userId : Uuid) (accountId : String)
    (q : ActivitiesQuery) : Handler Json := do
  let row ← requireActive userId
  withSecret ctx row fun secret =>
    Handler.call (.accountActivities row.snaptradeUserId secret accountId q.params)

/-! ### `POST` and `DELETE /api/v1/sync/brokerage/connections/:id` -/

/-- The row of an authorization id of the user. -/
def requireConnection (userId : Uuid) (authorizationId : String) :
    Handler StoredConnection := do
  let found ← Handler.fetchByAuthorizationIdForUser userId authorizationId
  Handler.ofOption found (.notFound "connection not found")

/-- `refresh_connection`. The answer is `{ ok: true }`. -/
def refreshConnection (ctx : BrokerContext) (userId : Uuid) (authorizationId : String) :
    Handler Unit := do
  let row ← requireConnection userId authorizationId
  let authId ← Handler.ofOption row.snaptradeAuthorizationId
    (.badRequest "connection is not yet linked")
  withSecret ctx row fun secret => do
    let _ ← Handler.call (.refreshAuthorization row.snaptradeUserId secret authId)
    Handler.recordEvent ⟨some userId, "broker.refresh",
      .obj [("authorization_id", .str authId)]⟩

/-- `SnaptradeClient::remove_authorization`: a 404 counts as removed. -/
def removeAuthorization (userId secret authorizationId : String) : Handler Unit :=
  .perform (.call (.removeAuthorization userId secret authorizationId)) fun
    | .ok _ => .done (.ok ())
    | .error e => if e = .status 404 then .done (.ok ()) else .done (.error e.toAppError)

/-- The upstream half of `delete_connection`. A disabled row has none. -/
def removeUpstream (ctx : BrokerContext) (row : StoredConnection) : Handler Unit :=
  if row.disabled then return ()
  else
    match row.snaptradeAuthorizationId with
    | none => return ()
    | some authId => withSecret ctx row fun secret =>
      removeAuthorization row.snaptradeUserId secret authId

/-- `delete_connection`. The answer is `{ ok: true }`. -/
def deleteConnection (ctx : BrokerContext) (userId : Uuid) (authorizationId : String) :
    Handler Unit := do
  let row ← requireConnection userId authorizationId
  removeUpstream ctx row
  let _ ← Handler.softDelete userId row.id
  Handler.recordEvent ⟨some userId, "broker.disconnect",
    .obj [("authorization_id", (row.snaptradeAuthorizationId.map Json.str).getD .null)]⟩

/-! ### Requests -/

/-- A request to one of the endpoints. All but the callback come from an
authenticated user. -/
inductive Request where
  | loginPortal (userId : Uuid)
  | callback (q : CallbackQuery)
  | listConnections (userId : Uuid)
  | listAccounts (userId : Uuid)
  | accountHoldings (userId : Uuid) (accountId : String)
  | accountActivities (userId : Uuid) (accountId : String) (q : ActivitiesQuery)
  | refreshConnection (userId : Uuid) (authorizationId : String)
  | deleteConnection (userId : Uuid) (authorizationId : String)
deriving DecidableEq, Repr

/-- The body of a `200` answer. -/
inductive Response where
  | portal (response : LoginPortalResponse)
  | page (page : CallbackPage)
  | connections (dtos : List BrokerConnectionDto)
  | accounts (dtos : List BrokerAccountDto)
  | payload (v : Json)
  | refreshed

/-- The handler of a request. -/
def handle (ctx : BrokerContext) : Request → Handler Response
  | .loginPortal userId => Response.portal <$> loginPortal ctx userId
  | .callback q => Response.page <$> callback ctx q
  | .listConnections userId => Response.connections <$> listConnections ctx userId
  | .listAccounts userId => Response.accounts <$> listAccounts ctx userId
  | .accountHoldings userId accountId => Response.payload <$> accountHoldings ctx userId accountId
  | .accountActivities userId accountId q =>
    Response.payload <$> accountActivities ctx userId accountId q
  | .refreshConnection userId authorizationId =>
    (fun _ => Response.refreshed) <$> refreshConnection ctx userId authorizationId
  | .deleteConnection userId authorizationId =>
    (fun _ => Response.refreshed) <$> deleteConnection ctx userId authorizationId

end MizanConnect.Snaptrade
