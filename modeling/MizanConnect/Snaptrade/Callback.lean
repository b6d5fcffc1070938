import MizanConnect.Snaptrade.Repository

/-!
# `MizanConnect.Snaptrade.Callback`: the SnapTrade redirect target

`snaptrade_callback` of `src/snaptrade/handlers.rs`, with the pieces of
`state_token.rs` and `types.rs` that it uses. JWT decoding, the AES-GCM
opening and the RFC 3339 parser are parameters (`SnaptradeContext`), and so
is the answer of `GET /authorizations`. The two HTML pages are named, not
spelled out.
-/

set_option autoImplicit false

namespace MizanConnect.Snaptrade

open Sql (Table)
open Repository
open BrokerConnections (schema)

/-! ### Data -/

/-- `StBrokerage`, without the field that nothing reads. -/
structure StBrokerage where
  id : String
  slug : String
  name : String
  displayName : Option String
  awsS3LogoUrl : Option String
  awsS3SquareLogoUrl : Option String

/-- `StAuthorization`. -/
structure StAuthorization where
  id : String
  name : Option String
  authType : Option String
  disabled : Bool
  createdDate : Option String
  updatedDate : Option String
  brokerage : Option StBrokerage

/-- `StateClaims`. -/
structure StateClaims where
  sub : Uuid
  nonce : Uuid
  iss : String
  exp : Int
  iat : Int

/-- What the handlers use from outside. `decodeState` is `jsonwebtoken`
under the validation of `state_token::verify`. -/
structure SnaptradeContext where
  decodeState : String → Option StateClaims
  decrypt : List UInt8 → Option String
  parseRfc3339 : String → Option Timestamp

/-- `CallbackQuery`. -/
structure CallbackQuery where
  state : Option String
  userId : Option String
deriving DecidableEq, Repr

/-- The HTML page of a `200` answer. -/
inductive CallbackPage where
  | success
  | connectionFailed
deriving DecidableEq, Repr

/-- `SnaptradeClient::list_authorizations`: the answer for a SnapTrade user
id and its secret. -/
abbrev ListAuthorizations := String → String → Except AppError (List StAuthorization)

/-! ### Helpers -/

/-- `state_token::verify`. -/
def verifyState (ctx : SnaptradeContext) (token : String) : Except AppError StateClaims :=
  match ctx.decodeState token with
  | some claims => .ok claims
  | none => .error (.badRequest "invalid state token")

/-- `impl From<EncryptionError> for AppError`. -/
def decryptSecret (ctx : SnaptradeContext) (blob : List UInt8) : Except AppError String :=
  match ctx.decrypt blob with
  | some secret => .ok secret
  | none => .error (.internal "broker integration error")

/-- `record_failure_locked`. -/
def recordFailure (db : BrokerDb) (userId : Option Uuid) (errorCode : String) : BrokerDb :=
  db.recordEvent ⟨userId, "broker.connect.failed", .obj [("error_code", .str errorCode)]⟩

/-- `Option<OffsetDateTime>` is ordered with `None` first. -/
def dateLt : Option Timestamp → Option Timestamp → Bool
  | none, some _ => true
  | some a, some b => decide (a < b)
  | _, none => false

/-- The key `(ts, idx)` of `new` is not below that of `old`. -/
def rankedAtLeast (ctx : SnaptradeContext) (new old : StAuthorization × Nat) : Bool :=
  let tsOf (a : StAuthorization) := a.createdDate.bind ctx.parseRfc3339
  dateLt (tsOf old.1) (tsOf new.1) || (tsOf old.1 = tsOf new.1 && decide (old.2 ≤ new.2))

/-- `existing_id.map(|e| a.id != e).unwrap_or(true)`. -/
def isCandidate (existingId : Option String) (a : StAuthorization) : Bool :=
  match existingId with
  | some e => decide (a.id ≠ e)
  | none => true

/-- `pick_newest_authorization`. -/
def pickNewestAuthorization (ctx : SnaptradeContext) (authorizations : List StAuthorization)
    (existingId : Option String) : Option StAuthorization :=
  (Best.best (rankedAtLeast ctx)
    (authorizations.zipIdx.filter fun a => isCandidate existingId a.1)).map (·.1)

/-! ### The handler -/

/-- `snaptrade_callback` from the chosen authorization on: persist it, then
write the audit event. -/
def completeConnection (now : Timestamp) (userId rowId : Uuid) (auth : StAuthorization)
    (db : BrokerDb) : Except AppError CallbackPage × BrokerDb :=
  let brokerSlug := auth.brokerage.map (·.slug)
  let institutionName := auth.brokerage.map fun b => b.displayName.getD b.name
  match markCompleted db.connections now rowId auth.id brokerSlug institutionName with
  | .error v => (.error (AppError.ofDb (.violation v)), db)
  | .ok connections =>
    (.ok .success,
      { db with connections }.recordEvent
        ⟨some userId, "broker.connect.completed",
          .obj [("authorization_id", .str auth.id),
            ("broker_slug", (brokerSlug.map Json.str).getD .null)]⟩)

/-- `snaptrade_callback`. -/
def snaptradeCallback (ctx : SnaptradeContext) (upstream : ListAuthorizations)
    (now : Timestamp) (q : CallbackQuery) (db : BrokerDb) :
    Except AppError CallbackPage × BrokerDb :=
  match q.state with
  | none => (.error (.badRequest "missing state token"), recordFailure db none "missing_state")
  | some token =>
    match verifyState ctx token with
    | .error e => (.error e, recordFailure db none "bad_state")
    | .ok claims =>
      match fetchAnyForUser db.connections claims.sub with
      | none =>
        (.error (.badRequest "no pending connection for this user"),
          recordFailure db (some claims.sub) "no_pending_connection")
      | some row =>
        if q.userId.any fun returned => returned ≠ row.snaptradeUserId then
          (.error (.badRequest "snaptrade userId mismatch"),
            recordFailure db (some claims.sub) "user_id_mismatch")
        else
          match decryptSecret ctx row.snaptradeUserSecretEncrypted with
          -- A failed decryption leaves no audit event.
          | .error e => (.error e, db)
          | .ok secret =>
            match upstream row.snaptradeUserId secret with
            | .error e =>
              (.error e, recordFailure db (some claims.sub) "list_authorizations_failed")
            | .ok authorizations =>
              match pickNewestAuthorization ctx authorizations row.snaptradeAuthorizationId with
              | some auth => completeConnection now claims.sub row.id auth db
              | none =>
                -- A second callback of a connection that is complete.
                if row.snaptradeAuthorizationId.isSome then (.ok .success, db)
                else
                  (.ok .connectionFailed,
                    recordFailure db (some claims.sub) "no_new_authorization")

end MizanConnect.Snaptrade
