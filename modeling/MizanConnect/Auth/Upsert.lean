import MizanConnect.Auth.SupabaseJwt
import MizanConnect.Users.Repository

/-!
# `MizanConnect.Auth.Upsert`: the local row of a token

`src/auth/upsert.rs` and the extractor of `src/auth/extractor.rs`. The
extractor runs before every authenticated handler. `Uuid::parse_str` is a
parameter, and so is the identifier that an INSERT draws.
-/

set_option autoImplicit false

namespace MizanConnect.Auth

open Sql (Table)
open MizanConnect.Users (User users)

/-- The row `upsert_user_from_claims` proposes. -/
def proposedUser (now : Timestamp) (newId supabaseUserId : Uuid) (email : String)
    (claims : SupabaseClaims) : User where
  id := newId
  supabaseUserId := supabaseUserId
  email := email
  displayName := claims.displayName
  avatarUrl := claims.avatarUrl
  createdAt := now
  updatedAt := now
  deletedAt := none

/-- `DO UPDATE SET` of `upsert_user_from_claims`. -/
def mergeUser (now : Timestamp) (email : String) (claims : SupabaseClaims) (u : User) : User :=
  { u with
    email := email
    displayName := claims.displayName.or u.displayName
    avatarUrl := claims.avatarUrl.or u.avatarUrl
    updatedAt := now
    deletedAt := none }

/-- `upsert_user_from_claims`. `reachable` is whether the statement gets a
connection. -/
def upsertUserFromClaims (parseUuid : String → Option Uuid) (reachable : Bool)
    (t : Table users) (now : Timestamp) (newId : Uuid) (claims : SupabaseClaims) :
    Except AppError (Table users × User) :=
  match parseUuid claims.sub with
  | none => .error (.unauthorized "token sub is not a valid UUID")
  | some supabaseUserId => do
    let email ← claims.emailRequired
    if reachable then
      (fetchOne t (t.upserted (proposedUser now newId supabaseUserId email claims)
        (fun u => u.supabaseUserId = supabaseUserId) (mergeUser now email claims))).mapError
        AppError.ofDb
    else .error (AppError.ofDb .connection)

end MizanConnect.Auth
