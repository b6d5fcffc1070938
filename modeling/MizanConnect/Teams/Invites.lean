import MizanConnect.Teams.Repository

/-!
# `MizanConnect.Teams.Invites`: create, look up and accept an invite

`src/teams/invites.rs`. The e-mail syntax check, `str::to_lowercase`, the
RFC 3339 formatter, the two variables of the environment and the Resend call
are parameters (`InviteContext`). A call carries the clock and the token
that `generate_token` draws.
-/

set_option autoImplicit false

namespace MizanConnect.Teams

open Sql (Table)
open MizanConnect.Users (User)

/-- `INVITE_TTL_DAYS` in seconds. -/
def inviteTtl : Int := 7 * 86400

/-- What the handlers use from outside. `validEmail` is `#[validate(email)]`,
with the text of its error when it fails. -/
structure InviteContext where
  validEmail : String → Except String Unit
  toLowercase : String → String
  formatRfc3339 : Timestamp → Option String
  appPublicUrl : Option String
  sendEmail : String → String → Bool

/-- `CreateInviteRequest`. -/
structure CreateInviteRequest where
  email : String
  role : String

/-- `InviteResponse`. -/
structure InviteResponse where
  token : String
  teamId : Uuid
  email : String
  role : String
  expiresAt : String
  redeemUrl : String
  emailed : Bool

/-- `InviteInfoResponse`. -/
structure InviteInfoResponse where
  teamId : Uuid
  teamName : String
  role : String
  email : String
  expiresAt : String

/-- `AcceptInviteResponse`. -/
structure AcceptInviteResponse where
  teamId : Uuid
  teamName : String
  role : String

/-- The owner check of `create_invite`. -/
def requireOwner (role : Option TeamRole) : Except AppError Unit :=
  match role with
  | some r =>
    if r.isOwner then .ok () else .error (.forbidden "Only the team owner can issue invites.")
  | none => .error (.forbidden "You are not a member of this team.")

/-- The row that `create_invite` inserts. -/
def newInvite (ctx : InviteContext) (now : Timestamp) (token : String) (user : User)
    (teamId : Uuid) (req : CreateInviteRequest) : TeamInvite where
  token := token
  teamId := teamId
  invitedBy := user.id
  email := ctx.toLowercase (trim req.email)
  role := req.role
  redeemedAt := none
  redeemedBy := none
  createdAt := now
  expiresAt := now + inviteTtl

/-- `create_invite`. -/
def createInvite (ctx : InviteContext) (now : Timestamp) (token : String) (user : User)
    (teamId : Uuid) (req : CreateInviteRequest) (db : TeamsDb) :
    Except AppError (InviteResponse × TeamsDb) := do
  (ctx.validEmail req.email).mapError fun text =>
    AppError.unprocessable ("validation failed: " ++ text)
  requireOwner (roleFor db.members teamId user.id)
  if req.role ≠ "advisor" ∧ req.role ≠ "viewer" then
    .error (.badRequest "role must be 'advisor' or 'viewer'.")
  else
    let invite := newInvite ctx now token user teamId req
    let invites ← ofStatement (db.invites.insert invite)
    -- An e-mail that fails does not fail the request.
    let redeemUrl := ctx.appPublicUrl.getD "https://app.mizan.app" ++ "/auth/callback?invite="
      ++ token
    .ok ({ token := token, teamId := teamId, email := invite.email, role := req.role
           expiresAt := (ctx.formatRfc3339 invite.expiresAt).getD ""
           redeemUrl := redeemUrl, emailed := ctx.sendEmail invite.email redeemUrl },
      { db with invites })

/-- `WHERE i.token = $1 AND i.redeemed_at IS NULL`, with the team of the
invite. -/
def openInvite (db : TeamsDb) (token : String) : Option (TeamInvite × Team) := do
  let invite ← db.invites.rows.find? fun i => i.token = token && i.redeemedAt = none
  let team ← db.teams.rows.find? fun t => t.id = invite.teamId
  return (invite, team)

/-- `get_invite`. -/
def getInvite (ctx : InviteContext) (now : Timestamp) (token : String) (db : TeamsDb) :
    Except AppError InviteInfoResponse :=
  match openInvite db token with
  | none => .error (.notFound "Invite not found or already redeemed.")
  | some (invite, team) =>
    if invite.expiresAt ≤ now then .error (.notFound "Invite expired.")
    else
      .ok ⟨invite.teamId, team.name, invite.role, invite.email,
        (ctx.formatRfc3339 invite.expiresAt).getD ""⟩

/-- The transaction of `accept_invite`: the membership upsert, then the
redemption. -/
def acceptTx (now : Timestamp) (user : User) (invite : TeamInvite) (db : TeamsDb) :
    Except Sql.Violation TeamsDb := do
  let members ← db.members.upsert ⟨invite.teamId, user.id, invite.role, now⟩
    (fun m => m.teamId = invite.teamId && m.userId = user.id)
    (fun m => { m with role := invite.role })
  -- The UPDATE is by token alone, and takes a redeemed invite too.
  let invites ← db.invites.updateWhere (fun i => i.token = invite.token)
    (fun i => { i with redeemedAt := some now, redeemedBy := some user.id })
  return { db with members, invites }

/-- `accept_invite`. -/
def acceptInvite (ctx : InviteContext) (now : Timestamp) (token : String) (user : User)
    (db : TeamsDb) : Except AppError (AcceptInviteResponse × TeamsDb) :=
  match openInvite db token with
  | none => .error (.notFound "Invite not found or already redeemed.")
  | some (invite, team) =>
    if invite.expiresAt ≤ now then .error (.notFound "Invite expired.")
    else if ctx.toLowercase user.email ≠ invite.email then
      .error (.forbidden "This invite was issued to a different email address.")
    else do
      let db' ← ofStatement (acceptTx now user invite db)
      .ok (⟨invite.teamId, team.name, invite.role⟩, db')

/-! ### Calls -/

/-- A call of one of the three endpoints. -/
inductive Call where
  | create (now : Timestamp) (token : String) (user : User) (teamId : Uuid)
      (req : CreateInviteRequest)
  | get (now : Timestamp) (token : String)
  | accept (now : Timestamp) (token : String) (user : User)

/-- The tables after a call. A failed call leaves them as they are. -/
def Call.apply (ctx : InviteContext) (db : TeamsDb) : Call → TeamsDb
  | .create now token user teamId req =>
    match createInvite ctx now token user teamId req db with
    | .ok (_, db') => db'
    | .error _ => db
  | .get _ _ => db
  | .accept now token user =>
    match acceptInvite ctx now token user db with
    | .ok (_, db') => db'
    | .error _ => db

/-- A call as a step of the service. -/
def next (ctx : InviteContext) (db : TeamsDb) (call : Call) : Option TeamsDb :=
  some (call.apply ctx db)

end MizanConnect.Teams
