import MizanConnect.Lib.Program
import MizanConnect.Statement
import MizanConnect.Teams.Invites

/-!
# `MizanConnect.Teams.Handlers`: creating and accepting, statement by statement

`create_invite` and `accept_invite` of `src/teams/invites.rs` as programs. Between
two of their operations other requests may move, and each statement may fail on
its own. The transaction of `accept_invite` is one operation: it writes one
membership and one invite, in this order, and the row locks that it takes keep
two of them from mixing. `Teams.Invites` has the handlers in one piece.
-/

set_option autoImplicit false

namespace MizanConnect.Teams

open Concurrent (Action Machine Program Sys result)
open MizanConnect.Users (User)

/-! ### Operations -/

/-- An operation of the two handlers. `insertInvite` carries what the INSERT
binds. -/
inductive Op where
  | roleFor (teamId userId : Uuid)
  | openInvite (token : String)
  | insertInvite (token : String) (teamId invitedBy : Uuid) (email role : String)
      (expiresAt : Timestamp)
  | acceptTx (user : User) (invite : TeamInvite)
  | now
  | generateToken
  | sendEmail (email redeemUrl : String)

/-- What an operation is answered with. -/
def Op.Answer : Op → Type
  | .roleFor _ _ => Except AppError (Option TeamRole)
  | .openInvite _ => Except AppError (Option (TeamInvite × Team))
  | .insertInvite _ _ _ _ _ _ => Except AppError Unit
  | .acceptTx _ _ => Except AppError Unit
  | .now => Timestamp
  | .generateToken => String
  | .sendEmail _ _ => Bool

/-- What the environment decides about an operation. -/
def Op.Input : Op → Type
  | .now => Timestamp
  | .generateToken => String
  | .sendEmail _ _ => Bool
  | _ => Attempt

/-- The INSERT of `create_invite`. -/
def insertInvite (db : TeamsDb) (token : String) (teamId invitedBy : Uuid) (email role : String)
    (expiresAt now : Timestamp) : Except Sql.Violation TeamsDb :=
  (db.invites.insert ⟨token, teamId, invitedBy, email, role, none, none, now, expiresAt⟩).map
    fun invites => { db with invites }

/-- What an operation does to the tables. -/
def exec (db : TeamsDb) : (o : Op) → o.Input → o.Answer × TeamsDb
  | .roleFor teamId userId, attempt =>
    (Attempt.query attempt (roleFor db.members teamId userId), db)
  | .openInvite token, attempt => (Attempt.query attempt (openInvite db token), db)
  | .insertInvite token teamId invitedBy email role expiresAt, attempt =>
    Attempt.write attempt db fun now _ =>
      (insertInvite db token teamId invitedBy email role expiresAt now).map fun db' => (db', ())
  | .acceptTx user invite, attempt =>
    Attempt.write attempt db fun now _ => (acceptTx now user invite db).map fun db' => (db', ())
  | .now, time => (time, db)
  | .generateToken, token => (token, db)
  | .sendEmail _ _, delivered => (delivered, db)

/-- The service as the two handlers see it. -/
def inviteService : Machine TeamsDb Op Op.Answer where
  In := Op.Input
  exec := exec

/-! ### Handlers as programs -/

/-- A handler: it ends with an error or a value. -/
abbrev Handler (α : Type) := ExceptT AppError (Program Op Op.Answer) α

namespace Handler

/-- A result that is there already. -/
def ofExcept {α : Type} (x : Except AppError α) : Handler α := .done x

def roleFor (teamId userId : Uuid) : Handler (Option TeamRole) :=
  .perform (.roleFor teamId userId) .done

def openInvite (token : String) : Handler (Option (TeamInvite × Team)) :=
  .perform (.openInvite token) .done

def insertInvite (token : String) (teamId invitedBy : Uuid) (email role : String)
    (expiresAt : Timestamp) : Handler Unit :=
  .perform (.insertInvite token teamId invitedBy email role expiresAt) .done

def acceptTx (user : User) (invite : TeamInvite) : Handler Unit :=
  .perform (.acceptTx user invite) .done

def now : Handler Timestamp := .perform .now fun time => .done (.ok time)

def generateToken : Handler String := .perform .generateToken fun token => .done (.ok token)

def sendEmail (email redeemUrl : String) : Handler Bool :=
  .perform (.sendEmail email redeemUrl) fun delivered => .done (.ok delivered)

/-- The checks of `create_invite`: the body, the role of the caller, the role
of the invite. -/
def checkCreate (ctx : InviteContext) (user : User) (teamId : Uuid) (req : CreateInviteRequest) :
    Handler Unit := do
  ofExcept ((ctx.validEmail req.email).mapError fun text =>
    AppError.unprocessable ("validation failed: " ++ text))
  let role ← Handler.roleFor teamId user.id
  ofExcept (requireOwner role)
  if req.role ≠ "advisor" ∧ req.role ≠ "viewer" then
    ofExcept (.error (.badRequest "role must be 'advisor' or 'viewer'."))
  else ofExcept (.ok ())

/-- `create_invite`. -/
def createInvite (ctx : InviteContext) (user : User) (teamId : Uuid) (req : CreateInviteRequest) :
    Handler InviteResponse := do
  checkCreate ctx user teamId req
  let token ← generateToken
  let time ← now
  let email := ctx.toLowercase (trim req.email)
  let expiresAt := time + inviteTtl
  insertInvite token teamId user.id email req.role expiresAt
  let redeemUrl := ctx.appPublicUrl.getD "https://app.mizan.app" ++ "/auth/callback?invite="
    ++ token
  let emailed ← sendEmail email redeemUrl
  return { token := token, teamId := teamId, email := email, role := req.role
           expiresAt := (ctx.formatRfc3339 expiresAt).getD ""
           redeemUrl := redeemUrl, emailed := emailed }

/-- The transaction of `accept_invite` and its answer. -/
def redeem (user : User) (invite : TeamInvite) (team : Team) : Handler AcceptInviteResponse := do
  acceptTx user invite
  return ⟨invite.teamId, team.name, invite.role⟩

/-- `accept_invite` from the invite on. -/
def acceptFound (ctx : InviteContext) (user : User) (invite : TeamInvite) (team : Team) :
    Handler AcceptInviteResponse := do
  let time ← now
  if invite.expiresAt ≤ time then ofExcept (.error (.notFound "Invite expired."))
  else if ctx.toLowercase user.email ≠ invite.email then
    ofExcept (.error (.forbidden "This invite was issued to a different email address."))
  else redeem user invite team

/-- `accept_invite`. -/
def acceptInvite (ctx : InviteContext) (user : User) (token : String) :
    Handler AcceptInviteResponse := do
  let found ← openInvite token
  match found with
  | none => ofExcept (.error (.notFound "Invite not found or already redeemed."))
  | some (invite, team) => acceptFound ctx user invite team

end Handler

/-! ### Requests -/

/-- A request to one of the two endpoints, by the user that the extractor
found. -/
inductive Request where
  | create (user : User) (teamId : Uuid) (req : CreateInviteRequest)
  | accept (user : User) (token : String)

/-- The body of a `200` answer. -/
inductive Response where
  | created (response : InviteResponse)
  | accepted (response : AcceptInviteResponse)

/-- The handler of a request. -/
def handle (ctx : InviteContext) : Request → Handler Response
  | .create user teamId req => Response.created <$> Handler.createInvite ctx user teamId req
  | .accept user token => Response.accepted <$> Handler.acceptInvite ctx user token

/-! ### Requests in progress -/

/-- The service with the requests in progress. -/
abbrev InviteSys := Sys TeamsDb Request Op Op.Answer (Except AppError Response)

/-- A request comes in, or one performs its next operation. -/
abbrev inviteNext (ctx : InviteContext) :
    InviteSys → Action inviteService Request → Option InviteSys :=
  Concurrent.next inviteService fun r => (handle ctx r).run

/-! ### One request at a time -/

/-- Each operation with its input, the same one throughout. -/
def fixedInputs (input : (o : Op) → o.Input) : Unit → (o : Op) → inviteService.In o × Unit :=
  fun _ o => (input o, ())

/-- A request that is served while no other one is. -/
structure Turn where
  request : Request
  input : (o : Op) → o.Input

/-- `OffsetDateTime::now_utc()` in a turn. -/
def Turn.clock (turn : Turn) : Timestamp := turn.input .now

/-- The token that `generate_token` draws in a turn. -/
def Turn.token (turn : Turn) : String := turn.input .generateToken

/-- The answer to a turn and the tables after it. -/
def Turn.serve (ctx : InviteContext) (turn : Turn) (db : TeamsDb) :
    Except AppError Response × TeamsDb :=
  let out := result inviteService (fixedInputs turn.input) (handle ctx turn.request).run () db
  (out.1, out.2.2)

/-- A turn as a step of the service. -/
def Turn.next (ctx : InviteContext) (db : TeamsDb) (turn : Turn) : Option TeamsDb :=
  some (turn.serve ctx db).2

/-- The inputs of a turn at one instant in which no statement fails. -/
def calmInput (ctx : InviteContext) (now : Timestamp) (token : String) : (o : Op) → o.Input
  | .roleFor _ _ => .run now ⟨0⟩ true
  | .openInvite _ => .run now ⟨0⟩ true
  | .insertInvite _ _ _ _ _ _ => .run now ⟨0⟩ true
  | .acceptTx _ _ => .run now ⟨0⟩ true
  | .now => now
  | .generateToken => token
  | .sendEmail email redeemUrl => ctx.sendEmail email redeemUrl

end MizanConnect.Teams
