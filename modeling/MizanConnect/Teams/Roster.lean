import Mathlib.Data.List.Sort
import MizanConnect.Teams.Accounts

/-!
# `MizanConnect.Teams.Roster`: the two listings

`src/teams/handlers.rs` with the queries behind it: `list_for_me` and `list_members`
as programs, statement by statement. They read several times and write only in the
extractor. Everything else that the service does in between is an operation of its
own, `Op.step`, so that a run has the listings and the rest of the service side by
side.

No statement of the service writes the branding columns. They are a function of the
team (`RosterContext.branding`), as is the collation of `ORDER BY LOWER(name)`
(`Collation`). Which of two rows that tie comes first is an input.
-/

set_option autoImplicit false

namespace MizanConnect.Teams

open Concurrent (Action Machine Program Sys)
open MizanConnect.Users (User UsersContext)
open Sql (Table)

/-! ### Data -/

/-- The branding columns of a row of `teams`. -/
structure Branding where
  logoUrl : Option String
  color : Option String
deriving DecidableEq, Repr

/-- How the server compares two names after `LOWER`. -/
structure Collation where
  le : String → String → Bool
  total : ∀ a b, le a b = true ∨ le b a = true
  trans : ∀ a b c, le a b = true → le b c = true → le a c = true

/-- What the handlers use from outside. -/
structure RosterContext (Key : Type) where
  accounts : UsersContext Key
  invites : InviteContext
  branding : Uuid → Branding
  byName : Collation

/-- `TeamSummary`. -/
structure TeamSummary where
  id : Uuid
  name : String
  ownerUserId : Uuid
  brandingLogoUrl : Option String
  brandingColor : Option String
  myRole : Option String
  createdAt : Option String
deriving DecidableEq, Repr

/-- `TeamMemberDto`. -/
structure TeamMemberDto where
  userId : Uuid
  role : String
  joinedAt : Option String
  displayName : Option String
deriving DecidableEq, Repr

/-- `TeamMembersResponse`. -/
structure TeamMembersResponse where
  teamId : Uuid
  members : List TeamMemberDto
deriving DecidableEq, Repr

namespace Roster

variable {Key : Type}

/-- `TeamSummary::from_team`. -/
def fromTeam (ctx : RosterContext Key) (team : Team) (myRole : Option String) : TeamSummary where
  id := team.id
  name := team.name
  ownerUserId := team.ownerUserId
  brandingLogoUrl := (ctx.branding team.id).logoUrl
  brandingColor := (ctx.branding team.id).color
  myRole := myRole
  createdAt := ctx.accounts.formatRfc3339 team.createdAt

/-- A row of the roster, with what `fetch_by_id` has answered. A failed statement
counts as no user. -/
def memberDto (ctx : RosterContext Key) (m : TeamMember) (found : Except AppError (Option User)) :
    TeamMemberDto where
  userId := m.userId
  role := m.role
  joinedAt := ctx.accounts.formatRfc3339 m.joinedAt
  displayName := found.toOption.join.bind fun u => u.displayName.or (some u.email)

/-! ### Queries -/

/-- `ORDER BY`. Rows that tie come in the order of `scan`. -/
def orderBy {ρ : Type} (le : ρ → ρ → Bool) (scan : ρ → Nat) (rows : List ρ) : List ρ :=
  (rows.insertionSort fun a b => scan a ≤ scan b).insertionSort fun a b => le a b = true

/-- The join of `list_for_user`. -/
def teamsOf (db : TeamsDb) (userId : Uuid) : List Team :=
  db.teams.rows.flatMap fun t => (db.members.rows.filter fun m =>
    m.teamId = t.id && m.userId = userId && t.deletedAt = none).map fun _ => t

/-- `list_for_user`. -/
def listForUser (ctx : RosterContext Key) (db : TeamsDb) (scan : Team → Nat) (userId : Uuid) :
    List Team :=
  orderBy (fun a b => ctx.byName.le a.name b.name) scan (teamsOf db userId)

/-- `list_members`. -/
def listMembers (db : TeamsDb) (scan : TeamMember → Nat) (teamId : Uuid) : List TeamMember :=
  orderBy (fun a b => decide (a.joinedAt ≤ b.joinedAt)) scan
    (db.members.rows.filter fun m => m.teamId = teamId)

/-- `fetch_by_id` of `src/users/repository.rs`. -/
def fetchById (t : Table Users.users) (id : Uuid) : Option User :=
  t.rows.find? (Users.Repository.isLive id)

/-! ### Operations -/

/-- An operation of the listings, or a step of the rest of the service. -/
inductive Op where
  | step (a : AccountAction)
  | authenticate (req : Users.Request)
  | listForUser (userId : Uuid)
  | roleFor (teamId userId : Uuid)
  | listMembers (teamId : Uuid)
  | fetchById (userId : Uuid)

/-- What an operation is answered with. -/
def Op.Answer : Op → Type
  | .step _ => Unit
  | .authenticate _ => Except AppError User
  | .listForUser _ => Except AppError (List Team)
  | .roleFor _ _ => Except AppError (Option TeamRole)
  | .listMembers _ => Except AppError (List TeamMember)
  | .fetchById _ => Except AppError (Option User)

/-- What the environment decides about an operation. -/
def Op.Input : Op → Type
  | .step _ => Unit
  | .authenticate _ => Unit
  | .listForUser _ => Attempt × (Team → Nat)
  | .roleFor _ _ => Attempt
  | .listMembers _ => Attempt × (TeamMember → Nat)
  | .fetchById _ => Attempt

/-- What an operation does. -/
def exec (ctx : RosterContext Key) (s : Accounts) : (o : Op) → o.Input → o.Answer × Accounts
  | .step a, _ => ((), (accountsNext ctx.accounts ctx.invites s a).getD s)
  | .authenticate req, _ =>
    match Users.authenticate ctx.accounts req s.users with
    | .error e => (.error e, s)
    | .ok (t, user) => (.ok user, { s with users := t })
  | .listForUser userId, (attempt, scan) =>
    (Attempt.query attempt (Roster.listForUser ctx s.invites.state scan userId), s)
  | .roleFor teamId userId, attempt =>
    (Attempt.query attempt (Teams.roleFor s.invites.state.members teamId userId), s)
  | .listMembers teamId, (attempt, scan) =>
    (Attempt.query attempt (Roster.listMembers s.invites.state scan teamId), s)
  | .fetchById userId, attempt =>
    (Attempt.query attempt (Roster.fetchById s.users userId), s)

/-- The service as the listings see it. -/
def service (ctx : RosterContext Key) : Machine Accounts Op Op.Answer where
  In := Op.Input
  exec := exec ctx

/-! ### Handlers as programs -/

/-- A handler: it ends with an error or a value. -/
abbrev Handler (α : Type) := ExceptT AppError (Program Op Op.Answer) α

namespace Handler

def authenticate (req : Users.Request) : Handler User := .perform (.authenticate req) .done

def listForUser (userId : Uuid) : Handler (List Team) := .perform (.listForUser userId) .done

def roleFor (teamId userId : Uuid) : Handler (Option TeamRole) :=
  .perform (.roleFor teamId userId) .done

def listMembers (teamId : Uuid) : Handler (List TeamMember) :=
  .perform (.listMembers teamId) .done

/-- `fetch_by_id(..).await.ok()`: a failed statement ends nothing. -/
def fetchById (userId : Uuid) : Handler (Except AppError (Option User)) :=
  .perform (.fetchById userId) fun found => .done (.ok found)

/-- The loop of `list_for_me`. -/
def summarize (ctx : RosterContext Key) (userId : Uuid) : List Team → Handler (List TeamSummary)
  | [] => return []
  | team :: teams => do
    let role ← roleFor team.id userId
    let summaries ← summarize ctx userId teams
    return fromTeam ctx team (role.map TeamRole.asStr) :: summaries

/-- `list_for_me` for the user of the extractor. -/
def listForMe (ctx : RosterContext Key) (user : User) : Handler (List TeamSummary) := do
  let teams ← listForUser user.id
  summarize ctx user.id teams

/-- The loop of `list_members`. -/
def describe (ctx : RosterContext Key) : List TeamMember → Handler (List TeamMemberDto)
  | [] => return []
  | m :: members => do
    let found ← fetchById m.userId
    let dtos ← describe ctx members
    return memberDto ctx m found :: dtos

/-- `list_members` from the roster on. -/
def roster (ctx : RosterContext Key) (teamId : Uuid) : Handler TeamMembersResponse := do
  let members ← listMembers teamId
  let dtos ← describe ctx members
  return ⟨teamId, dtos⟩

/-- `list_members` for the user of the extractor. -/
def membersOf (ctx : RosterContext Key) (user : User) (teamId : Uuid) :
    Handler TeamMembersResponse := do
  let myRole ← roleFor teamId user.id
  match myRole with
  | none => .done (.error (.forbidden "You are not a member of this team."))
  | some _ => roster ctx teamId

end Handler

/-! ### Requests -/

/-- A step of the rest of the service, or a request for a listing. The team is
`none` when the `Path` extractor rejects it. -/
inductive Request where
  | other (a : AccountAction)
  | listForMe (req : Users.Request)
  | listMembers (req : Users.Request) (teamId : Option Uuid)

/-- What a request ends with. -/
inductive Response where
  | other
  | teams (summaries : List TeamSummary)
  | members (response : TeamMembersResponse)
  | pathRejected

/-- The program of a request. -/
def handle (ctx : RosterContext Key) : Request → Handler Response
  | .other a => .perform (.step a) fun _ => .done (.ok .other)
  | .listForMe req => do
    let user ← Handler.authenticate req
    Response.teams <$> Handler.listForMe ctx user
  | .listMembers req path => do
    let user ← Handler.authenticate req
    match path with
    | none => return .pathRejected
    | some teamId => Response.members <$> Handler.membersOf ctx user teamId

/-- The service with the requests in progress. -/
abbrev RosterSys := Sys Accounts Request Op Op.Answer (Except AppError Response)

/-- A request comes in, or one performs its next operation. -/
abbrev next (ctx : RosterContext Key) :
    RosterSys → Action (service ctx) Request → Option RosterSys :=
  Concurrent.next (service ctx) fun r => (handle ctx r).run

end Roster

end MizanConnect.Teams
