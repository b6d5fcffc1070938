import MizanConnect.Teams.Handlers
import MizanConnect.Users.Handlers

/-!
# `MizanConnect.Teams.Accounts`: users and their teams together

The service after the migrations, as far as `users` and the tables of the teams
feature go. Every authenticated request runs the extractor first, and the user
that it returns is the one whose invite is created or accepted.
-/

set_option autoImplicit false

namespace MizanConnect.Teams

open Concurrent (Sys)
open MizanConnect.Users (User UsersContext authenticate serve)
open Sql (Table)

/-- The two endpoints, by what a request carries besides its token. -/
inductive Endpoint where
  | create (teamId : Uuid) (req : CreateInviteRequest)
  | accept (token : String)

/-- The request of an authenticated user. -/
def Endpoint.request (user : User) : Endpoint → Request
  | .create teamId req => .create user teamId req
  | .accept token => .accept user token

/-- The users, and the teams with the requests in progress. -/
structure Accounts where
  users : Table Users.users
  invites : InviteSys

/-- The state that the migrations leave, for the users of that time. -/
def Accounts.afterMigrations (t : Table Users.users) : Accounts := ⟨t, Sys.init (migrate0005 t)⟩

/-- A request of any other endpoint is served, a request for an invite comes in
through the extractor, or one goes on by an operation. -/
inductive AccountAction where
  | serve (req : Users.Request)
  | arrive (req : Users.Request) (endpoint : Endpoint)
  | advance (i : Nat) (input : (o : Op) → inviteService.In o)

/-- One step of the service. A request that the extractor rejects leaves
nothing. -/
def accountsNext {Key : Type} (accounts : UsersContext Key) (ctx : InviteContext) (s : Accounts) :
    AccountAction → Option Accounts
  | .serve req => some { s with users := (serve accounts req s.users).2 }
  | .arrive req endpoint =>
    match authenticate accounts req s.users with
    | .error _ => some s
    | .ok (t, user) =>
      (inviteNext ctx s.invites (.spawn (endpoint.request user))).map fun invites => ⟨t, invites⟩
  | .advance i input =>
    (inviteNext ctx s.invites (.advance i input)).map fun invites => { s with invites }

end MizanConnect.Teams
