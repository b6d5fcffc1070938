import MizanConnect.Users.Repository

/-!
# `MizanConnect.Teams.Repository`: teams, members and invites

`src/teams/model.rs`, `role_for` of `src/teams/repository.rs`, and the
tables of the migrations 0005 and 0006. `migrate0005` is the backfill of
0005: the state that every run of the service starts from. The branding
columns are left out, since no function here reads them, and so are the
foreign keys.
-/

set_option autoImplicit false

namespace MizanConnect.Teams

open Sql (Schema Table Violation)
open MizanConnect.Users (User users)

/-! ### Data -/

/-- `TeamRole`. -/
inductive TeamRole where
  | owner
  | advisor
  | viewer
deriving DecidableEq, Repr

/-- `TeamRole::as_str`. -/
def TeamRole.asStr : TeamRole → String
  | .owner => "owner"
  | .advisor => "advisor"
  | .viewer => "viewer"

/-- `TeamRole::from_str`. -/
def TeamRole.fromStr (s : String) : Option TeamRole :=
  if s = "owner" then some .owner
  else if s = "advisor" then some .advisor
  else if s = "viewer" then some .viewer
  else none

/-- `TeamRole::is_owner`. -/
def TeamRole.isOwner (role : TeamRole) : Bool := role = .owner

theorem TeamRole.fromStr_asStr (role : TeamRole) : fromStr role.asStr = some role := by
  cases role <;> decide

/-- `Team`: a row of `teams`. -/
structure Team where
  id : Uuid
  name : String
  ownerUserId : Uuid
  createdAt : Timestamp
  updatedAt : Timestamp
  deletedAt : Option Timestamp
deriving DecidableEq, Repr

/-- `teams`. -/
def teams : Schema Team Uuid where
  key := Team.id
  violation _ := none
  clash _ _ := false
  clash_comm _ _ := rfl

/-- `TeamMember`: a row of `team_members`. -/
structure TeamMember where
  teamId : Uuid
  userId : Uuid
  role : String
  joinedAt : Timestamp
deriving DecidableEq, Repr

/-- `team_members`. -/
def teamMembers : Schema TeamMember (Uuid × Uuid) where
  key m := (m.teamId, m.userId)
  violation m :=
    if m.role ∈ ["owner", "advisor", "viewer"] then none
    else some (.check "team_members_role_check")
  clash _ _ := false
  clash_comm _ _ := rfl

/-- A row of `team_invites`. -/
structure TeamInvite where
  token : String
  teamId : Uuid
  invitedBy : Uuid
  email : String
  role : String
  redeemedAt : Option Timestamp
  redeemedBy : Option Uuid
  createdAt : Timestamp
  expiresAt : Timestamp
deriving DecidableEq, Repr

/-- `team_invites`. No invite is for the role `owner`. -/
def teamInvites : Schema TeamInvite String where
  key := TeamInvite.token
  violation i :=
    if i.role ∈ ["advisor", "viewer"] then none
    else some (.check "team_invites_role_check")
  clash _ _ := false
  clash_comm _ _ := rfl

/-- The tables of the teams feature. -/
structure TeamsDb where
  teams : Table teams
  members : Table teamMembers
  invites : Table teamInvites

/-! ### Queries -/

/-- `role_for`. An unknown role counts as `viewer`. -/
def roleFor (members : Table teamMembers) (teamId userId : Uuid) : Option TeamRole :=
  (members.rows.find? fun m => m.teamId = teamId && m.userId = userId).map fun m =>
    (TeamRole.fromStr m.role).getD .viewer

/-! ### The backfill of 0005 -/

/-- The team of a user: `COALESCE(NULLIF(display_name, ''), split_part(email,
'@', 1))` names it. -/
def soloTeam (u : User) : Team where
  id := u.id
  name := (u.displayName.filter fun name => name ≠ "").getD ((splitOnChar '@' u.email).headD "")
  ownerUserId := u.id
  createdAt := u.createdAt
  updatedAt := u.updatedAt
  deletedAt := none

/-- The membership of a team's owner. -/
def ownerMembership (t : Team) : TeamMember where
  teamId := t.id
  userId := t.ownerUserId
  role := "owner"
  joinedAt := t.createdAt

/-- The tables after the migrations 0005 and 0006: a team for each live user,
owned by the user, and no invite. -/
def migrate0005 (t : Table users) : TeamsDb :=
  let live := t.rows.filter fun u => u.deletedAt = none
  have hids : (live.map User.id).Nodup := t.keys.sublist (List.filter_sublist.map User.id)
  { teams :=
      { rows := live.map soloTeam
        admitted := fun _ _ => rfl
        keys := by
          rw [List.map_map]
          exact hids
        unique := List.pairwise_of_forall fun _ _ => rfl }
    members :=
      { rows := (live.map soloTeam).map ownerMembership
        admitted := by
          intro m hm
          obtain ⟨x, -, rfl⟩ := List.mem_map.mp hm
          rfl
        keys := by
          rw [List.map_map, List.map_map]
          have hpairs := hids.map (f := fun id => (id, id)) fun a b h => (Prod.mk.inj h).1
          rw [List.map_map] at hpairs
          exact hpairs
        unique := List.pairwise_of_forall fun _ _ => rfl }
    invites := Table.empty }

end MizanConnect.Teams
