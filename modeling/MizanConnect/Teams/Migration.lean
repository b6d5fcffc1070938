import MizanConnect.Billing.Repository
import MizanConnect.Lib.Ddl
import MizanConnect.Teams.Repository

/-!
# `MizanConnect.Teams.Migration`: the migration 0005

`migrations/0005_teams.sql`, statement by statement, on the tables `users` and
`subscriptions` as the migrations 0001 to 0004 leave them. The file is one
transaction, so `NOW()` is one time and the first constraint that breaks undoes
everything. The foreign keys are checked here, since the copy of `user_id` into
`team_id` can break one.
-/

set_option autoImplicit false

namespace MizanConnect.Teams.Migration

open MizanConnect.Billing.Subscriptions (afterMigrations beforeTeams)
open MizanConnect.Users (User users)
open Sql (Failure References Schema Table checkForeignKey)

/-- A row of `subscriptions`. -/
abbrev Subscription := MizanConnect.Billing.Subscriptions.Row

/-- The two tables that 0005 reads, as 0001 to 0004 leave them. -/
structure BeforeTeams where
  users : Table users
  subscriptions : Table beforeTeams
  userExists : References (fun r : Subscription => some r.userId) subscriptions.rows users

/-- The tables that 0005 leaves. -/
structure AfterTeams where
  users : Table users
  teams : Table teams
  members : Table teamMembers
  subscriptions : Table afterMigrations

/-! ### The teams -/

/-- `INSERT INTO teams … FROM users u WHERE u.deleted_at IS NULL`. -/
def backfillTeams (t : Table users) : Except Failure (Table teams) := do
  let backfilled ← ((Table.empty : Table teams).insertMissing
    ((t.rows.filter fun u => u.deletedAt = none).map soloTeam)).mapError .violation
  checkForeignKey "teams_owner_user_id_fkey" (fun team : Team => some team.ownerUserId)
    backfilled.rows t
  return backfilled

/-- `INSERT INTO team_members … FROM teams t`. -/
def backfillMembers (t : Table users) (backfilled : Table teams) :
    Except Failure (Table teamMembers) := do
  let members ← ((Table.empty : Table teamMembers).insertMissing
    (backfilled.rows.map ownerMembership)).mapError .violation
  checkForeignKey "team_members_team_id_fkey" (fun m : TeamMember => some m.teamId)
    members.rows backfilled
  checkForeignKey "team_members_user_id_fkey" (fun m : TeamMember => some m.userId)
    members.rows t
  return members

/-! ### `subscriptions.team_id` -/

/-- `ADD COLUMN team_id`: it is NULL. -/
def addTeamId (t : Table beforeTeams) : Table beforeTeams :=
  t.addColumn (fun r => { r with teamId := none }) (fun _ => rfl) (fun _ => rfl) fun _ _ => rfl

/-- `SET team_id = s.user_id`. The trigger `trg_subscriptions_updated_at` sets
`updated_at`. -/
def withTeam (now : Timestamp) (r : Subscription) : Subscription :=
  { r with teamId := some r.userId, updatedAt := now }

/-- `UPDATE subscriptions s SET team_id = s.user_id WHERE s.team_id IS NULL`. -/
def backfillTeamId (now : Timestamp) (backfilled : Table teams) (t : Table beforeTeams) :
    Except Failure (Table beforeTeams) := do
  let updated ← (t.updateWhere (fun r => r.teamId = none) (withTeam now)).mapError .violation
  checkForeignKey "subscriptions_team_id_fkey" (fun r : Subscription => r.teamId)
    updated.rows backfilled
  return updated

/-- `SET NOT NULL` and the index `idx_subscriptions_team_active`. -/
def requireTeamId (t : Table beforeTeams) : Except Failure (Table afterMigrations) :=
  (t.recheck afterMigrations).mapError .violation

/-- `0005_teams.sql`, run at the time `now`. -/
def apply0005 (now : Timestamp) (db : BeforeTeams) : Except Failure AfterTeams := do
  let backfilled ← backfillTeams db.users
  let members ← backfillMembers db.users backfilled
  let updated ← backfillTeamId now backfilled (addTeamId db.subscriptions)
  let subscriptions ← requireTeamId updated
  return { users := db.users, teams := backfilled, members, subscriptions }

end MizanConnect.Teams.Migration
