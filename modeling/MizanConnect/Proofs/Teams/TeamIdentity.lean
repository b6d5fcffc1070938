import MizanConnect.Proofs.Teams.Escalation
import MizanConnect.Proofs.Teams.SingleUse
import MizanConnect.Proofs.Users.Rename
import MizanConnect.Teams.Accounts

/-!
# `MizanConnect.Proofs.Teams.TeamIdentity`: the team that `/v1/me` reports

`build_me` reports the user's own id as the team and `owner` as the role. The
backfill of 0005 makes that true for the users who were live then. No request
creates a team, so it is false for everyone who comes later, and an accept of an
invite to the own team ends it.

`team_identity_iff` says this for every run after the migrations, and
`new_user_has_no_team` is the first login of a new user.
-/

set_option autoImplicit false

namespace MizanConnect.Proofs.Teams

open Concurrent (Program Sys next_cases)
open MizanConnect.Auth (SupabaseClaims)
open MizanConnect.Billing.Repository (SubscriptionRow)
open MizanConnect.Teams
open MizanConnect.Users (User UsersContext buildMe users)
open Sql (Table)
open Transition (Along run)

/-- The team and the role that `build_me` reports exist, and `role_for` agrees. -/
def RealTeam (formatRfc3339 : Timestamp → Option String) (db : TeamsDb) (user : User) : Prop :=
  ∀ sub : Option SubscriptionRow, ∃ teamId role,
    (buildMe formatRfc3339 user sub).teamId = some teamId ∧
    (buildMe formatRfc3339 user sub).teamRole = some role ∧
    (∃ team ∈ db.teams.rows, team.id = teamId) ∧
    (∃ m ∈ db.members.rows, m.teamId = teamId ∧ m.userId = user.id ∧ m.role = role) ∧
    (roleFor db.members teamId user.id).map TeamRole.asStr = some role

/-- The transaction of an accept runs, by the user, of an invite to the user's
own team. -/
def ownAccept (userId : Uuid) (s : Accounts) : AccountAction → Bool
  | .advance i input =>
    match s.invites.jobs[i]? with
    | some ⟨_, .perform (.acceptTx user invite) _⟩ =>
      user.id = userId && invite.teamId = userId &&
        match (input (.acceptTx user invite) : Attempt) with
        | .run _ _ _ => true
        | .lost => false
    | _ => false
  | _ => false

section
variable {db db' : TeamsDb}

/-- `role_for` answers `owner` for every owner. -/
theorem roleFor_of_owns {teamId userId : Uuid} (h : Owns db teamId userId) :
    roleFor db.members teamId userId = some .owner := by
  obtain ⟨m, hm, hteam, huser, hrole⟩ := h
  unfold roleFor
  cases hfind : db.members.rows.find? fun m => m.teamId = teamId && m.userId = userId with
  | none =>
    have hnone := List.find?_eq_none.mp hfind m hm
    simp [hteam, huser] at hnone
  | some found =>
    have hkey : found.teamId = teamId ∧ found.userId = userId := by
      simpa using List.find?_some hfind
    -- The primary key leaves one row for the pair.
    have hsame : found = m := db.members.eq_of_key (List.mem_of_find?_eq_some hfind) hm
      (Prod.ext (hkey.1.trans hteam.symm) (hkey.2.trans huser.symm))
    rw [hsame]
    simp [hrole, TeamRole.fromStr]

/-- `build_me` reports a real team exactly to an owner of a team with the own
id. -/
theorem realTeam_iff (formatRfc3339 : Timestamp → Option String) (user : User) :
    RealTeam formatRfc3339 db user ↔
      (∃ team ∈ db.teams.rows, team.id = user.id) ∧ Owns db user.id user.id := by
  constructor
  · intro h
    obtain ⟨teamId, role, hteam, hrole, hexists, hmember, -⟩ := h none
    cases hteam
    cases hrole
    exact ⟨hexists, hmember⟩
  · intro h sub
    refine ⟨user.id, "owner", rfl, rfl, h.1, h.2, ?_⟩
    rw [roleFor_of_owns h.2]
    rfl

/-- Writing a membership that is not an owner's keeps the ownership of all other
pairs and ends that of its own. -/
theorem owns_write_iff {m : TeamMember} {teamId userId : Uuid} (hrole : m.role ≠ "owner")
    (hwrite : db.members.write [m] = .ok db'.members) :
    Owns db' teamId userId ↔ Owns db teamId userId ∧ ¬ (m.teamId = teamId ∧ m.userId = userId) := by
  constructor
  · rintro ⟨x, hx, hteam, huser, howner⟩
    rcases (Table.mem_write_singleton hwrite).mp hx with rfl | ⟨hold, hne⟩
    · exact absurd howner hrole
    · refine ⟨⟨x, hold, hteam, huser, howner⟩, ?_⟩
      rintro ⟨hmteam, hmuser⟩
      exact hne (Prod.ext (hteam.trans hmteam.symm) (huser.trans hmuser.symm))
  · rintro ⟨⟨x, hx, hteam, huser, howner⟩, hother⟩
    refine ⟨x, (Table.mem_write_singleton hwrite).mpr (Or.inr ⟨hx, ?_⟩), hteam, huser, howner⟩
    intro hkey
    obtain ⟨hkteam, hkuser⟩ : x.teamId = m.teamId ∧ x.userId = m.userId := Prod.mk.inj hkey
    exact hother ⟨hkteam.symm.trans hteam, hkuser.symm.trans huser⟩

/-! ### One step -/

/-- The other operations leave the teams and the memberships. -/
theorem exec_frame (db : TeamsDb) {o : Op} (ho : redeemsNothing o) (input : (o : Op) → o.Input) :
    (exec db o (input o)).2.teams = db.teams ∧ (exec db o (input o)).2.members = db.members := by
  rcases exec_cases db o input with
    hdb | ⟨token, teamId, invitedBy, email, role, expiresAt, now, hinsert⟩ |
      ⟨user, invite, now, newId, acknowledged, rfl, -, -⟩
  · rw [hdb]
    exact ⟨rfl, rfl⟩
  · exact ⟨(insertInvite_rows hinsert).1, (insertInvite_rows hinsert).2.1⟩
  · exact absurd ho id

/-- The transaction keeps the teams, and writes its membership when it runs. -/
theorem exec_acceptTx (db : TeamsDb) (user : User) {invite : TeamInvite}
    (input : (o : Op) → inviteService.In o)
    (hrole : invite.role = "advisor" ∨ invite.role = "viewer") :
    (exec db (.acceptTx user invite) (input (.acceptTx user invite))).2.teams = db.teams ∧
      (input (.acceptTx user invite) = Attempt.lost ∧
        (exec db (.acceptTx user invite) (input (.acceptTx user invite))).2 = db ∨
      (∃ now newId acknowledged,
        input (.acceptTx user invite) = Attempt.run now newId acknowledged) ∧
        ∃ m, m.teamId = invite.teamId ∧ m.userId = user.id ∧ m.role = invite.role ∧
          db.members.write [m] = .ok
            (exec db (.acceptTx user invite) (input (.acceptTx user invite))).2.members) := by
  rcases Attempt.lost_or_run (input (.acceptTx user invite)) with
    hlost | ⟨now, newId, acknowledged, hrun⟩
  · have hexec : (exec db (.acceptTx user invite) (input (.acceptTx user invite))).2 = db := by
      simp [exec, hlost, Attempt.write]
    exact ⟨congrArg TeamsDb.teams hexec, Or.inl ⟨hlost, hexec⟩⟩
  · obtain ⟨db', m, htx, hteams, hteam, huser, hmrole, hwrite⟩ := acceptTx_ok db now user hrole
    have hexec : (exec db (.acceptTx user invite) (input (.acceptTx user invite))).2 = db' := by
      simp [exec, hrun, Attempt.write, htx, Except.map]
    rw [hexec]
    exact ⟨hteams, Or.inr ⟨⟨now, newId, acknowledged, hrun⟩, m, hteam, huser, hmrole, hwrite⟩⟩

end

section
variable {Key : Type} {accounts : UsersContext Key} {ctx : InviteContext} {t : Table users}
  {s s' : Accounts} {a : AccountAction} {as : List AccountAction}

/-- A step leaves the invites and their requests, adds a request, or performs an
operation. -/
theorem accountsNext_cases (h : accountsNext accounts ctx s a = some s') :
    ((∀ i input, a ≠ .advance i input) ∧
      (s'.invites = s.invites ∨ ∃ r, inviteNext ctx s.invites (.spawn r) = some s'.invites)) ∨
    ∃ i input, a = .advance i input ∧
      inviteNext ctx s.invites (.advance i input) = some s'.invites := by
  cases a with
  | serve req =>
    cases h
    exact Or.inl ⟨fun _ _ h => (nomatch h), Or.inl rfl⟩
  | arrive req endpoint =>
    refine Or.inl ⟨fun _ _ h => (nomatch h), ?_⟩
    simp only [accountsNext] at h
    cases hauth : Users.authenticate accounts req s.users with
    | error e =>
      rw [hauth] at h
      cases h
      exact Or.inl rfl
    | ok out =>
      rw [hauth] at h
      obtain ⟨invites, hspawn, rfl⟩ := Option.map_eq_some_iff.mp h
      exact Or.inr ⟨_, hspawn⟩
  | advance i input =>
    obtain ⟨invites, hnext, rfl⟩ := Option.map_eq_some_iff.mp h
    exact Or.inr ⟨i, input, rfl, hnext⟩

/-- Only an operation can be an accept. -/
theorem ownAccept_other (userId : Uuid) (h : ∀ i input, a ≠ .advance i input) :
    ownAccept userId s a = false := by
  cases a with
  | serve req => rfl
  | arrive req endpoint => rfl
  | advance i input => exact absurd rfl (h i input)

/-- The teams are those of the backfill, and every request is at one of its
stages. -/
structure Backfilled (ctx : InviteContext) (t : Table users) (s : Accounts) : Prop where
  staged : Staged ctx s.invites
  teams : s.invites.state.teams = (migrate0005 t).teams

/-- An operation keeps the teams, and ends an ownership of the own team exactly
when it is an accept of the owner. -/
theorem owns_exec_iff {r : Request} {o : Op}
    {k : o.Answer → Program Op Op.Answer (Except AppError Response)} {i : Nat}
    (input : (o : Op) → o.Input) (hjob : s.invites.jobs[i]? = some ⟨r, .perform o k⟩)
    (hstage : Stage ctx s.invites.state r (.perform o k)) (userId : Uuid) :
    (exec s.invites.state o (input o)).2.teams = s.invites.state.teams ∧
      (Owns (exec s.invites.state o (input o)).2 userId userId ↔
        Owns s.invites.state userId userId ∧ ownAccept userId s (.advance i input) = false) := by
  have hidle : redeemsNothing o → ownAccept userId s (.advance i input) = false := by
    intro ho
    cases o with
    | acceptTx user invite => exact absurd ho id
    | _ => simp [ownAccept, hjob]
  by_cases ho : redeemsNothing o
  · obtain ⟨hteams, hmembers⟩ := exec_frame s.invites.state ho input
    refine ⟨hteams, ?_⟩
    rw [hidle ho, Owns, hmembers]
    exact (and_iff_left rfl).symm
  · obtain ⟨user, invite, rfl⟩ : ∃ user invite, o = .acceptTx user invite := by
      cases o with
      | acceptTx user invite => exact ⟨user, invite, rfl⟩
      | _ => exact absurd trivial ho
    obtain ⟨-, hseen⟩ := hstage.acceptTx
    obtain ⟨hteams, ⟨hlost, hdb⟩ |
        ⟨⟨now, newId, acknowledged, hrun⟩, m, hteam, huser, hmrole, hwrite⟩⟩ :=
      exec_acceptTx s.invites.state user input hseen.role
    · refine ⟨hteams, ?_⟩
      rw [hdb]
      refine (and_iff_left ?_).symm
      simp [ownAccept, hjob, hlost]
    · refine ⟨hteams, ?_⟩
      have hrole : m.role ≠ "owner" := by
        rw [hmrole]
        rcases hseen.role with h | h <;> rw [h] <;> decide
      rw [owns_write_iff hrole hwrite, hteam, huser]
      refine and_congr_right fun _ => ?_
      simp [ownAccept, hjob, hrun, and_comm]

/-- A step keeps the teams, and ends an ownership of the own team exactly by an
accept of the owner. -/
theorem backfilled_next (hs : Backfilled ctx t s) (h : accountsNext accounts ctx s a = some s') :
    Backfilled ctx t s' ∧ ∀ userId, Owns s'.invites.state userId userId ↔
      Owns s.invites.state userId userId ∧ ownAccept userId s a = false := by
  rcases accountsNext_cases h with ⟨hother, hinvites | ⟨r, hspawn⟩⟩ | ⟨i, input, rfl, hnext⟩
  · rw [hinvites]
    exact ⟨⟨hinvites ▸ hs.staged, hinvites ▸ hs.teams⟩,
      fun userId => (and_iff_left (ownAccept_other userId hother)).symm⟩
  · have hstate : s'.invites.state = s.invites.state := by
      rw [← Option.some.inj hspawn]
    rw [hstate]
    exact ⟨⟨staged_next hs.staged hspawn, hstate ▸ hs.teams⟩,
      fun userId => (and_iff_left (ownAccept_other userId hother)).symm⟩
  · rcases next_cases hnext with ⟨r, haction, -⟩ | ⟨j, input', r, o, k, haction, hjob, hinvites⟩
    · cases haction
    · cases haction
      have hexec := owns_exec_iff input hjob (hs.staged _ (List.mem_of_getElem? hjob))
      have hstate : s'.invites.state = (exec s.invites.state o (input o)).2 := by
        rw [hinvites]
        rfl
      rw [hstate]
      refine ⟨⟨staged_next hs.staged hnext, ?_⟩, fun userId => (hexec userId).2⟩
      rw [hstate, (hexec ⟨0⟩).1]
      exact hs.teams

/-! ### Runs -/

/-- The backfill makes exactly the live users owners of a team with their own
id. -/
theorem owns_migrate0005 (t : Table users) (userId : Uuid) :
    Owns (migrate0005 t) userId userId ↔ ∃ u ∈ t.rows, u.id = userId ∧ u.deletedAt = none := by
  constructor
  · rintro ⟨m, hm, hteam, -, -⟩
    obtain ⟨team, hteams, rfl⟩ := List.mem_map.mp hm
    obtain ⟨u, hu, rfl⟩ := List.mem_map.mp hteams
    obtain ⟨hu, hlive⟩ := List.mem_filter.mp hu
    exact ⟨u, hu, hteam, by simpa using hlive⟩
  · rintro ⟨u, hu, hid, hlive⟩
    refine ⟨ownerMembership (soloTeam u), ?_, hid, hid, rfl⟩
    exact List.mem_map_of_mem (List.mem_map_of_mem (List.mem_filter.mpr ⟨hu, by simpa using hlive⟩))

/-- They are also the users with such a team. -/
theorem team_migrate0005 (t : Table users) (userId : Uuid) :
    (∃ team ∈ (migrate0005 t).teams.rows, team.id = userId) ↔
      ∃ u ∈ t.rows, u.id = userId ∧ u.deletedAt = none := by
  constructor
  · rintro ⟨team, hteam, hid⟩
    obtain ⟨u, hu, rfl⟩ := List.mem_map.mp hteam
    obtain ⟨hu, hlive⟩ := List.mem_filter.mp hu
    exact ⟨u, hu, hid, by simpa using hlive⟩
  · rintro ⟨u, hu, hid, hlive⟩
    exact ⟨soloTeam u, List.mem_map_of_mem (List.mem_filter.mpr ⟨hu, by simpa using hlive⟩), hid⟩

/-- In every state of every run after the migrations, what `build_me` reports to
a user is real exactly when the user was live when 0005 ran and has since run no
accept of an invite to the own team. -/
theorem team_identity_iff (accounts : UsersContext Key) (ctx : InviteContext) (t : Table users)
    (hrun : run (accountsNext accounts ctx) (.afterMigrations t) as = some s) (user : User) :
    RealTeam accounts.formatRfc3339 s.invites.state user ↔
      (∃ u ∈ t.rows, u.id = user.id ∧ u.deletedAt = none) ∧
        Along (accountsNext accounts ctx) (fun s a => ownAccept user.id s a = false)
          (.afterMigrations t) as := by
  have hinit : Backfilled ctx t (.afterMigrations t) := ⟨fun job hjob => (nomatch hjob), rfl⟩
  have hs : Backfilled ctx t s := Transition.run_invariant (C := fun _ _ => True)
    (fun _ _ _ hs _ h => (backfilled_next hs h).1) hinit (Transition.along_true _ _) hrun
  have howns := Transition.run_iff_along (I := Backfilled ctx t)
    (P := fun s : Accounts => Owns s.invites.state user.id user.id)
    (C := fun s a => ownAccept user.id s a = false)
    (fun _ _ _ hs h => (backfilled_next hs h).1)
    (fun _ _ _ hs h => (backfilled_next hs h).2 user.id) hinit hrun
  have hstart : Owns (Accounts.afterMigrations t).invites.state user.id user.id ↔
      ∃ u ∈ t.rows, u.id = user.id ∧ u.deletedAt = none := owns_migrate0005 t user.id
  rw [realTeam_iff, howns, hs.teams, team_migrate0005, hstart, ← and_assoc, and_self]

end

/-! ### A new user -/

open MizanConnect.Proofs.Users (aliceRequest namedContext)

/-- `team_identity_iff` for a user of the time before 0005. -/
theorem team_identity_iff_alice :
    ∃ s, run (accountsNext namedContext inviteContext) (.afterMigrations oneUser)
        [.serve (aliceRequest .getMe)] = some s ∧
      ∀ user ∈ s.users.rows, RealTeam namedContext.formatRfc3339 s.invites.state user := by
  obtain ⟨s, hrun, hids⟩ : ∃ s, run (accountsNext namedContext inviteContext)
      (.afterMigrations oneUser) [.serve (aliceRequest .getMe)] = some s ∧
        s.users.rows.map User.id = [owner.id] := ⟨_, rfl, by decide⟩
  refine ⟨s, hrun, ?_⟩
  intro user huser
  have hid : user.id = owner.id := by
    have hmem : user.id ∈ s.users.rows.map User.id := List.mem_map_of_mem huser
    rw [hids] at hmem
    exact List.mem_singleton.mp hmem
  exact (team_identity_iff namedContext inviteContext oneUser hrun user).mpr
    ⟨⟨owner, List.mem_cons_self, hid.symm, rfl⟩, rfl, fun _ _ => trivial⟩

/-- The first login of a user after 0005: the answer names a team and the role
of its owner, and there is no team. -/
theorem new_user_has_no_team :
    ∃ s me, run (accountsNext namedContext inviteContext) (.afterMigrations Table.empty)
        [.serve (aliceRequest .getMe)] = some s ∧
      (Users.serve namedContext (aliceRequest .getMe) Table.empty).1 = .me me ∧
      me.teamId = some ⟨2⟩ ∧ me.teamRole = some "owner" ∧ s.invites.state.teams.rows = [] ∧
      ∃ user ∈ s.users.rows, user.id = me.id ∧
        ¬ RealTeam namedContext.formatRfc3339 s.invites.state user := by
  refine ⟨_, _, rfl, rfl, rfl, rfl, rfl, _, List.mem_cons_self, rfl, ?_⟩
  intro h
  obtain ⟨teamId, role, -, -, ⟨team, hteam, -⟩, -⟩ := h none
  cases hteam

end MizanConnect.Proofs.Teams
