import MizanConnect.Proofs.Teams.Turns

/-!
# `MizanConnect.Proofs.Teams.Escalation`: what an invite can grant

Requests are served one at a time, each with its own failures. `issued_run`
finds the request of the run that created an invite, and `no_escalation`
follows each new membership back to it.
-/

set_option autoImplicit false

namespace MizanConnect.Proofs.Teams

open MizanConnect.Teams
open MizanConnect.Users (User users)
open Sql (Table)
open Transition (StepOf)

/-- The user holds the role `owner` in the team. -/
def Owns (db : TeamsDb) (teamId userId : Uuid) : Prop :=
  ∃ m ∈ db.members.rows, m.teamId = teamId ∧ m.userId = userId ∧ m.role = "owner"

/-- `role_for` answers `owner` for owners only. -/
theorem owns_of_roleFor {db : TeamsDb} {teamId userId : Uuid}
    (h : roleFor db.members teamId userId = some .owner) : Owns db teamId userId := by
  unfold roleFor at h
  rw [Option.map_eq_some_iff] at h
  obtain ⟨m, hfind, hrole⟩ := h
  have hkey : m.teamId = teamId ∧ m.userId = userId := by simpa using List.find?_some hfind
  refine ⟨m, List.mem_of_find?_eq_some hfind, hkey.1, hkey.2, ?_⟩
  -- Every text but "owner" is read as another role.
  by_contra hother
  unfold TeamRole.fromStr at hrole
  rw [if_neg hother] at hrole
  by_cases hadvisor : m.role = "advisor"
  · simp [hadvisor] at hrole
  · by_cases hviewer : m.role = "viewer"
    · simp [hviewer] at hrole
    · simp [hadvisor, hviewer] at hrole

/-! ### Provenance -/

/-- A request of the run created the invite, by a user who was an owner of its
team then. -/
def Issued (ctx : InviteContext) (db₀ : TeamsDb) (turns : List Turn) (invite : TeamInvite) :
    Prop :=
  ∃ db turn db' user req, StepOf (Turn.next ctx) db₀ turns db turn db' ∧
    turn.request = .create user invite.teamId req ∧ Owns db invite.teamId user.id ∧
    invite.invitedBy = user.id ∧ invite.token = turn.token ∧ invite.role = req.role ∧
    invite.email = ctx.toLowercase (trim req.email)

/-- The turn writes the membership by an accept of the invite. -/
structure Granted (ctx : InviteContext) (db : TeamsDb) (turn : Turn) (m : TeamMember)
    (user : User) (invite : TeamInvite) : Prop where
  request : turn.request = .accept user invite.token
  toUser : m.userId = user.id
  team : m.teamId = invite.teamId
  role : m.role = invite.role
  stored : invite ∈ db.invites.rows
  unredeemed : invite.redeemedAt = none
  unexpired : turn.clock < invite.expiresAt
  email : invite.email = ctx.toLowercase user.email

section
variable {ctx : InviteContext} {db₀ db db' : TeamsDb} {turn : Turn} {turns : List Turn}

theorem Issued.append {invite : TeamInvite} (h : Issued ctx db₀ turns invite) (turn : Turn) :
    Issued ctx db₀ (turns ++ [turn]) invite := by
  obtain ⟨db, t, db', user, req, hstep, hrest⟩ := h
  exact ⟨db, t, db', user, req, hstep.append [turn], hrest⟩

/-- A turn adds no invite but one that it issues. -/
theorem issued_next (hrun : Transition.run (Turn.next ctx) db₀ turns = some db)
    (hissued : ∀ invite ∈ db.invites.rows, Issued ctx db₀ turns invite)
    (hnext : Turn.next ctx db turn = some db') :
    ∀ invite ∈ db'.invites.rows, Issued ctx db₀ (turns ++ [turn]) invite := by
  have hstep := Transition.stepOf_last hrun hnext
  cases hnext
  intro invite hinvite
  rcases serve_cases ctx turn db with
    ⟨hdb, -⟩ | ⟨⟨user, teamId, req, hcreate⟩ | ⟨user, token, found, team, hredeem⟩, -⟩
  · rw [hdb] at hinvite
    exact (hissued invite hinvite).append turn
  · obtain ⟨now, hinsert⟩ := hcreate.insert
    rw [(insertInvite_rows hinsert).2.2] at hinvite
    rcases List.mem_append.mp hinvite with hold | hnew
    · exact (hissued invite hold).append turn
    · cases List.mem_singleton.mp hnew
      exact ⟨db, turn, _, user, req, hstep, hcreate.request, owns_of_roleFor hcreate.checks.owner,
        rfl, rfl, rfl, rfl⟩
  · obtain ⟨now, htx⟩ := hredeem.tx
    rw [acceptTx_invites htx] at hinvite
    obtain ⟨old, hold, rfl⟩ := List.mem_map.mp hinvite
    have hold' := (hissued old hold).append turn
    -- The redemption touches nothing that `Issued` speaks of.
    by_cases htoken : old.token = found.token
    · rw [if_pos htoken]
      exact hold'
    · rw [if_neg htoken]
      exact hold'

/-- Every invite of a run was issued in it. -/
theorem issued_run (t : Table users)
    (hrun : Transition.run (Turn.next ctx) (migrate0005 t) turns = some db) :
    ∀ invite ∈ db.invites.rows, Issued ctx (migrate0005 t) turns invite := by
  refine Transition.run_history (P := fun turns db =>
    ∀ invite ∈ db.invites.rows, Issued ctx (migrate0005 t) turns invite) ?_ ?_ hrun
  · intro invite hinvite
    cases hinvite
  · intro as a m m' hm hissued hnext
    exact issued_next hm hissued hnext

/-- A membership that a turn writes is granted by an invite. -/
theorem granted_next (hnext : Turn.next ctx db turn = some db') {m : TeamMember}
    (hm : m ∈ db'.members.rows) (hnew : m ∉ db.members.rows) :
    ∃ user invite, Granted ctx db turn m user invite := by
  cases hnext
  rcases serve_cases ctx turn db with
    ⟨hdb, -⟩ | ⟨⟨user, teamId, req, hcreate⟩ | ⟨user, token, invite, team, hredeem⟩, -⟩
  · rw [hdb] at hm
    exact absurd hm hnew
  · obtain ⟨now, hinsert⟩ := hcreate.insert
    rw [(insertInvite_rows hinsert).2.1] at hm
    exact absurd hm hnew
  · obtain ⟨now, htx⟩ := hredeem.tx
    obtain ⟨hinvite, -, -⟩ := openInvite_eq_some hredeem.checks.found
    obtain ⟨htoken, hopen⟩ := openInvite_key hredeem.checks.found
    obtain ⟨-, written, hteam, huser, hrole, hwrite⟩ :=
      acceptTx_members (invite_role_cases hinvite) htx
    rcases (Table.mem_write_singleton hwrite).mp hm with rfl | ⟨hold, -⟩
    · exact ⟨user, invite, by rw [hredeem.request, htoken], huser, hteam, hrole, hinvite, hopen,
        hredeem.checks.unexpired, hredeem.checks.email.symm⟩
    · exact absurd hold hnew

/-- A turn makes nobody an owner. -/
theorem owns_next (hnext : Turn.next ctx db turn = some db') {teamId userId : Uuid}
    (howns : Owns db' teamId userId) : Owns db teamId userId := by
  obtain ⟨m, hm, hteam, huser, hrole⟩ := howns
  by_cases hold : m ∈ db.members.rows
  · exact ⟨m, hold, hteam, huser, hrole⟩
  · obtain ⟨user, invite, hgranted⟩ := granted_next hnext hm hold
    have hinvite := invite_role_cases hgranted.stored
    rw [← hgranted.role, hrole] at hinvite
    exact absurd hinvite (by decide)

/-- An error that is not a lost connection leaves the tables. -/
theorem error_next (hnext : Turn.next ctx db turn = some db') {e : AppError}
    (he : (turn.serve ctx db).1 = .error e) (hlost : e ≠ connectionError) : db' = db := by
  cases hnext
  rcases serve_cases ctx turn db with ⟨hdb, -⟩ | ⟨-, herror⟩
  · exact hdb
  · exact absurd (herror e he) hlost

/-- In every run of `create_invite` and `accept_invite` after the migrations,
each turn makes nobody an owner. A membership that it inserts or changes is for
`advisor` or `viewer` and granted by an invite that an owner of the team issued
earlier in the run. When it ends with an error, other than a lost connection,
memberships and invites are as before. -/
theorem no_escalation (ctx : InviteContext) (t : Table users)
    (hrun : Transition.run (Turn.next ctx) (migrate0005 t) turns = some db)
    (hnext : Turn.next ctx db turn = some db') :
    (∀ teamId userId, Owns db' teamId userId → Owns db teamId userId) ∧
      (∀ m ∈ db'.members.rows, m ∉ db.members.rows →
        (m.role = "advisor" ∨ m.role = "viewer") ∧
        ∃ user invite, Granted ctx db turn m user invite ∧
          Issued ctx (migrate0005 t) turns invite) ∧
      ∀ e, (turn.serve ctx db).1 = .error e → e ≠ connectionError →
        db'.members = db.members ∧ db'.invites = db.invites := by
  refine ⟨fun _ _ => owns_next hnext, ?_, ?_⟩
  · intro m hm hnew
    obtain ⟨user, invite, hgranted⟩ := granted_next hnext hm hnew
    refine ⟨?_, user, invite, hgranted, issued_run t hrun invite hgranted.stored⟩
    rw [hgranted.role]
    exact invite_role_cases hgranted.stored
  · intro e he hlost
    have hdb := error_next hnext he hlost
    exact ⟨by rw [hdb], by rw [hdb]⟩

end

/-! ### An advisor joins -/

def advisor : User := ⟨⟨2⟩, ⟨2⟩, "Bob@example.com", some "Bob", none, 0, 0, none⟩

/-- The owner invites an advisor. -/
def inviteAdvisor : Turn :=
  ⟨.create owner owner.id ⟨" bob@Example.com", "advisor"⟩, calmInput inviteContext 10 "token"⟩

/-- The advisor accepts. -/
def advisorAccepts : Turn := ⟨.accept advisor "token", calmInput inviteContext 20 ""⟩

/-- The membership of the advisor stems from the invite. -/
theorem advisor_granted :
    ∃ db db', Transition.run (Turn.next inviteContext) (migrate0005 oneUser) [inviteAdvisor]
        = some db ∧ Turn.next inviteContext db advisorAccepts = some db' ∧
      (⟨owner.id, advisor.id, "advisor", 20⟩ : TeamMember) ∈ db'.members.rows ∧
      ∃ user invite, Granted inviteContext db advisorAccepts
          ⟨owner.id, advisor.id, "advisor", 20⟩ user invite ∧
        Issued inviteContext (migrate0005 oneUser) [inviteAdvisor] invite := by
  obtain ⟨db, db', hrun, hnext, hm, hnew⟩ : ∃ db db',
      Transition.run (Turn.next inviteContext) (migrate0005 oneUser) [inviteAdvisor] = some db ∧
        Turn.next inviteContext db advisorAccepts = some db' ∧
        (⟨owner.id, advisor.id, "advisor", 20⟩ : TeamMember) ∈ db'.members.rows ∧
        (⟨owner.id, advisor.id, "advisor", 20⟩ : TeamMember) ∉ db.members.rows :=
    ⟨_, _, rfl, rfl, by decide, by decide⟩
  obtain ⟨-, hmembers, -⟩ := no_escalation inviteContext oneUser hrun hnext
  exact ⟨db, db', hrun, hnext, hm, (hmembers _ hm hnew).2⟩

end MizanConnect.Proofs.Teams
