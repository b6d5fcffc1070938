import MizanConnect.Proofs.Users.AccountIdentity

/-!
# `MizanConnect.Proofs.Teams.References`: what the rows of the teams feature point at

The migrations 0005 and 0006 declare foreign keys on `teams`, `team_members` and
`team_invites`. The tables here do without them. `references_hold` shows that nothing
is lost by that: in every state of every run each of them points at a row, and each
user column at an account that is not deleted.

Three facts carry it. The teams stay those of the backfill (`teams_kept`). A user who came
in through the extractor has an account and keeps it (`hasAccount_of_letIn`). And each row
is that of a request which has seen its team (`team_of_redemption`, `team_of_owner`).
-/

set_option autoImplicit false

namespace MizanConnect.Proofs.Teams

open Concurrent (Action Sys own)
open MizanConnect.Proofs.Users (after keeps_after served users_run)
open MizanConnect.Teams
open MizanConnect.Users (User UsersContext authenticate users)
open Sql (Table)
open Transition (run run_append run_cons_eq_some)

/-- An account with the id that is not deleted. -/
def HasAccount (t : Table users) (id : Uuid) : Prop :=
  ∃ u ∈ t.rows, u.id = id ∧ u.deletedAt = none

def HasTeam (db : TeamsDb) (id : Uuid) : Prop := ∃ team ∈ db.teams.rows, team.id = id

/-- The foreign keys of `teams`, `team_members` and `team_invites`. -/
structure References (s : Accounts) : Prop where
  owner : ∀ team ∈ s.invites.state.teams.rows, HasAccount s.users team.ownerUserId
  memberTeam : ∀ m ∈ s.invites.state.members.rows, HasTeam s.invites.state m.teamId
  memberUser : ∀ m ∈ s.invites.state.members.rows, HasAccount s.users m.userId
  inviteTeam : ∀ i ∈ s.invites.state.invites.rows, HasTeam s.invites.state i.teamId
  invitedBy : ∀ i ∈ s.invites.state.invites.rows, HasAccount s.users i.invitedBy
  redeemedBy : ∀ i ∈ s.invites.state.invites.rows, ∀ id, i.redeemedBy = some id →
    HasAccount s.users id

/-! ### Accounts -/

section
variable {Key : Type} {accounts : UsersContext Key} {ctx : InviteContext} {s s' : Accounts}
  {as : List AccountAction} {id : Uuid}

theorem hasAccount_run (hrun : run (accountsNext accounts ctx) s as = some s')
    (h : HasAccount s.users id) : HasAccount s'.users id := by
  obtain ⟨u, hu, rfl, hlive⟩ := h
  have hkept := users_run hrun
  obtain ⟨u', hu', hsame⟩ := keeps_after (as.filterMap served) hu
  rw [← hkept] at hu'
  exact ⟨u', hu', hsame.id, hsame.live hlive⟩

theorem hasAccount_of_letIn (hrun : run (accountsNext accounts ctx) s as = some s')
    {endpoint : Endpoint} {user : User} (h : LetIn accounts ctx s as endpoint user) :
    HasAccount s'.users user.id := by
  obtain ⟨pre, req, post, before, t, claims, rfl, hpre, hauth, -⟩ := h
  obtain ⟨m, hm, hrest⟩ := run_append.mp hrun
  cases hpre.symm.trans hm
  obtain ⟨m, hstep, hpost⟩ := run_cons_eq_some.mp hrest
  simp only [accountsNext, hauth] at hstep
  obtain ⟨invites, -, rfl⟩ := Option.map_eq_some_iff.mp hstep
  obtain ⟨-, -, huser, hlive, -⟩ := Users.authenticate_ok hauth
  exact hasAccount_run hpost ⟨user, huser, rfl, hlive⟩

end

/-! ### Teams -/

section
variable {ctx : InviteContext} {db : TeamsDb} {t : Table users}
  {as : List (Action inviteService Request)} {s : InviteSys} {pre post : List InviteEntry}
  {e : InviteEntry} {user : User}

/-- No request creates a team or changes one. -/
theorem teams_kept (hrun : run (inviteNext ctx) (Sys.init db) as = some s) :
    s.state.teams = db.teams := by
  refine Concurrent.trace_invariant (P := fun _ x => x.teams = db.teams) (handle_follows ctx)
    rfl ?_ hrun
  intro past e hlawful hpast
  rcases entry_cases e with
    hsame | ⟨token, teamId, invitedBy, email, role, expiresAt, now, -, hinsert⟩ |
      ⟨user, invite, now, hop, htx⟩
  · exact (congrArg TeamsDb.teams hsame).trans hpast
  · exact (insertInvite_rows hinsert).1.trans hpast
  · exact (acceptTx_members (redeem_role hlawful hop) htx).1.trans hpast

/-- A redemption is for a team that its lookup has found. -/
theorem team_of_redemption (hrun : run (inviteNext ctx) (Sys.init db) as = some s)
    (h : inviteTrace ctx db as = pre ++ e :: post) {invite : TeamInvite}
    (hop : e.op = .acceptTx user invite) : HasTeam db invite.teamId := by
  have hcause := (Concurrent.lawful_of_trace (handle_follows ctx) hrun h).allowed
  rw [hop] at hcause
  obtain ⟨token, team, time, -, hredeem⟩ := hcause
  obtain ⟨⟨job, request, x, o, input⟩, hk, -, hevent⟩ := Concurrent.mem_own hredeem.found
  obtain ⟨rfl, hanswer⟩ := Sigma.mk.inj hevent
  have hopen : some (invite, team) = openInvite x token :=
    Attempt.query_eq_ok (eq_of_heq hanswer)
  obtain ⟨-, hteam, hid⟩ := openInvite_eq_some hopen.symm
  obtain ⟨before, after, rfl⟩ := List.append_of_mem hk
  obtain ⟨as₁, m, hm, -, hstate⟩ := run_before hrun
    (h.trans (List.append_assoc before (_ :: after) (e :: post)))
  refine ⟨team, ?_, hid⟩
  rw [← teams_kept hm, hstate]
  exact hteam

/-- A team has the id of its owner. -/
theorem team_of_owner {teamId userId : Uuid} (h : Owns (migrate0005 t) teamId userId) :
    HasTeam (migrate0005 t) teamId := by
  obtain ⟨m, hm, rfl, -, -⟩ := h
  obtain ⟨team, hteam, rfl⟩ := List.mem_map.mp hm
  exact ⟨team, hteam, rfl⟩

/-- The caller of an INSERT is the owner of a team of the backfill. -/
theorem owns_of_insert (hrun : run (inviteNext ctx) (Sys.init (migrate0005 t)) as = some s)
    (h : inviteTrace ctx (migrate0005 t) as = pre ++ e :: post) {teamId : Uuid}
    (howner : Answered (own e.job pre) (.roleFor teamId user.id) (Except.ok (some .owner))) :
    Owns (migrate0005 t) teamId user.id := by
  obtain ⟨g, hg, howns⟩ := owns_of_answered howner
  obtain ⟨before, after, rfl⟩ := List.append_of_mem hg
  obtain ⟨as₁, m, hm, -, hstate⟩ := run_before hrun
    (h.trans (List.append_assoc before (g :: after) (e :: post)))
  exact (redeemed_run hm).2 teamId user.id (hstate ▸ howns)

/-- Whoever redeemed an invite has redeemed it in the run. -/
theorem redeemer_run (hnone : db.invites.rows = [])
    (hrun : run (inviteNext ctx) (Sys.init db) as = some s) :
    ∀ i ∈ s.state.invites.rows, ∀ id, i.redeemedBy = some id →
      ∃ e ∈ inviteTrace ctx db as, ∃ user invite, e.op = .acceptTx user invite ∧ user.id = id := by
  refine Concurrent.trace_invariant
    (P := fun past x => ∀ i ∈ x.invites.rows, ∀ id, i.redeemedBy = some id →
      ∃ e ∈ past, ∃ user invite, e.op = .acceptTx user invite ∧ user.id = id)
    (handle_follows ctx) ?_ ?_ hrun
  · intro i hi
    rw [hnone] at hi
    cases hi
  · intro past e _ hpast i hi id hid
    have hold : ∀ j ∈ e.before.invites.rows, j.redeemedBy = some id →
        ∃ f ∈ past ++ [e], ∃ user invite, f.op = .acceptTx user invite ∧ user.id = id := by
      intro j hj hjid
      obtain ⟨f, hf, hop⟩ := hpast j hj id hjid
      exact ⟨f, List.mem_append_left _ hf, hop⟩
    rcases entry_cases e with
      hsame | ⟨token, teamId, invitedBy, email, role, expiresAt, now, -, hinsert⟩ |
        ⟨user, found, now, hop, htx⟩
    · exact hold i (hsame ▸ hi) hid
    · rw [(insertInvite_rows hinsert).2.2] at hi
      rcases List.mem_append.mp hi with hi | hi
      · exact hold i hi hid
      · rw [List.mem_singleton.mp hi] at hid
        cases hid
    · rw [acceptTx_invites htx] at hi
      obtain ⟨j, hj, rfl⟩ := List.mem_map.mp hi
      split at hid
      · exact ⟨e, List.mem_append_right _ List.mem_cons_self, user, found, hop,
          Option.some.inj hid⟩
      · exact hold j hj hid

end

/-! ### The foreign keys -/

section
variable {Key : Type} {accounts : UsersContext Key} {ctx : InviteContext} {t : Table users}
  {s : Accounts} {as : List AccountAction}

/-- A user who redeems has an account. -/
theorem hasAccount_of_redemption
    (hrun : run (accountsNext accounts ctx) (.afterMigrations t) as = some s)
    {e : InviteEntry} {user : User} {invite : TeamInvite}
    (he : e ∈ inviteTrace ctx (migrate0005 t) (inviteActions accounts ctx (.afterMigrations t) as))
    (hop : e.op = .acceptTx user invite) :
    HasTeam (migrate0005 t) invite.teamId ∧ HasAccount s.users user.id := by
  have hinvites : run (inviteNext ctx) (Sys.init (migrate0005 t))
      (inviteActions accounts ctx (.afterMigrations t) as) = some s.invites :=
    run_inviteActions hrun
  obtain ⟨pre, post, hsplit⟩ := List.append_of_mem he
  refine ⟨team_of_redemption hinvites hsplit hop, ?_⟩
  have hcause := (Concurrent.lawful_of_trace (handle_follows ctx) hinvites hsplit).allowed
  rw [hop] at hcause
  obtain ⟨token, team, time, hrequest, -⟩ := hcause
  obtain ⟨endpoint, caller, hendpoint, hlet⟩ := letIn_of_entry hrun hsplit
  rw [hrequest] at hendpoint
  cases endpoint with
  | create teamId req => cases hendpoint
  | accept token' =>
    cases hendpoint
    exact hasAccount_of_letIn hrun hlet

/-- An invite is for a team of the backfill, by its owner, who has an account. -/
theorem hasAccount_of_insert
    (hrun : run (accountsNext accounts ctx) (.afterMigrations t) as = some s) {invite : TeamInvite}
    (h : Inserted (inviteTrace ctx (migrate0005 t)
      (inviteActions accounts ctx (.afterMigrations t) as)) invite) :
    HasTeam (migrate0005 t) invite.teamId ∧ HasAccount s.users invite.invitedBy := by
  have hinvites : run (inviteNext ctx) (Sys.init (migrate0005 t))
      (inviteActions accounts ctx (.afterMigrations t) as) = some s.invites :=
    run_inviteActions hrun
  obtain ⟨f, hf, hinsert⟩ := h
  obtain ⟨pre, post, hsplit⟩ := List.append_of_mem hf
  have hcause := (Concurrent.lawful_of_trace (handle_follows ctx) hinvites hsplit).allowed
  rw [hinsert] at hcause
  obtain ⟨owner, req, issued, hcreate, hissue, hby, -⟩ := hcause
  refine ⟨team_of_owner (owns_of_insert hinvites hsplit hissue.owner), ?_⟩
  obtain ⟨endpoint, caller, hendpoint, hlet⟩ := letIn_of_entry hrun hsplit
  rw [hcreate] at hendpoint
  cases endpoint with
  | accept token => cases hendpoint
  | create teamId req' =>
    cases hendpoint
    rw [hby]
    exact hasAccount_of_letIn hrun hlet

/-- A user of the backfill still has the account. -/
theorem hasAccount_of_backfill
    (hrun : run (accountsNext accounts ctx) (.afterMigrations t) as = some s) {team : Team}
    (hteam : team ∈ (migrate0005 t).teams.rows) : HasAccount s.users team.ownerUserId := by
  obtain ⟨u, hu, rfl⟩ := List.mem_map.mp hteam
  obtain ⟨hu, hlive⟩ := List.mem_filter.mp hu
  exact hasAccount_run hrun ⟨u, hu, rfl, of_decide_eq_true hlive⟩

/-- What a membership points at is there. -/
theorem member_points (hrun : run (accountsNext accounts ctx) (.afterMigrations t) as = some s)
    {m : TeamMember} (hm : m ∈ s.invites.state.members.rows) :
    HasTeam (migrate0005 t) m.teamId ∧ HasAccount s.users m.userId := by
  have hinvites : run (inviteNext ctx) (Sys.init (migrate0005 t))
      (inviteActions accounts ctx (.afterMigrations t) as) = some s.invites :=
    run_inviteActions hrun
  rcases (redeemed_run hinvites).1 m hm with hback | ⟨e, he, user, invite, hop, huser, hteam, -⟩
  · obtain ⟨team, hteam, rfl⟩ := List.mem_map.mp hback
    exact ⟨⟨team, hteam, rfl⟩, hasAccount_of_backfill hrun hteam⟩
  · rw [huser, hteam]
    exact hasAccount_of_redemption hrun he hop

/-- In every state of every run of the service after the migrations, the foreign keys of
`teams`, `team_members` and `team_invites` hold: the team of a membership or an invite is there, and the owner of a
team, a member, the issuer of an invite and its redeemer have an account that is not
deleted. -/
theorem references_hold (accounts : UsersContext Key) (ctx : InviteContext) (t : Table users)
    (hrun : run (accountsNext accounts ctx) (.afterMigrations t) as = some s) : References s := by
  have hinvites : run (inviteNext ctx) (Sys.init (migrate0005 t))
      (inviteActions accounts ctx (.afterMigrations t) as) = some s.invites :=
    run_inviteActions hrun
  have hteams : s.invites.state.teams = (migrate0005 t).teams := teams_kept hinvites
  have hinserted : ∀ i ∈ s.invites.state.invites.rows,
      HasTeam (migrate0005 t) i.teamId ∧ HasAccount s.users i.invitedBy :=
    fun i hi => hasAccount_of_insert hrun (inserted_run rfl hinvites i hi)
  have htoTeam : ∀ {id}, HasTeam (migrate0005 t) id → HasTeam s.invites.state id := by
    rintro id ⟨team, hteam, hid⟩
    exact ⟨team, hteams ▸ hteam, hid⟩
  exact
    { owner := fun team hteam => hasAccount_of_backfill hrun (hteams ▸ hteam)
      memberTeam := fun m hm => htoTeam (member_points hrun hm).1
      memberUser := fun m hm => (member_points hrun hm).2
      inviteTeam := fun i hi => htoTeam (hinserted i hi).1
      invitedBy := fun i hi => (hinserted i hi).2
      redeemedBy := by
        intro i hi id hid
        obtain ⟨e, he, user, invite, hop, rfl⟩ := redeemer_run rfl hinvites i hi id hid
        exact (hasAccount_of_redemption hrun he hop).2 }

end

/-- `references_hold` once Bob has joined the team of Alice. -/
theorem references_hold_joining :
    ∃ s, run (accountsNext twoAccounts inviteContext) (.afterMigrations oneUser) joining = some s ∧
      (⟨⟨1⟩, ⟨2⟩, "advisor", 20⟩ : TeamMember) ∈ s.invites.state.members.rows ∧
      s.invites.state.invites.rows ≠ [] ∧ References s := by
  obtain ⟨s, hrun, hm, hinvite⟩ : ∃ s, run (accountsNext twoAccounts inviteContext)
      (.afterMigrations oneUser) joining = some s ∧
        (⟨⟨1⟩, ⟨2⟩, "advisor", 20⟩ : TeamMember) ∈ s.invites.state.members.rows ∧
        s.invites.state.invites.rows ≠ [] := ⟨_, rfl, by decide, by decide⟩
  exact ⟨s, hrun, hm, hinvite, references_hold twoAccounts inviteContext oneUser hrun⟩

end MizanConnect.Proofs.Teams
