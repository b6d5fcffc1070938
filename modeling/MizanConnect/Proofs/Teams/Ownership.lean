import MizanConnect.Lib.Run
import MizanConnect.Teams.Invites

/-!
# `MizanConnect.Proofs.Teams.Ownership`: who keeps the role of the owner

After the backfill of 0005 every team has a membership of its owner with the
role `owner`. `accept_invite` upserts a role over whatever membership the
accepting user has, and nothing keeps an owner from accepting an invite to
the own team. An invite is for `advisor` or `viewer`, so such an accept takes
the role away.

`ownerAccepts` is that case, in terms of the state before the call.
`owners_kept_step` shows that it is the only one, and `owners_kept_iff` says
it for runs.
-/

set_option autoImplicit false

namespace MizanConnect.Proofs.Teams

open MizanConnect.Teams
open MizanConnect.Users (User users)
open Sql (Table)

/-- Every team has a membership of its owner with the role `owner`. -/
def OwnersKept (db : TeamsDb) : Prop :=
  ∀ t ∈ db.teams.rows, ∃ m ∈ db.members.rows,
    m.teamId = t.id ∧ m.userId = t.ownerUserId ∧ m.role = "owner"

/-- The call is an accept, by the owner of the invite's team, of an open
invite to the owner's own address. -/
def ownerAccepts (ctx : InviteContext) (db : TeamsDb) : Call → Prop
  | .accept now token user => ∃ invite team, openInvite db token = some (invite, team) ∧
      now < invite.expiresAt ∧ ctx.toLowercase user.email = invite.email ∧
      user.id = team.ownerUserId
  | _ => False

/-- The backfill leaves every team its owner. -/
theorem owners_kept_migrate0005 (t : Table users) : OwnersKept (migrate0005 t) := by
  intro team hteam
  exact ⟨ownerMembership team, List.mem_map_of_mem hteam, rfl, rfl, rfl⟩

/-! ### The accept transaction -/

section
variable {ctx : InviteContext} {db : TeamsDb} {invite : TeamInvite} {team : Team}
  {token : String}

/-- What `openInvite` finds. -/
theorem openInvite_eq_some (h : openInvite db token = some (invite, team)) :
    invite ∈ db.invites.rows ∧ team ∈ db.teams.rows ∧ team.id = invite.teamId := by
  unfold openInvite at h
  simp only [Option.bind_eq_bind, Option.bind_eq_some_iff, Option.pure_def, Option.some.injEq,
    Prod.mk.injEq] at h
  obtain ⟨i, hi, t, ht, rfl, rfl⟩ := h
  exact ⟨List.mem_of_find?_eq_some hi, List.mem_of_find?_eq_some ht,
    by simpa using List.find?_some ht⟩

/-- An invite is never for the role `owner`. -/
theorem invite_role_cases (hinvite : invite ∈ db.invites.rows) :
    invite.role = "advisor" ∨ invite.role = "viewer" := by
  have hadmitted := db.invites.admitted invite hinvite
  have hmem : invite.role ∈ ["advisor", "viewer"] := by
    by_contra hno
    simp only [teamInvites, if_neg hno] at hadmitted
    cases hadmitted
  simpa using hmem

/-- The membership upsert succeeds, and writes the one membership. -/
theorem upsertMember_ok (t : Table teamMembers) (now : Timestamp) (userId teamId : Uuid)
    (role : String) (hrole : role = "advisor" ∨ role = "viewer") :
    ∃ m t', m.teamId = teamId ∧ m.userId = userId ∧ m.role = role ∧
      t.upsert ⟨teamId, userId, role, now⟩
        (fun m => m.teamId = teamId && m.userId = userId)
        (fun m => { m with role := role }) = .ok t' ∧
      t.write [m] = .ok t' := by
  have hadmitted : ∀ m : TeamMember, m.role = role → teamMembers.violation m = none := by
    intro m hm
    rcases hrole with h | h <;> simp [teamMembers, hm, h]
  by_cases hold : ∃ x ∈ t.rows, x.teamId = teamId ∧ x.userId = userId
  · obtain ⟨x, hx, harb⟩ := hold
    obtain ⟨y, hy, harb', hrows⟩ := Table.upserted_of_conflict
      (⟨teamId, userId, role, now⟩ : TeamMember) (fun m => m.teamId = teamId && m.userId = userId)
      (fun m => { m with role := role }) (hadmitted _ rfl) hx (by simpa using harb)
    obtain ⟨hyteam, hyuser⟩ : y.teamId = teamId ∧ y.userId = userId := by simpa using harb'
    obtain ⟨t', ht'⟩ := t.write_version_ok (w := { y with role := role }) hy rfl
      (hadmitted _ rfl) fun _ h => h
    exact ⟨{ y with role := role }, t', hyteam, hyuser, rfl,
      by rw [Table.upsert, hrows]; exact ht', ht'⟩
  · have harb : ∀ x ∈ t.rows,
        (decide (x.teamId = teamId) && decide (x.userId = userId)) = false := by
      intro x hx
      rw [Bool.eq_false_iff]
      intro h
      exact hold ⟨x, hx, by simpa using h⟩
    have hkey : ∀ x ∈ t.rows, teamMembers.key x ≠ (teamId, userId) := by
      intro x hx h
      exact hold ⟨x, hx, Prod.mk.inj h⟩
    have hrows := Table.upserted_of_new (t := t) (r := (⟨teamId, userId, role, now⟩ : TeamMember))
      (fun m => { m with role := role }) (hadmitted _ rfl) harb hkey
    obtain ⟨t', ht'⟩ := t.write_new_ok (w := (⟨teamId, userId, role, now⟩ : TeamMember)) hkey
      (hadmitted _ rfl) fun _ _ => rfl
    exact ⟨_, t', rfl, rfl, rfl, by rw [Table.upsert, hrows]; exact ht', ht'⟩

/-- The redemption of an invite succeeds. -/
theorem redeem_ok (t : Table teamInvites) (now : Timestamp) (userId : Uuid) (token : String) :
    ∃ t', t.updateWhere (fun i => i.token = token)
      (fun i => { i with redeemedAt := some now, redeemedBy := some userId }) = .ok t' := by
  by_cases hfound : ∃ i ∈ t.rows, i.token = token
  · obtain ⟨i, hi, rfl⟩ := hfound
    have hupdated := t.updated_key hi
      fun i => { i with redeemedAt := some now, redeemedBy := some userId }
    obtain ⟨t', ht'⟩ := t.write_version_ok
      (w := { i with redeemedAt := some now, redeemedBy := some userId }) hi rfl
      (t.admitted i hi) fun _ h => h
    exact ⟨t', by rw [Table.updateWhere, ← ht', ← hupdated]; rfl⟩
  · have hnone : t.updated (fun i => i.token = token)
        (fun i => { i with redeemedAt := some now, redeemedBy := some userId }) = [] := by
      rw [Table.updated, List.map_eq_nil_iff, List.filter_eq_nil_iff]
      intro i hi htoken
      exact hfound ⟨i, hi, by simpa using htoken⟩
    exact ⟨t, by rw [Table.updateWhere, hnone, Table.write_nil]⟩

/-- The transaction of an accept succeeds, keeps the teams, and writes one
membership: that of the accepting user, with the role of the invite. -/
theorem acceptTx_ok (db : TeamsDb) (now : Timestamp) (user : User)
    (hrole : invite.role = "advisor" ∨ invite.role = "viewer") :
    ∃ db' m, acceptTx now user invite db = .ok db' ∧ db'.teams = db.teams ∧
      m.teamId = invite.teamId ∧ m.userId = user.id ∧ m.role = invite.role ∧
      db.members.write [m] = .ok db'.members := by
  obtain ⟨invites', hinvites⟩ := redeem_ok db.invites now user.id invite.token
  obtain ⟨m, members', hteam, huser, hmrole, hupsert, hwrite⟩ :=
    upsertMember_ok db.members now user.id invite.teamId invite.role hrole
  exact ⟨{ db with members := members', invites := invites' }, m,
    by simp [acceptTx, hupsert, hinvites, bind, Except.bind, pure, Except.pure],
    rfl, hteam, huser, hmrole, hwrite⟩

/-- Writing the membership of a user in a team keeps every owner exactly when
the role is `owner` or the user does not own that team. -/
theorem owners_kept_write {db' : TeamsDb} {m : TeamMember} (hkept : OwnersKept db)
    (hteam : team ∈ db.teams.rows) (hid : team.id = m.teamId) (hteams : db'.teams = db.teams)
    (hwrite : db.members.write [m] = .ok db'.members) (hrole : m.role ≠ "owner") :
    OwnersKept db' ↔ m.userId ≠ team.ownerUserId := by
  constructor
  · intro hkept' howner
    obtain ⟨x, hx, hxteam, hxuser, hxrole⟩ := hkept' team (hteams ▸ hteam)
    rcases (Table.mem_write_singleton hwrite).mp hx with rfl | ⟨-, hne⟩
    · exact hrole hxrole
    · exact hne (Prod.ext (hxteam.trans hid) (hxuser.trans howner.symm))
  · intro hother t ht
    rw [hteams] at ht
    obtain ⟨x, hx, hxteam, hxuser, hxrole⟩ := hkept t ht
    refine ⟨x, (Table.mem_write_singleton hwrite).mpr (Or.inr ⟨hx, fun hkey => ?_⟩),
      hxteam, hxuser, hxrole⟩
    obtain ⟨hkteam, hkuser⟩ : x.teamId = m.teamId ∧ x.userId = m.userId := Prod.mk.inj hkey
    cases db.teams.eq_of_key ht hteam (hxteam.symm.trans (hkteam.trans hid.symm))
    exact hother (hkuser.symm.trans hxuser)

/-! ### One call -/

/-- A created invite changes neither the teams nor the members. -/
theorem createInvite_frame {now : Timestamp} {user : User} {teamId : Uuid}
    {req : CreateInviteRequest} {out : InviteResponse × TeamsDb}
    (h : createInvite ctx now token user teamId req db = .ok out) :
    out.2.teams = db.teams ∧ out.2.members = db.members := by
  unfold createInvite at h
  obtain ⟨-, -, h⟩ := except_bind_eq_ok.mp h
  obtain ⟨-, -, h⟩ := except_bind_eq_ok.mp h
  split at h
  · cases h
  · obtain ⟨invites, -, h⟩ := except_bind_eq_ok.mp h
    cases h
    exact ⟨rfl, rfl⟩

/-- An accept of an invite that is found. -/
theorem ownerAccepts_accept_iff {now : Timestamp} {user : User}
    (hopen : openInvite db token = some (invite, team)) :
    ownerAccepts ctx db (.accept now token user) ↔
      now < invite.expiresAt ∧ ctx.toLowercase user.email = invite.email ∧
        user.id = team.ownerUserId := by
  constructor
  · rintro ⟨i, tm, hfound, hrest⟩
    cases hopen.symm.trans hfound
    exact hrest
  · intro hrest
    exact ⟨invite, team, hopen, hrest⟩

/-- One call keeps the owners of all teams exactly when it is no accept by
the owner of the invite's team. -/
theorem owners_kept_step {db' : TeamsDb} (call : Call) (hkept : OwnersKept db)
    (hnext : next ctx db call = some db') : OwnersKept db' ↔ ¬ ownerAccepts ctx db call := by
  cases hnext
  cases call with
  | create now token user teamId req =>
    refine iff_of_true ?_ id
    simp only [Call.apply]
    cases hcreate : createInvite ctx now token user teamId req db with
    | error e => exact hkept
    | ok out =>
      obtain ⟨hteams, hmembers⟩ := createInvite_frame hcreate
      show OwnersKept out.2
      rw [OwnersKept, hteams, hmembers]
      exact hkept
  | get now token => exact iff_of_true hkept id
  | accept now token user =>
    cases hopen : openInvite db token with
    | none =>
      simp only [Call.apply, acceptInvite, ownerAccepts, hopen]
      exact iff_of_true hkept (by simp)
    | some found =>
      obtain ⟨invite, team⟩ := found
      obtain ⟨hinvite, hteam, hid⟩ := openInvite_eq_some hopen
      rw [ownerAccepts_accept_iff hopen]
      simp only [Call.apply, acceptInvite, hopen]
      by_cases hexpired : invite.expiresAt ≤ now
      · rw [if_pos hexpired]
        exact iff_of_true hkept fun h => absurd h.1 (Int.not_lt.mpr hexpired)
      by_cases hemail : ctx.toLowercase user.email = invite.email
      · obtain ⟨db', m, htx, hteams, hmteam, hmuser, hmrole, hwrite⟩ :=
          acceptTx_ok db now user (invite_role_cases hinvite)
        have hrole : m.role ≠ "owner" := by
          rw [hmrole]
          rcases invite_role_cases hinvite with h | h <;> rw [h] <;> decide
        have hkeeps := owners_kept_write hkept hteam (hid.trans hmteam.symm) hteams hwrite hrole
        simp only [if_neg hexpired, hemail, ne_eq, not_true, if_false, htx, ofStatement,
          Except.mapError, bind, Except.bind, true_and]
        rw [hkeeps, hmuser]
        exact ⟨fun hne h => hne h.2, fun h howner => h ⟨Int.not_le.mp hexpired, howner⟩⟩
      · rw [if_neg hexpired, if_pos hemail]
        exact iff_of_true hkept fun h => hemail h.2.1

end

/-! ### Runs -/

/-- From the state that 0005 leaves, every team keeps its owner throughout a
run of calls exactly when no call of the run is an accept by the owner of the
invite's team. -/
theorem owners_kept_iff (ctx : InviteContext) (t : Table users) (calls : List Call) :
    Transition.Always (next ctx) OwnersKept (migrate0005 t) calls ↔
      Transition.Along (next ctx) (fun db call => ¬ ownerAccepts ctx db call) (migrate0005 t)
        calls :=
  Transition.always_iff_along (fun _ _ => ⟨_, rfl⟩)
    (fun _ call _ hkept hnext => owners_kept_step call hkept hnext)
    (owners_kept_migrate0005 t) calls

/-! ### An owner accepts -/

def inviteContext : InviteContext where
  validEmail _ := .ok ()
  toLowercase s := toAsciiLowercase s
  formatRfc3339 _ := none
  appPublicUrl := none
  sendEmail _ _ := false

def owner : User := ⟨⟨1⟩, ⟨1⟩, "Alice@example.com", some "Alice", none, 0, 0, none⟩

def oneUser : Table users := ⟨[owner], by simp [users], by simp, by simp⟩

/-- The owner invites the own address as a viewer and accepts. -/
def selfInvite : List Call :=
  [.create 10 "token" owner owner.id ⟨"alice@example.com", "viewer"⟩, .accept 20 "token" owner]

/-- The owner of the team is left with the role `viewer`. -/
theorem owner_demotes_own_team :
    ∃ db, Transition.run (next inviteContext) (migrate0005 oneUser) selfInvite = some db ∧
      db.teams.rows = [soloTeam owner] ∧ db.members.rows = [⟨owner.id, owner.id, "viewer", 0⟩] ∧
      ¬ OwnersKept db := by
  obtain ⟨db, hrun, hteams, hmembers⟩ : ∃ db,
      Transition.run (next inviteContext) (migrate0005 oneUser) selfInvite = some db ∧
        db.teams.rows = [soloTeam owner] ∧
        db.members.rows = [⟨owner.id, owner.id, "viewer", 0⟩] :=
    ⟨_, rfl, by decide, by decide⟩
  refine ⟨db, hrun, hteams, hmembers, fun hkept => ?_⟩
  obtain ⟨m, hm, -, -, hrole⟩ := hkept (soloTeam owner) (by simp [hteams])
  rw [hmembers, List.mem_singleton] at hm
  rw [hm] at hrole
  exact absurd hrole (by decide)

end MizanConnect.Proofs.Teams
