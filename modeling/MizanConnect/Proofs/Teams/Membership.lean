import MizanConnect.Lib.Traced
import MizanConnect.Proofs.Teams.TeamIdentity

/-!
# `MizanConnect.Proofs.Teams.Membership`: where a membership comes from

Requests of all users run side by side, and any statement may fail. `InviteCause`
says what a handler has done before it writes: the INSERT of an invite comes after
the role of the caller was read as `owner`, and a redemption after the invite was
found open, unexpired and for the caller's address. `handle_follows` is the one
walk over the two handlers.

Two invariants over the operations of a run then lead from a membership back to
its redemption (`redeemed_run`) and from an invite back to its INSERT
(`inserted_run`). `membership_provenance` puts the chain together, up to the tokens
that the two users came in with.
-/

set_option autoImplicit false

namespace MizanConnect.Proofs.Teams

open Concurrent (Action Event Lawful Leads Performed Program Sys leads_error leads_perform
  leads_value mem_own own trace)
open MizanConnect.Auth (SupabaseClaims claimsOf)
open MizanConnect.Teams
open MizanConnect.Users (User UsersContext authenticate users)
open Sql (Table)
open Transition (run)

/-! ### Causes -/

/-- The operation has been performed, with this answer. -/
def Answered (h : List (Event Op Op.Answer)) (o : Op) (x : o.Answer) : Prop :=
  (⟨o, x⟩ : Event Op Op.Answer) ∈ h

/-- What comes before the INSERT of an invite. -/
structure InsertCause (ctx : InviteContext) (h : List (Event Op Op.Answer)) (user : User)
    (teamId : Uuid) (req : CreateInviteRequest) (time : Timestamp) : Prop where
  valid : ctx.validEmail req.email = .ok ()
  owner : Answered h (.roleFor teamId user.id) (Except.ok (some .owner))
  role : req.role = "advisor" ∨ req.role = "viewer"
  clock : Answered h .now time

/-- What comes before the transaction of an accept. -/
structure RedeemCause (ctx : InviteContext) (h : List (Event Op Op.Answer)) (user : User)
    (token : String) (invite : TeamInvite) (team : Team) (time : Timestamp) : Prop where
  found : Answered h (.openInvite token) (Except.ok (some (invite, team)))
  clock : Answered h .now time
  unexpired : time < invite.expiresAt
  email : ctx.toLowercase user.email = invite.email

/-- What a request has done before it writes. -/
def InviteCause (ctx : InviteContext) (r : Request) (h : List (Event Op Op.Answer)) : Op → Prop
  | .insertInvite _ teamId invitedBy email role expiresAt => ∃ user req time,
      r = .create user teamId req ∧ InsertCause ctx h user teamId req time ∧
        invitedBy = user.id ∧ email = ctx.toLowercase (trim req.email) ∧ role = req.role ∧
        expiresAt = time + inviteTtl
  | .acceptTx user invite => ∃ token team time,
      r = .accept user token ∧ RedeemCause ctx h user token invite team time
  | _ => True

section
variable {ctx : InviteContext} {user : User} {h : List (Event Op Op.Answer)}

theorem Answered.mono {h' : List (Event Op Op.Answer)} {o : Op} {x : o.Answer}
    (hx : Answered h o x) (hsub : h ⊆ h') : Answered h' o x := hsub hx

/-- The last operation of a history. -/
theorem answered_last (o : Op) (x : o.Answer) : Answered (h ++ [⟨o, x⟩]) o x :=
  List.mem_append_right _ List.mem_cons_self

theorem leads_roleFor {r : Request} {teamId userId : Uuid} :
    Leads (InviteCause ctx r) (Handler.roleFor teamId userId) h fun h' role =>
      Answered h' (.roleFor teamId userId) (Except.ok role) := by
  refine leads_perform trivial fun x role hx => ?_
  cases hx
  exact answered_last _ _

theorem leads_openInvite {r : Request} {token : String} :
    Leads (InviteCause ctx r) (Handler.openInvite token) h fun h' found =>
      Answered h' (.openInvite token) (Except.ok found) := by
  refine leads_perform trivial fun x found hx => ?_
  cases hx
  exact answered_last _ _

theorem leads_now {r : Request} :
    Leads (InviteCause ctx r) Handler.now h fun h' time => Answered h' .now time := by
  refine leads_perform trivial fun x time hx => ?_
  cases hx
  exact answered_last _ _

/-- An operation whose answer does not matter. -/
theorem leads_step {r : Request} {o : Op} {α : Type}
    {k : o.Answer → Program Op Op.Answer (Except AppError α)} (ho : InviteCause ctx r h o)
    (hk : ∀ x, ∃ y, k x = .done y) :
    Leads (InviteCause ctx r) (Program.perform o k : Handler α) h fun _ _ => True := by
  refine leads_perform ho fun x => ?_
  obtain ⟨y, hy⟩ := hk x
  rw [hy]
  exact fun _ _ => trivial

theorem leads_ofExcept {r : Request} {α : Type} {x : Except AppError α} :
    Leads (InviteCause ctx r) (Handler.ofExcept x) h fun _ a => x = .ok a :=
  fun _ ha => ha

/-- What `create_invite` has learnt when its checks are over. -/
theorem leads_checkCreate {teamId : Uuid} {req : CreateInviteRequest} :
    Leads (InviteCause ctx (.create user teamId req)) (Handler.checkCreate ctx user teamId req) h
      fun h' _ => ctx.validEmail req.email = .ok () ∧
        Answered h' (.roleFor teamId user.id) (Except.ok (some .owner)) ∧
        (req.role = "advisor" ∨ req.role = "viewer") := by
  unfold Handler.checkCreate
  refine Leads.bind leads_ofExcept fun _ h₁ _ hvalid => ?_
  refine Leads.bind leads_roleFor fun role h₂ _ hrole => ?_
  refine Leads.bind leads_ofExcept fun _ h₃ hsub howner => ?_
  rw [requireOwner_eq_ok howner] at hrole
  by_cases hother : req.role ≠ "advisor" ∧ req.role ≠ "viewer"
  · rw [if_pos hother]
    exact leads_error
  · rw [if_neg hother]
    refine leads_value ⟨mapError_eq_ok.mp hvalid, hrole.mono hsub, ?_⟩
    by_contra hno
    exact hother (not_or.mp hno)

theorem createInvite_leads (teamId : Uuid) (req : CreateInviteRequest) :
    Leads (InviteCause ctx (.create user teamId req)) (Handler.createInvite ctx user teamId req) []
      fun _ _ => True := by
  unfold Handler.createInvite
  refine Leads.bind leads_checkCreate fun _ h₁ _ hchecks => ?_
  obtain ⟨hvalid, howner, hrole⟩ := hchecks
  refine Leads.bind (leads_step trivial fun x => ⟨_, rfl⟩) fun token h₂ hsub₂ _ => ?_
  refine Leads.bind leads_now fun time h₃ hsub₃ hclock => ?_
  refine Leads.bind (leads_step ?_ fun x => ⟨_, rfl⟩) fun _ h₄ _ _ => ?_
  · exact ⟨user, req, time, rfl,
      ⟨hvalid, (howner.mono hsub₂).mono hsub₃, hrole, hclock⟩, rfl, rfl, rfl, rfl⟩
  · exact Leads.bind (leads_step trivial fun x => ⟨_, rfl⟩) fun _ _ _ _ => leads_value trivial

theorem acceptInvite_leads (token : String) :
    Leads (InviteCause ctx (.accept user token)) (Handler.acceptInvite ctx user token) []
      fun _ _ => True := by
  unfold Handler.acceptInvite
  refine Leads.bind leads_openInvite fun found h₁ _ hfound => ?_
  cases found with
  | none => exact leads_error
  | some pair =>
    obtain ⟨invite, team⟩ := pair
    show Leads _ (Handler.acceptFound ctx user invite team) _ _
    unfold Handler.acceptFound
    refine Leads.bind leads_now fun time h₂ hsub hclock => ?_
    by_cases hexpired : invite.expiresAt ≤ time
    · rw [if_pos hexpired]
      exact leads_error
    rw [if_neg hexpired]
    by_cases hemail : ctx.toLowercase user.email ≠ invite.email
    · rw [if_pos hemail]
      exact leads_error
    rw [if_neg hemail]
    refine Leads.bind (leads_step ?_ fun x => ⟨_, rfl⟩) fun _ _ _ _ => leads_value trivial
    exact ⟨token, team, time, rfl,
      ⟨hfound.mono hsub, hclock, Int.not_le.mp hexpired, not_not.mp hemail⟩⟩

/-- Every request writes only after its cause. -/
theorem handle_follows (ctx : InviteContext) (r : Request) :
    (handle ctx r).run.Follows (InviteCause ctx r) (fun _ _ => True) [] := by
  have hleads : Leads (InviteCause ctx r) (handle ctx r) [] fun _ _ => True := by
    cases r with
    | create user teamId req => exact Leads.map (createInvite_leads teamId req)
    | accept user token => exact Leads.map (acceptInvite_leads token)
  exact Program.Follows.imp hleads fun _ _ _ => trivial

end

/-! ### Operations of a run -/

/-- An operation of a run. -/
abbrev InviteEntry := Performed inviteService Request

/-- The operations of a run. -/
abbrev inviteTrace (ctx : InviteContext) (db : TeamsDb)
    (as : List (Action inviteService Request)) : List InviteEntry :=
  trace (fun r => (handle ctx r).run) (Sys.init db) as

/-- The invite is one that an INSERT of the run has written. -/
def Inserted (past : List InviteEntry) (invite : TeamInvite) : Prop :=
  ∃ f ∈ past, f.op = .insertInvite invite.token invite.teamId invite.invitedBy invite.email
    invite.role invite.expiresAt

/-- The membership is one that a redemption of the run has written. -/
def RedeemedBy (past : List InviteEntry) (m : TeamMember) : Prop :=
  ∃ e ∈ past, ∃ user invite, e.op = .acceptTx user invite ∧ m.userId = user.id ∧
    m.teamId = invite.teamId ∧ m.role = invite.role

section
variable {ctx : InviteContext} {db : TeamsDb} {as : List (Action inviteService Request)}
  {s : InviteSys} {pre post past : List InviteEntry} {e : InviteEntry}

theorem Inserted.mono {invite : TeamInvite} (h : Inserted past invite) {later : List InviteEntry}
    (hsub : past ⊆ later) : Inserted later invite := by
  obtain ⟨f, hf, hop⟩ := h
  exact ⟨f, hsub hf, hop⟩

theorem RedeemedBy.mono {m : TeamMember} (h : RedeemedBy past m) {later : List InviteEntry}
    (hsub : past ⊆ later) : RedeemedBy later m := by
  obtain ⟨f, hf, hrest⟩ := h
  exact ⟨f, hsub hf, hrest⟩

/-- An operation leaves the tables, adds its invite, or redeems its invite. -/
theorem entry_cases (e : InviteEntry) :
    e.after = e.before ∨
    (∃ token teamId invitedBy email role expiresAt now,
      e.op = .insertInvite token teamId invitedBy email role expiresAt ∧
      insertInvite e.before token teamId invitedBy email role expiresAt now = .ok e.after) ∨
    ∃ user invite now, e.op = .acceptTx user invite ∧
      acceptTx now user invite e.before = .ok e.after := by
  obtain ⟨job, request, db, o, input⟩ := e
  cases o with
  | insertInvite token teamId invitedBy email role expiresAt =>
    obtain ⟨answer, db', hwrite, ⟨hdb, -⟩ | ⟨⟨now, hinsert⟩, -⟩⟩ := Attempt.write_unit_cases input
      db (insertInvite db token teamId invitedBy email role expiresAt)
    · exact Or.inl ((congrArg Prod.snd hwrite).trans hdb)
    · exact Or.inr (Or.inl ⟨token, teamId, invitedBy, email, role, expiresAt, now, rfl,
        hinsert.trans (congrArg Except.ok (congrArg Prod.snd hwrite).symm)⟩)
  | acceptTx user invite =>
    obtain ⟨answer, db', hwrite, ⟨hdb, -⟩ | ⟨⟨now, htx⟩, -⟩⟩ := Attempt.write_unit_cases input
      db (acceptTx · user invite db)
    · exact Or.inl ((congrArg Prod.snd hwrite).trans hdb)
    · exact Or.inr (Or.inr ⟨user, invite, now, rfl,
        htx.trans (congrArg Except.ok (congrArg Prod.snd hwrite).symm)⟩)
  | _ => exact Or.inl rfl

/-- What a lookup of a job has found was in the table. -/
theorem mem_of_found {i : Nat} {token : String} {invite : TeamInvite} {team : Team}
    (h : Answered (own i past) (.openInvite token) (Except.ok (some (invite, team)))) :
    ∃ k ∈ past, invite ∈ k.before.invites.rows ∧ invite.token = token := by
  obtain ⟨⟨job, request, db, o, input⟩, hk, -, hevent⟩ := mem_own h
  obtain ⟨rfl, hanswer⟩ := Sigma.mk.inj hevent
  have hopen : some (invite, team) = openInvite db token :=
    Attempt.query_eq_ok (eq_of_heq hanswer)
  exact ⟨_, hk, (openInvite_eq_some hopen.symm).1, (openInvite_key hopen.symm).1⟩

/-- Whom a lookup of a job has found to be an owner is one. -/
theorem owns_of_answered {i : Nat} {teamId userId : Uuid}
    (h : Answered (own i past) (.roleFor teamId userId) (Except.ok (some .owner))) :
    ∃ g ∈ past, Owns g.before teamId userId := by
  obtain ⟨⟨job, request, db, o, input⟩, hg, -, hevent⟩ := mem_own h
  obtain ⟨rfl, hanswer⟩ := Sigma.mk.inj hevent
  have hrole : some TeamRole.owner = roleFor db.members teamId userId :=
    Attempt.query_eq_ok (eq_of_heq hanswer)
  exact ⟨_, hg, owns_of_roleFor hrole.symm⟩

/-- A redemption is of an invite for `advisor` or `viewer`. -/
theorem redeem_role (hlawful : Lawful (InviteCause ctx) past e) {user : User} {invite : TeamInvite}
    (hop : e.op = .acceptTx user invite) : invite.role = "advisor" ∨ invite.role = "viewer" := by
  have hcause := hlawful.allowed
  rw [hop] at hcause
  obtain ⟨token, team, time, -, hredeem⟩ := hcause
  obtain ⟨k, -, hinvite, -⟩ := mem_of_found hredeem.found
  exact invite_role_cases hinvite

/-! ### Two invariants -/

/-- Every invite of a run was inserted in it. -/
theorem inserted_run (hnone : db.invites.rows = [])
    (hrun : run (inviteNext ctx) (Sys.init db) as = some s) :
    ∀ invite ∈ s.state.invites.rows, Inserted (inviteTrace ctx db as) invite := by
  refine Concurrent.trace_invariant
    (P := fun past x => ∀ invite ∈ x.invites.rows, Inserted past invite)
    (handle_follows ctx) ?_ ?_ hrun
  · intro invite hinvite
    rw [hnone] at hinvite
    cases hinvite
  · intro past e _ hpast invite hinvite
    have hold : ∀ i ∈ e.before.invites.rows, Inserted (past ++ [e]) i := fun i hi =>
      (hpast i hi).mono (List.subset_append_left past _)
    rcases entry_cases e with
      hsame | ⟨token, teamId, invitedBy, email, role, expiresAt, now, hop, hinsert⟩ |
        ⟨user, found, now, hop, htx⟩
    · exact hold invite (hsame ▸ hinvite)
    · rw [(insertInvite_rows hinsert).2.2] at hinvite
      rcases List.mem_append.mp hinvite with hinvite | hinvite
      · exact hold invite hinvite
      · rw [List.mem_singleton.mp hinvite]
        exact ⟨e, List.mem_append_right _ List.mem_cons_self, hop⟩
    · -- A redemption keeps what the INSERT has bound.
      rw [acceptTx_invites htx] at hinvite
      obtain ⟨old, hmem, rfl⟩ := List.mem_map.mp hinvite
      obtain ⟨f, hf, hinsert⟩ := hold old hmem
      refine ⟨f, hf, ?_⟩
      split <;> exact hinsert

/-- Every membership of a run was there before it or is one of a redemption in it,
and nobody becomes an owner. -/
theorem redeemed_run (hrun : run (inviteNext ctx) (Sys.init db) as = some s) :
    (∀ m ∈ s.state.members.rows, m ∈ db.members.rows ∨ RedeemedBy (inviteTrace ctx db as) m) ∧
      ∀ teamId userId, Owns s.state teamId userId → Owns db teamId userId := by
  refine Concurrent.trace_invariant
    (P := fun past x => (∀ m ∈ x.members.rows, m ∈ db.members.rows ∨ RedeemedBy past m) ∧
      ∀ teamId userId, Owns x teamId userId → Owns db teamId userId)
    (handle_follows ctx) ⟨fun m hm => Or.inl hm, fun _ _ h => h⟩ ?_ hrun
  rintro past e hlawful ⟨hpast, howners⟩
  have hold : ∀ m ∈ e.before.members.rows, m ∈ db.members.rows ∨ RedeemedBy (past ++ [e]) m :=
    fun m hm => (hpast m hm).imp_right fun h => h.mono (List.subset_append_left past _)
  rcases entry_cases e with
    hsame | ⟨token, teamId, invitedBy, email, role, expiresAt, now, -, hinsert⟩ |
      ⟨user, invite, now, hop, htx⟩
  · rw [hsame]
    exact ⟨hold, howners⟩
  · have hmembers := (insertInvite_rows hinsert).2.1
    unfold Owns
    rw [hmembers]
    exact ⟨hold, howners⟩
  · have hrole := redeem_role hlawful hop
    obtain ⟨-, written, hteam, huser, hwrole, hwrite⟩ := acceptTx_members hrole htx
    constructor
    · intro m hm
      rcases (Table.mem_write_singleton hwrite).mp hm with rfl | ⟨hm, -⟩
      · exact Or.inr ⟨e, List.mem_append_right _ List.mem_cons_self, user, invite, hop, huser,
          hteam, hwrole⟩
      · exact hold m hm
    · intro teamId userId howns
      have hnot : written.role ≠ "owner" := by
        rw [hwrole]
        rcases hrole with h | h <;> rw [h] <;> decide
      exact howners teamId userId ((owns_write_iff hnot hwrite).mp howns).1

end

/-! ### Requests of the service -/

/-- What a step of the service is to the two handlers. -/
def inviteAction {Key : Type} (accounts : UsersContext Key) (s : Accounts) :
    AccountAction → List (Action inviteService Request)
  | .serve _ => []
  | .arrive req endpoint =>
    match authenticate accounts req s.users with
    | .error _ => []
    | .ok (_, user) => [.spawn (endpoint.request user)]
  | .advance i input => [.advance i input]

/-- The same for the steps of a run. -/
def inviteActions {Key : Type} (accounts : UsersContext Key) (ctx : InviteContext) (s : Accounts) :
    List AccountAction → List (Action inviteService Request)
  | [] => []
  | a :: as => inviteAction accounts s a ++
      match accountsNext accounts ctx s a with
      | some s' => inviteActions accounts ctx s' as
      | none => []

/-- The user has come in to the endpoint, by a token for the account that carries
the address of the account. -/
def LetIn {Key : Type} (accounts : UsersContext Key) (ctx : InviteContext) (s : Accounts)
    (as : List AccountAction) (endpoint : Endpoint) (user : User) : Prop :=
  ∃ pre req post before t claims, as = pre ++ .arrive req endpoint :: post ∧
    run (accountsNext accounts ctx) s pre = some before ∧
    authenticate accounts req before.users = .ok (t, user) ∧
    claimsOf accounts.jwt req.authorization = .ok claims ∧
    accounts.parseUuid claims.sub = some user.supabaseUserId ∧ claims.email = some user.email

section
variable {Key : Type} {accounts : UsersContext Key} {ctx : InviteContext} {s s' : Accounts}
  {as : List AccountAction}

/-- The account of a request is that of its token, under the address of the
token. -/
theorem authenticate_claims {req : Users.Request} {u u' : Table users} {user : User}
    (h : authenticate accounts req u = .ok (u', user)) :
    ∃ claims, claimsOf accounts.jwt req.authorization = .ok claims ∧
      accounts.parseUuid claims.sub = some user.supabaseUserId ∧
      claims.email = some user.email := by
  obtain ⟨claims, hclaims, hupsert⟩ := except_bind_eq_ok.mp h
  refine ⟨claims, hclaims, ?_⟩
  unfold Auth.upsertUserFromClaims at hupsert
  cases hsub : accounts.parseUuid claims.sub with
  | none => simp [hsub] at hupsert
  | some supabaseUserId =>
    rw [hsub] at hupsert
    obtain ⟨email, hemail, hupsert⟩ := except_bind_eq_ok.mp hupsert
    have hclaim : claims.email = some email := by
      unfold SupabaseClaims.emailRequired at hemail
      cases hmail : claims.email with
      | none => simp [hmail] at hemail
      | some found =>
        rw [hmail] at hemail
        cases hemail
        rfl
    split at hupsert
    · obtain ⟨-, ⟨old, -, hold, rfl⟩ | ⟨-, rfl, -⟩⟩ :=
        Users.upsertUser_ok (mapError_eq_ok.mp hupsert)
      · exact ⟨congrArg some hold.symm, hclaim⟩
      · exact ⟨rfl, hclaim⟩
    · cases hupsert

/-- The two handlers move as the service does. -/
theorem run_inviteAction {a : AccountAction} (h : accountsNext accounts ctx s a = some s') :
    run (inviteNext ctx) s.invites (inviteAction accounts s a) = some s'.invites := by
  cases a with
  | serve req =>
    cases h
    rfl
  | arrive req endpoint =>
    simp only [accountsNext] at h
    simp only [inviteAction]
    cases hauth : authenticate accounts req s.users with
    | error e =>
      rw [hauth] at h
      cases h
      rfl
    | ok out =>
      rw [hauth] at h
      obtain ⟨invites, hspawn, rfl⟩ := Option.map_eq_some_iff.mp h
      exact Transition.run_cons_eq_some.mpr ⟨invites, hspawn, Transition.run_nil _⟩
  | advance i input =>
    obtain ⟨invites, hnext, rfl⟩ := Option.map_eq_some_iff.mp h
    exact Transition.run_cons_eq_some.mpr ⟨invites, hnext, Transition.run_nil _⟩

theorem run_inviteActions (hrun : run (accountsNext accounts ctx) s as = some s') :
    run (inviteNext ctx) s.invites (inviteActions accounts ctx s as) = some s'.invites := by
  induction as generalizing s with
  | nil =>
    cases hrun
    rfl
  | cons a as ih =>
    obtain ⟨m, hm, hrest⟩ := Transition.run_cons_eq_some.mp hrun
    simp only [inviteActions, hm]
    exact Transition.run_append.mpr ⟨m.invites, run_inviteAction hm, ih hrest⟩

/-- Every request of a handler has come in through the extractor. -/
theorem letIn_of_spawn (hrun : run (accountsNext accounts ctx) s as = some s') {r : Request}
    (hr : .spawn r ∈ inviteActions accounts ctx s as) :
    ∃ endpoint user, r = endpoint.request user ∧ LetIn accounts ctx s as endpoint user := by
  induction as generalizing s with
  | nil => cases hr
  | cons a as ih =>
    obtain ⟨m, hm, hrest⟩ := Transition.run_cons_eq_some.mp hrun
    simp only [inviteActions, hm] at hr
    rcases List.mem_append.mp hr with hr | hr
    · cases a with
      | serve req => cases hr
      | arrive req endpoint =>
        cases hauth : authenticate accounts req s.users with
        | error e => simp [inviteAction, hauth] at hr
        | ok out =>
          obtain ⟨t, user⟩ := out
          simp only [inviteAction, hauth, List.mem_singleton, Action.spawn.injEq] at hr
          obtain ⟨claims, hclaims⟩ := authenticate_claims hauth
          exact ⟨endpoint, user, hr, [], req, as, s, t, claims, rfl, rfl, hauth, hclaims⟩
      | advance i input => simp [inviteAction] at hr
    · obtain ⟨endpoint, user, hreq, pre, req, post, before, t, claims, rfl, hpre, hlet⟩ :=
        ih hrest hr
      exact ⟨endpoint, user, hreq, a :: pre, req, post, before, t, claims, rfl,
        Transition.run_cons_eq_some.mpr ⟨m, hm, hpre⟩, hlet⟩

end

/-! ### The chain of a membership -/

/-- The membership was earned: the owner of the team has issued an invite for an
address and a role, and the member has redeemed it in time, with a token that
carries the address. `first` and `redemption` are the two writes. -/
structure Earned {Key : Type} (accounts : UsersContext Key) (ctx : InviteContext) (start : Accounts)
    (as : List AccountAction) (m : TeamMember) (owner member : User) (req : CreateInviteRequest)
    (token : String) (issued redeemed : Timestamp) : Prop where
  issuer : LetIn accounts ctx start as (.create m.teamId req) owner
  ownTeam : owner.id = m.teamId
  redeemer : LetIn accounts ctx start as (.accept token) member
  toMember : member.id = m.userId
  role : m.role = req.role
  grantable : req.role = "advisor" ∨ req.role = "viewer"
  address : ctx.toLowercase member.email = ctx.toLowercase (trim req.email)
  inTime : redeemed < issued + inviteTtl
  writes : ∃ pre first mid redemption post,
    inviteTrace ctx start.invites.state (inviteActions accounts ctx start as)
      = pre ++ first :: (mid ++ redemption :: post) ∧
    first.request = .create owner m.teamId req ∧
    first.op = .insertInvite token m.teamId owner.id (ctx.toLowercase (trim req.email)) req.role
      (issued + inviteTtl) ∧
    Answered (own first.job pre) .now issued ∧
    redemption.request = .accept member token ∧
    (∃ invite, redemption.op = .acceptTx member invite ∧ invite.token = token) ∧
    Answered (own redemption.job (pre ++ first :: mid)) .now redeemed

section
variable {Key : Type} {accounts : UsersContext Key} {ctx : InviteContext} {t : Table users}
  {s : Accounts} {as : List AccountAction}

/-- The backfill makes a user the owner of the team with the own id. -/
theorem backfill_member {m : TeamMember} (hm : m ∈ (migrate0005 t).members.rows) :
    m.userId = m.teamId ∧ m.role = "owner" := by
  obtain ⟨team, hteam, rfl⟩ := List.mem_map.mp hm
  obtain ⟨u, -, rfl⟩ := List.mem_map.mp hteam
  exact ⟨rfl, rfl⟩

theorem owner_id_of_owns {teamId userId : Uuid} (h : Owns (migrate0005 t) teamId userId) :
    userId = teamId := by
  obtain ⟨m, hm, rfl, rfl, -⟩ := h
  exact (backfill_member hm).1

/-- The request of an operation has come in through the extractor. -/
theorem letIn_of_entry (hrun : run (accountsNext accounts ctx) (.afterMigrations t) as = some s)
    {pre post : List InviteEntry} {e : InviteEntry}
    (h : inviteTrace ctx (migrate0005 t) (inviteActions accounts ctx (.afterMigrations t) as)
      = pre ++ e :: post) :
    ∃ endpoint user, e.request = endpoint.request user ∧
      LetIn accounts ctx (.afterMigrations t) as endpoint user := by
  have hinvites : run (inviteNext ctx) (Sys.init (migrate0005 t))
      (inviteActions accounts ctx (.afterMigrations t) as) = some s.invites :=
    run_inviteActions hrun
  obtain ⟨as₁, as₂, hsplit, -⟩ := Concurrent.trace_asked hinvites h
  refine letIn_of_spawn hrun ?_
  rw [hsplit]
  exact List.mem_append_right _ List.mem_cons_self

/-- The state before an operation of a run is that of a run. -/
theorem run_before {s : InviteSys} {db : TeamsDb} {as : List (Action inviteService Request)}
    {pre post : List InviteEntry} {e : InviteEntry}
    (hrun : run (inviteNext ctx) (Sys.init db) as = some s)
    (h : inviteTrace ctx db as = pre ++ e :: post) :
    ∃ as₁ m, run (inviteNext ctx) (Sys.init db) as₁ = some m ∧ inviteTrace ctx db as₁ = pre ∧
      m.state = e.before := by
  obtain ⟨as₁, as₂, m, k, -, hm, hpre, hstate, -⟩ := Concurrent.trace_split hrun h
  exact ⟨as₁, m, hm, hpre, hstate⟩

/-- The invite of a redemption was inserted before, by its own INSERT. -/
theorem inserted_before {s : InviteSys} {as : List (Action inviteService Request)}
    {pre post : List InviteEntry} {e : InviteEntry} {token : String} {invite : TeamInvite}
    {team : Team} (hrun : run (inviteNext ctx) (Sys.init (migrate0005 t)) as = some s)
    (h : inviteTrace ctx (migrate0005 t) as = pre ++ e :: post)
    (hfound : Answered (own e.job pre) (.openInvite token) (Except.ok (some (invite, team)))) :
    invite.token = token ∧ Inserted pre invite := by
  obtain ⟨k, hk, hinvite, htoken⟩ := mem_of_found hfound
  obtain ⟨before, after, rfl⟩ := List.append_of_mem hk
  obtain ⟨as₁, m, hm, htrace, hstate⟩ := run_before hrun
    (h.trans (List.append_assoc before (k :: after) (e :: post)))
  refine ⟨htoken, (inserted_run rfl hm invite (hstate ▸ hinvite)).mono ?_⟩
  rw [htrace]
  exact List.subset_append_left _ _

/-- The issuer of an invite owns the team by the backfill. -/
theorem owner_before {s : InviteSys} {as : List (Action inviteService Request)}
    {pre post : List InviteEntry} {e : InviteEntry} {teamId userId : Uuid}
    (hrun : run (inviteNext ctx) (Sys.init (migrate0005 t)) as = some s)
    (h : inviteTrace ctx (migrate0005 t) as = pre ++ e :: post)
    (howner : Answered (own e.job pre) (.roleFor teamId userId) (Except.ok (some .owner))) :
    userId = teamId := by
  obtain ⟨g, hg, howns⟩ := owns_of_answered howner
  obtain ⟨before, after, rfl⟩ := List.append_of_mem hg
  obtain ⟨as₁, m, hm, -, hstate⟩ := run_before hrun
    (h.trans (List.append_assoc before (g :: after) (e :: post)))
  exact owner_id_of_owns ((redeemed_run hm).2 teamId userId (hstate ▸ howns))

/-- After the migrations, in every run of all users' requests: a membership is that
of a backfilled owner, or it was earned. The owner of the team, who is the user with
the id of the team, has issued an invite for `advisor` or `viewer`, and the member
has redeemed it within seven days, with a verified token for the invited address. -/
theorem membership_provenance (accounts : UsersContext Key) (ctx : InviteContext)
    (t : Table users)
    (hrun : run (accountsNext accounts ctx) (.afterMigrations t) as = some s) :
    ∀ m ∈ s.invites.state.members.rows,
      (m ∈ (migrate0005 t).members.rows ∧ m.userId = m.teamId ∧ m.role = "owner") ∨
      ∃ owner member req token issued redeemed,
        Earned accounts ctx (.afterMigrations t) as m owner member req token issued redeemed := by
  intro m hm
  have hinvites : run (inviteNext ctx) (Sys.init (migrate0005 t))
      (inviteActions accounts ctx (.afterMigrations t) as) = some s.invites :=
    run_inviteActions hrun
  rcases (redeemed_run hinvites).1 m hm with
    hback | ⟨e, he, member, invite, hop, huser, hteam, hrole⟩
  · exact Or.inl ⟨hback, backfill_member hback⟩
  refine Or.inr ?_
  -- From the redemption to the INSERT of its invite.
  obtain ⟨past, post, hsplit⟩ := List.append_of_mem he
  have hcause := (Concurrent.lawful_of_trace (handle_follows ctx) hinvites hsplit).allowed
  rw [hop] at hcause
  obtain ⟨token, team, redeemed, hrequest, hredeem⟩ := hcause
  obtain ⟨htoken, f, hf, hinsert⟩ := inserted_before hinvites hsplit hredeem.found
  obtain ⟨pre, mid, rfl⟩ := List.append_of_mem hf
  have hfirst : inviteTrace ctx (migrate0005 t)
      (inviteActions accounts ctx (.afterMigrations t) as) = pre ++ f :: (mid ++ e :: post) :=
    hsplit.trans (List.append_assoc pre (f :: mid) (e :: post))
  have hcause := (Concurrent.lawful_of_trace (handle_follows ctx) hinvites hfirst).allowed
  rw [hinsert] at hcause
  obtain ⟨owner, req, issued, hcreate, hissue, hby, hemail, hreqRole, hexpires⟩ := hcause
  have hown : owner.id = invite.teamId := owner_before hinvites hfirst hissue.owner
  -- The two requests have come in through the extractor.
  obtain ⟨endpoint, user, hendpoint, hissuer⟩ := letIn_of_entry hrun hfirst
  rw [hcreate] at hendpoint
  cases endpoint with
  | accept token => cases hendpoint
  | create teamId req' =>
    cases hendpoint
    obtain ⟨endpoint, user', hendpoint, hredeemer⟩ := letIn_of_entry hrun hsplit
    rw [hrequest] at hendpoint
    cases endpoint with
    | create teamId req' => cases hendpoint
    | accept token' =>
      cases hendpoint
      refine ⟨owner, member, req, token, issued, redeemed, ?_⟩
      exact
        { issuer := hteam ▸ hissuer
          ownTeam := hown.trans hteam.symm
          redeemer := hredeemer
          toMember := huser.symm
          role := hrole.trans hreqRole
          grantable := hissue.role
          address := hredeem.email.trans hemail
          inTime := hexpires ▸ hredeem.unexpired
          writes := ⟨pre, f, mid, e, post, hfirst, hteam ▸ hcreate,
            by rw [hinsert, htoken, hby, hemail, hreqRole, hexpires, hteam], hissue.clock, hrequest,
            ⟨invite, hop, htoken⟩, hredeem.clock⟩ }

end

/-! ### An advisor joins by tokens -/

/-- Tokens of Alice and Bob. -/
def twoAccounts : UsersContext Unit where
  jwt :=
    { isProduction := true, testJwtSecret := none
      decodeHeader := fun _ => some ⟨false, none⟩
      decodeTest := fun _ _ => none
      findKey := fun _ => .ok ()
      decode := fun _ token =>
        if token = "a" then some ⟨"a", some "Alice@example.com", .obj []⟩
        else if token = "b" then some ⟨"b", some "Bob@example.com", .obj []⟩
        else none }
  parseUuid sub := if sub = "a" then some ⟨1⟩ else if sub = "b" then some ⟨2⟩ else none
  formatRfc3339 _ := none

/-- A request with a token. -/
def bearing (header : String) : Users.Request where
  endpoint := .other
  authorization := .value header
  now := 0
  newId := ⟨2⟩
  subscriptions := Table.empty
  unreachable _ := false

/-- Alice invites Bob, and Bob accepts. -/
def joining : List AccountAction :=
  .arrive (bearing "Bearer a") (.create ⟨1⟩ ⟨"bob@example.com", "advisor"⟩) ::
    (List.replicate 5 (.advance 0 (calmInput inviteContext 10 "token")) ++
      .arrive (bearing "Bearer b") (.accept "token") ::
        List.replicate 3 (.advance 1 (calmInput inviteContext 20 "")))

theorem membership_provenance_joining :
    ∃ s, run (accountsNext twoAccounts inviteContext) (.afterMigrations oneUser) joining = some s ∧
      (⟨⟨1⟩, ⟨2⟩, "advisor", 20⟩ : TeamMember) ∈ s.invites.state.members.rows ∧
      ∃ owner member req token issued redeemed,
        Earned twoAccounts inviteContext (.afterMigrations oneUser) joining
          ⟨⟨1⟩, ⟨2⟩, "advisor", 20⟩ owner member req token issued redeemed := by
  obtain ⟨s, hrun, hm⟩ : ∃ s, run (accountsNext twoAccounts inviteContext)
      (.afterMigrations oneUser) joining = some s ∧
        (⟨⟨1⟩, ⟨2⟩, "advisor", 20⟩ : TeamMember) ∈ s.invites.state.members.rows :=
    ⟨_, rfl, by decide⟩
  refine ⟨s, hrun, hm, ?_⟩
  rcases membership_provenance twoAccounts inviteContext oneUser hrun _ hm with ⟨-, -, hrole⟩ | h
  · exact absurd hrole (by decide)
  · exact h

end MizanConnect.Proofs.Teams
