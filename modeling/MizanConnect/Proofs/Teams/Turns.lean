import MizanConnect.Proofs.Teams.Ownership
import MizanConnect.Teams.Handlers

/-!
# `MizanConnect.Proofs.Teams.Turns`: all that a request can do

A turn serves one request while no other is served, and each of its statements
may fail. `create_cases` and `accept_cases` say what it can do: it ends with an
error and leaves the tables, or it has passed every check and writes.
`next_calm` connects the two models of the handlers: a turn without failures
is the call of `Teams.Invites`.
-/

set_option autoImplicit false

namespace MizanConnect.Proofs.Teams

open Concurrent (result result_bind_run result_map_run)
open MizanConnect.Teams
open MizanConnect.Users (User users)
open Sql (Table)

/-! ### Operations -/

section
variable {ctx : InviteContext} {turn : Turn} {db : TeamsDb}

theorem result_ofExcept {α : Type} (x : Except AppError α) :
    result inviteService (fixedInputs turn.input) (Handler.ofExcept x).run () db = (x, (), db) :=
  rfl

theorem result_roleFor (teamId userId : Uuid) :
    result inviteService (fixedInputs turn.input) (Handler.roleFor teamId userId).run () db
      = (Attempt.query (turn.input (.roleFor teamId userId)) (roleFor db.members teamId userId), (),
        db) := rfl

theorem result_openInvite (token : String) :
    result inviteService (fixedInputs turn.input) (Handler.openInvite token).run () db
      = (Attempt.query (turn.input (.openInvite token)) (openInvite db token), (), db) := rfl

theorem result_now :
    result inviteService (fixedInputs turn.input) Handler.now.run () db
      = (.ok turn.clock, (), db) := rfl

theorem result_generateToken :
    result inviteService (fixedInputs turn.input) Handler.generateToken.run () db
      = (.ok turn.token, (), db) := rfl

theorem result_sendEmail (email redeemUrl : String) :
    result inviteService (fixedInputs turn.input) (Handler.sendEmail email redeemUrl).run () db
      = (.ok (turn.input (.sendEmail email redeemUrl)), (), db) := rfl

theorem insertInvite_cases (turn : Turn) (db : TeamsDb) (token : String)
    (teamId invitedBy : Uuid) (email role : String)
    (expiresAt : Timestamp) :
    ∃ answer db', result inviteService (fixedInputs turn.input)
        (Handler.insertInvite token teamId invitedBy email role expiresAt).run () db
          = (answer, (), db') ∧
      ((db' = db ∧ ∃ e, answer = .error e) ∨
        ((∃ now, insertInvite db token teamId invitedBy email role expiresAt now = .ok db') ∧
          ∀ e, answer = .error e → e = connectionError)) := by
  obtain ⟨answer, db', hwrite, hcases⟩ := Attempt.write_unit_cases
    (turn.input (.insertInvite token teamId invitedBy email role expiresAt)) db
    (insertInvite db token teamId invitedBy email role expiresAt)
  exact ⟨answer, db', congrArg (fun out => (out.1, (), out.2)) hwrite, hcases⟩

theorem acceptTx_cases (turn : Turn) (db : TeamsDb) (user : User) (invite : TeamInvite) :
    ∃ answer db', result inviteService (fixedInputs turn.input)
        (Handler.acceptTx user invite).run () db = (answer, (), db') ∧
      ((db' = db ∧ ∃ e, answer = .error e) ∨
        ((∃ now, acceptTx now user invite db = .ok db') ∧
          ∀ e, answer = .error e → e = connectionError)) := by
  obtain ⟨answer, db', hwrite, hcases⟩ := Attempt.write_unit_cases
    (turn.input (.acceptTx user invite)) db (acceptTx · user invite db)
  exact ⟨answer, db', congrArg (fun out => (out.1, (), out.2)) hwrite, hcases⟩

/-! ### `create_invite` -/

/-- What `create_invite` has checked before its INSERT. -/
structure CreateChecks (ctx : InviteContext) (db : TeamsDb) (user : User) (teamId : Uuid)
    (req : CreateInviteRequest) : Prop where
  email : ctx.validEmail req.email = .ok ()
  owner : roleFor db.members teamId user.id = some .owner
  role : req.role = "advisor" ∨ req.role = "viewer"

/-- The owner check lets owners through. -/
theorem requireOwner_eq_ok {role : Option TeamRole} (h : requireOwner role = .ok ()) :
    role = some .owner := by
  cases role with
  | none => cases h
  | some r =>
    cases r with
    | owner => rfl
    | advisor => cases h
    | viewer => cases h

/-- The checks change nothing. -/
theorem checkCreate_cases (ctx : InviteContext) (turn : Turn) (db : TeamsDb) (user : User)
    (teamId : Uuid) (req : CreateInviteRequest) :
    ∃ answer, result inviteService (fixedInputs turn.input)
        (Handler.checkCreate ctx user teamId req).run () db = (answer, (), db) ∧
      (answer = .ok () → CreateChecks ctx db user teamId req) := by
  unfold Handler.checkCreate
  rw [result_bind_run, result_ofExcept]
  cases hemail : ctx.validEmail req.email with
  | error text => exact ⟨_, rfl, fun h => nomatch h⟩
  | ok _ =>
    dsimp only [Except.mapError]
    rw [result_bind_run, result_roleFor]
    cases hquery : Attempt.query (turn.input (.roleFor teamId user.id))
        (roleFor db.members teamId user.id) with
    | error e => exact ⟨_, rfl, fun h => nomatch h⟩
    | ok role =>
      dsimp only
      rw [result_bind_run, result_ofExcept]
      cases howner : requireOwner role with
      | error e => exact ⟨_, rfl, fun h => nomatch h⟩
      | ok _ =>
        dsimp only
        by_cases hrole : req.role ≠ "advisor" ∧ req.role ≠ "viewer"
        · rw [if_pos hrole]
          exact ⟨_, rfl, fun h => nomatch h⟩
        · rw [if_neg hrole]
          refine ⟨_, rfl, ?_⟩
          intro _
          rw [requireOwner_eq_ok howner] at hquery
          refine ⟨hemail, (Attempt.query_eq_ok hquery).symm, ?_⟩
          by_contra hno
          exact hrole (not_or.mp hno)

/-- `create_invite` ends with an error and leaves the tables, or it has passed
its checks and inserts the invite. Then only a lost connection is an error. -/
theorem create_cases (ctx : InviteContext) (turn : Turn) (db : TeamsDb) (user : User)
    (teamId : Uuid) (req : CreateInviteRequest) :
    ∃ answer db', result inviteService (fixedInputs turn.input)
        (Handler.createInvite ctx user teamId req).run () db = (answer, (), db') ∧
      ((db' = db ∧ ∃ e, answer = .error e) ∨
        (CreateChecks ctx db user teamId req ∧
          (∃ now, insertInvite db turn.token teamId user.id
            (ctx.toLowercase (trim req.email)) req.role (turn.clock + inviteTtl) now = .ok db') ∧
          ∀ e, answer = .error e → e = connectionError)) := by
  obtain ⟨checked, hrun, hchecks⟩ := checkCreate_cases ctx turn db user teamId req
  unfold Handler.createInvite
  rw [result_bind_run, hrun]
  cases checked with
  | error e => exact ⟨_, db, rfl, Or.inl ⟨rfl, e, rfl⟩⟩
  | ok _ =>
    dsimp only
    rw [result_bind_run, result_generateToken]
    dsimp only
    rw [result_bind_run, result_now]
    dsimp only
    rw [result_bind_run]
    obtain ⟨answer, db', hinsert, hcases⟩ := insertInvite_cases turn db turn.token teamId user.id
      (ctx.toLowercase (trim req.email)) req.role (turn.clock + inviteTtl)
    rw [hinsert]
    cases answer with
    | error e =>
      refine ⟨_, db', rfl, ?_⟩
      exact hcases.imp (fun h => ⟨h.1, e, rfl⟩) fun h =>
        ⟨hchecks rfl, h.1, fun e' he' => h.2 e' (by cases he'; rfl)⟩
    | ok _ =>
      dsimp only
      rw [result_bind_run, result_sendEmail]
      refine ⟨_, db', rfl, Or.inr ⟨hchecks rfl, ?_, fun e he => nomatch he⟩⟩
      -- An answered INSERT has taken effect.
      rcases hcases with ⟨-, e, he⟩ | ⟨hwritten, -⟩
      · cases he
      · exact hwritten

/-! ### `accept_invite` -/

/-- What `accept_invite` has checked before its transaction. -/
structure AcceptChecks (ctx : InviteContext) (db : TeamsDb) (clock : Timestamp) (user : User)
    (token : String) (invite : TeamInvite) (team : Team) : Prop where
  found : openInvite db token = some (invite, team)
  unexpired : clock < invite.expiresAt
  email : ctx.toLowercase user.email = invite.email

/-- `accept_invite` ends with an error and leaves the tables, or it has passed
its checks and redeems the invite. Then only a lost connection is an error. -/
theorem accept_cases (ctx : InviteContext) (turn : Turn) (db : TeamsDb) (user : User)
    (token : String) :
    ∃ answer db', result inviteService (fixedInputs turn.input)
        (Handler.acceptInvite ctx user token).run () db = (answer, (), db') ∧
      ((db' = db ∧ ∃ e, answer = .error e) ∨
        ∃ invite team, AcceptChecks ctx db turn.clock user token invite team ∧
          (∃ now, acceptTx now user invite db = .ok db') ∧
          ∀ e, answer = .error e → e = connectionError) := by
  unfold Handler.acceptInvite
  rw [result_bind_run, result_openInvite]
  cases hquery : Attempt.query (turn.input (.openInvite token)) (openInvite db token) with
  | error e => exact ⟨_, db, rfl, Or.inl ⟨rfl, e, rfl⟩⟩
  | ok found =>
    have hopen := Attempt.query_eq_ok hquery
    cases found with
    | none => exact ⟨_, db, rfl, Or.inl ⟨rfl, _, rfl⟩⟩
    | some pair =>
      obtain ⟨invite, team⟩ := pair
      dsimp only
      unfold Handler.acceptFound
      rw [result_bind_run, result_now]
      dsimp only
      by_cases hexpired : invite.expiresAt ≤ turn.clock
      · rw [if_pos hexpired]
        exact ⟨_, db, rfl, Or.inl ⟨rfl, _, rfl⟩⟩
      rw [if_neg hexpired]
      by_cases hemail : ctx.toLowercase user.email ≠ invite.email
      · rw [if_pos hemail]
        exact ⟨_, db, rfl, Or.inl ⟨rfl, _, rfl⟩⟩
      rw [if_neg hemail]
      have hchecks : AcceptChecks ctx db turn.clock user token invite team :=
        ⟨hopen.symm, Int.not_le.mp hexpired, not_not.mp hemail⟩
      unfold Handler.redeem
      rw [result_bind_run]
      obtain ⟨answer, db', htx, hcases⟩ := acceptTx_cases turn db user invite
      rw [htx]
      cases answer with
      | error e =>
        refine ⟨_, db', rfl, ?_⟩
        exact hcases.imp (fun h => ⟨h.1, e, rfl⟩) fun h =>
          ⟨invite, team, hchecks, h.1, fun e' he' => h.2 e' (by cases he'; rfl)⟩
      | ok _ =>
        refine ⟨_, db', rfl, Or.inr ⟨invite, team, hchecks, ?_, fun e he => nomatch he⟩⟩
        rcases hcases with ⟨-, e, he⟩ | ⟨hwritten, -⟩
        · cases he
        · exact hwritten

/-! ### Undisturbed turns

Without failures the programs are the handlers of `Teams.Invites`. -/

/-- The end of a run: the answer with the tables after it. A failed call leaves
them. -/
def ended {α : Type} (db : TeamsDb) (out : Except AppError (α × TeamsDb)) :
    Except AppError α × Unit × TeamsDb :=
  match out with
  | .ok (answer, db') => (.ok answer, (), db')
  | .error e => (.error e, (), db)

section
variable {now : Timestamp} {token : String}

theorem result_insertInvite_calm (hcalm : turn.input = calmInput ctx now token) (drawn : String)
    (teamId invitedBy : Uuid) (email role : String) (expiresAt : Timestamp) :
    result inviteService (fixedInputs turn.input)
        (Handler.insertInvite drawn teamId invitedBy email role expiresAt).run () db =
      match insertInvite db drawn teamId invitedBy email role expiresAt now with
      | .ok db' => (.ok (), (), db')
      | .error v => (.error (AppError.ofDb (.violation v)), (), db) := by
  have hexec : result inviteService (fixedInputs turn.input)
      (Handler.insertInvite drawn teamId invitedBy email role expiresAt).run () db
        = ((exec db (.insertInvite drawn teamId invitedBy email role expiresAt)
            (turn.input _)).1, (),
          (exec db (.insertInvite drawn teamId invitedBy email role expiresAt)
            (turn.input _)).2) := rfl
  rw [hexec, hcalm]
  simp only [exec, calmInput, Attempt.write]
  cases insertInvite db drawn teamId invitedBy email role expiresAt now with
  | error v => rfl
  | ok db' => rfl

theorem result_acceptTx_calm (hcalm : turn.input = calmInput ctx now token) (user : User)
    (invite : TeamInvite) :
    result inviteService (fixedInputs turn.input) (Handler.acceptTx user invite).run () db =
      match acceptTx now user invite db with
      | .ok db' => (.ok (), (), db')
      | .error v => (.error (AppError.ofDb (.violation v)), (), db) := by
  have hexec : result inviteService (fixedInputs turn.input)
      (Handler.acceptTx user invite).run () db
        = ((exec db (.acceptTx user invite) (turn.input _)).1, (),
          (exec db (.acceptTx user invite) (turn.input _)).2) := rfl
  rw [hexec, hcalm]
  simp only [exec, calmInput, Attempt.write]
  cases acceptTx now user invite db with
  | error v => rfl
  | ok db' => rfl

theorem result_checkCreate_calm (hcalm : turn.input = calmInput ctx now token) (user : User)
    (teamId : Uuid) (req : CreateInviteRequest) :
    result inviteService (fixedInputs turn.input)
        (Handler.checkCreate ctx user teamId req).run () db =
      (do
        (ctx.validEmail req.email).mapError fun text =>
          AppError.unprocessable ("validation failed: " ++ text)
        requireOwner (roleFor db.members teamId user.id)
        if req.role ≠ "advisor" ∧ req.role ≠ "viewer" then
          .error (.badRequest "role must be 'advisor' or 'viewer'.")
        else .ok (), (), db) := by
  have hquery : Attempt.query (turn.input (.roleFor teamId user.id))
      (roleFor db.members teamId user.id) = .ok (roleFor db.members teamId user.id) := by
    rw [hcalm]
    rfl
  unfold Handler.checkCreate
  rw [result_bind_run, result_ofExcept]
  cases ctx.validEmail req.email with
  | error text => rfl
  | ok _ =>
    dsimp only [Except.mapError]
    rw [result_bind_run, result_roleFor, hquery]
    dsimp only
    rw [result_bind_run, result_ofExcept]
    cases requireOwner (roleFor db.members teamId user.id) with
    | error e => rfl
    | ok _ =>
      dsimp only
      by_cases hrole : req.role ≠ "advisor" ∧ req.role ≠ "viewer"
      · rw [if_pos hrole, if_pos hrole]
        rfl
      · rw [if_neg hrole, if_neg hrole]
        rfl

/-- `create_invite` in an undisturbed turn. -/
theorem result_createInvite_calm (hcalm : turn.input = calmInput ctx now token) (user : User)
    (teamId : Uuid) (req : CreateInviteRequest) :
    result inviteService (fixedInputs turn.input)
        (Handler.createInvite ctx user teamId req).run () db
      = ended db (createInvite ctx now token user teamId req db) := by
  have htoken : turn.token = token := congrFun hcalm .generateToken
  have hclock : turn.clock = now := congrFun hcalm .now
  unfold Handler.createInvite createInvite
  rw [result_bind_run, result_checkCreate_calm hcalm]
  cases ctx.validEmail req.email with
  | error text => rfl
  | ok _ =>
    cases requireOwner (roleFor db.members teamId user.id) with
    | error e => rfl
    | ok _ =>
      by_cases hrole : req.role ≠ "advisor" ∧ req.role ≠ "viewer"
      · simp only [if_pos hrole]
        rfl
      · simp only [if_neg hrole]
        show result inviteService (fixedInputs turn.input)
          (Handler.generateToken >>= _).run () db = _
        rw [result_bind_run, result_generateToken]
        dsimp only
        rw [result_bind_run, result_now]
        dsimp only
        rw [result_bind_run, result_insertInvite_calm hcalm, htoken, hclock]
        have hinsert : insertInvite db token teamId user.id (ctx.toLowercase (trim req.email))
            req.role (now + inviteTtl) now
          = (db.invites.insert (newInvite ctx now token user teamId req)).map
            fun invites => { db with invites } := rfl
        have hsend : turn.input (.sendEmail (ctx.toLowercase (trim req.email))
            (ctx.appPublicUrl.getD "https://app.mizan.app" ++ "/auth/callback?invite=" ++ token))
          = ctx.sendEmail (ctx.toLowercase (trim req.email))
            (ctx.appPublicUrl.getD "https://app.mizan.app" ++ "/auth/callback?invite="
              ++ token) := by
          rw [hcalm]
          rfl
        rw [hinsert]
        cases db.invites.insert (newInvite ctx now token user teamId req) with
        | error v => rfl
        | ok invites =>
          dsimp only [Except.map]
          rw [result_bind_run, result_sendEmail, hsend]
          rfl

/-- `accept_invite` in an undisturbed turn. -/
theorem result_acceptInvite_calm (hcalm : turn.input = calmInput ctx now token) (user : User)
    (invited : String) :
    result inviteService (fixedInputs turn.input)
        (Handler.acceptInvite ctx user invited).run () db
      = ended db (acceptInvite ctx now invited user db) := by
  have hclock : turn.clock = now := congrFun hcalm .now
  have hquery : Attempt.query (turn.input (.openInvite invited)) (openInvite db invited)
      = .ok (openInvite db invited) := by
    rw [hcalm]
    rfl
  unfold acceptInvite Handler.acceptInvite
  rw [result_bind_run, result_openInvite, hquery]
  dsimp only
  cases openInvite db invited with
  | none => rfl
  | some found =>
    obtain ⟨invite, team⟩ := found
    dsimp only
    unfold Handler.acceptFound
    rw [result_bind_run, result_now, hclock]
    dsimp only
    by_cases hexpired : invite.expiresAt ≤ now
    · rw [if_pos hexpired, if_pos hexpired]
      rfl
    rw [if_neg hexpired, if_neg hexpired]
    by_cases hemail : ctx.toLowercase user.email ≠ invite.email
    · rw [if_pos hemail, if_pos hemail]
      rfl
    rw [if_neg hemail, if_neg hemail]
    unfold Handler.redeem
    rw [result_bind_run, result_acceptTx_calm hcalm]
    cases acceptTx now user invite db with
    | error v => rfl
    | ok db' => rfl

end

/-- The call that an undisturbed turn is. -/
def Request.call (now : Timestamp) (token : String) : Request → Call
  | .create user teamId req => .create now token user teamId req
  | .accept user invited => .accept now invited user

/-- An undisturbed turn takes the step of its call. -/
theorem next_calm (ctx : InviteContext) (db : TeamsDb) (now : Timestamp) (token : String)
    (request : Request) :
    Turn.next ctx db ⟨request, calmInput ctx now token⟩
      = next ctx db (Request.call now token request) := by
  have hcalm : (⟨request, calmInput ctx now token⟩ : Turn).input = calmInput ctx now token := rfl
  cases request with
  | create user teamId req =>
    simp only [Turn.next, Turn.serve, handle, next, Request.call, Call.apply]
    rw [result_map_run, result_createInvite_calm hcalm user teamId req]
    cases createInvite ctx now token user teamId req db with
    | error e => rfl
    | ok out => rfl
  | accept user invited =>
    simp only [Turn.next, Turn.serve, handle, next, Request.call, Call.apply]
    rw [result_map_run, result_acceptInvite_calm hcalm user invited]
    cases acceptInvite ctx now invited user db with
    | error e => rfl
    | ok out => rfl

/-! ### A turn -/

/-- What the turn of a `create_invite` writes. -/
structure Creates (ctx : InviteContext) (db : TeamsDb) (turn : Turn) (db' : TeamsDb) (user : User)
    (teamId : Uuid) (req : CreateInviteRequest) : Prop where
  request : turn.request = .create user teamId req
  checks : CreateChecks ctx db user teamId req
  insert : ∃ now, insertInvite db turn.token teamId user.id (ctx.toLowercase (trim req.email))
    req.role (turn.clock + inviteTtl) now = .ok db'

/-- What the turn of an `accept_invite` writes. -/
structure Redeems (ctx : InviteContext) (db : TeamsDb) (turn : Turn) (db' : TeamsDb) (user : User)
    (token : String) (invite : TeamInvite) (team : Team) : Prop where
  request : turn.request = .accept user token
  checks : AcceptChecks ctx db turn.clock user token invite team
  tx : ∃ now, acceptTx now user invite db = .ok db'

/-- A turn ends with an error and leaves the tables, or it creates or redeems
an invite. Then only a lost connection is an error. -/
theorem serve_cases (ctx : InviteContext) (turn : Turn) (db : TeamsDb) :
    ((turn.serve ctx db).2 = db ∧ ∃ e, (turn.serve ctx db).1 = .error e) ∨
    (((∃ user teamId req, Creates ctx db turn (turn.serve ctx db).2 user teamId req) ∨
        ∃ user token invite team,
          Redeems ctx db turn (turn.serve ctx db).2 user token invite team) ∧
      ∀ e, (turn.serve ctx db).1 = .error e → e = connectionError) := by
  have hmapped : ∀ {α : Type} {answer : Except AppError α} {f : α → Response} {e : AppError},
      answer.map f = .error e → answer = .error e := by
    intro α answer f e h
    cases answer with
    | error e' => exact congrArg _ (Except.error.inj h)
    | ok a => cases h
  cases hrequest : turn.request with
  | create user teamId req =>
    obtain ⟨answer, db', hrun, hcases⟩ := create_cases ctx turn db user teamId req
    have hserve : turn.serve ctx db = (answer.map Response.created, db') := by
      simp only [Turn.serve, hrequest, handle]
      rw [result_map_run, hrun]
    rw [hserve]
    rcases hcases with ⟨hdb, e, he⟩ | ⟨hchecks, hinsert, herror⟩
    · exact Or.inl ⟨hdb, e, by rw [he]; rfl⟩
    · exact Or.inr ⟨Or.inl ⟨user, teamId, req, hrequest, hchecks, hinsert⟩,
        fun e he => herror e (hmapped he)⟩
  | accept user token =>
    obtain ⟨answer, db', hrun, hcases⟩ := accept_cases ctx turn db user token
    have hserve : turn.serve ctx db = (answer.map Response.accepted, db') := by
      simp only [Turn.serve, hrequest, handle]
      rw [result_map_run, hrun]
    rw [hserve]
    rcases hcases with ⟨hdb, e, he⟩ | ⟨invite, team, hchecks, htx, herror⟩
    · exact Or.inl ⟨hdb, e, by rw [he]; rfl⟩
    · exact Or.inr ⟨Or.inr ⟨user, token, invite, team, hrequest, hchecks, htx⟩,
        fun e he => herror e (hmapped he)⟩

/-! ### What the writes leave -/

/-- The invite that `openInvite` finds is the one with the token, and open. -/
theorem openInvite_key {token : String} {invite : TeamInvite} {team : Team}
    (h : openInvite db token = some (invite, team)) :
    invite.token = token ∧ invite.redeemedAt = none := by
  unfold openInvite at h
  rw [Option.bind_eq_bind, Option.bind_eq_some_iff] at h
  obtain ⟨found, hfound, h⟩ := h
  rw [Option.bind_eq_bind, Option.bind_eq_some_iff] at h
  obtain ⟨t, -, h⟩ := h
  cases h
  simpa using List.find?_some hfound

/-- The INSERT of an invite leaves the teams and the memberships. -/
theorem insertInvite_rows {db' : TeamsDb} {token : String} {teamId invitedBy : Uuid}
    {email role : String} {expiresAt now : Timestamp}
    (h : insertInvite db token teamId invitedBy email role expiresAt now = .ok db') :
    db'.teams = db.teams ∧ db'.members = db.members ∧ db'.invites.rows = db.invites.rows ++
      [⟨token, teamId, invitedBy, email, role, none, none, now, expiresAt⟩] := by
  unfold insertInvite at h
  cases hinsert : db.invites.insert
      ⟨token, teamId, invitedBy, email, role, none, none, now, expiresAt⟩ with
  | error v =>
    rw [hinsert] at h
    cases h
  | ok invites =>
    rw [hinsert] at h
    cases h
    exact ⟨rfl, rfl, (Table.insert_rows hinsert).1⟩

/-- The redemption of an invite keeps all else of every invite. -/
theorem acceptTx_invites {db' : TeamsDb} {user : User} {invite : TeamInvite} {now : Timestamp}
    (h : acceptTx now user invite db = .ok db') :
    db'.invites.rows = db.invites.rows.map fun i =>
      if i.token = invite.token then { i with redeemedAt := some now, redeemedBy := some user.id }
      else i := by
  unfold acceptTx at h
  obtain ⟨members, -, h⟩ := except_bind_eq_ok.mp h
  obtain ⟨invites, hinvites, h⟩ := except_bind_eq_ok.mp h
  cases h
  unfold Table.updateWhere at hinvites
  show invites.rows = _
  rw [Table.write_updated_rows ?_ hinvites]
  · simp
  · intro i
    rfl

/-- The transaction keeps the teams and writes the one membership. -/
theorem acceptTx_members {db' : TeamsDb} {user : User} {invite : TeamInvite} {now : Timestamp}
    (hrole : invite.role = "advisor" ∨ invite.role = "viewer")
    (h : acceptTx now user invite db = .ok db') :
    db'.teams = db.teams ∧ ∃ m, m.teamId = invite.teamId ∧ m.userId = user.id ∧
      m.role = invite.role ∧ db.members.write [m] = .ok db'.members := by
  obtain ⟨written, m, htx, hteams, hteam, huser, hmrole, hwrite⟩ := acceptTx_ok db now user hrole
  cases h.symm.trans htx
  exact ⟨hteams, m, hteam, huser, hmrole, hwrite⟩

end

end MizanConnect.Proofs.Teams
