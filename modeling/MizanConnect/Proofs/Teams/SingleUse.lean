import MizanConnect.Proofs.Teams.Turns

/-!
# `MizanConnect.Proofs.Teams.SingleUse`: an invite is consumed once

`accept_invite` looks for an open invite, and its transaction then redeems the
invite without another look. Two requests for one token can both find it open.

`Stage` is where a request stands. `consumed_once` shows that an invite is
consumed once in every run in which no transaction comes upon an invite that is
redeemed already, and `two_accounts_redeem_one_invite` is a run in which one
does.
-/

set_option autoImplicit false

namespace MizanConnect.Proofs.Teams

open Concurrent (Action Job Program Sys next_cases)
open MizanConnect.Teams
open MizanConnect.Users (User users)
open Sql (Table)
open Transition (Along AtMostOnce StepOf run)

/-- The request `i` accepts the invite and is answered `Ok`. -/
def Accepted (token : String) (s : InviteSys) (i : Nat) : Prop :=
  ∃ user response, s.jobs[i]? = some ⟨.accept user token, .done (.ok response)⟩

/-- The step of the request `i` writes `redeemed_at` and `redeemed_by` of the
invite. -/
def Writes (token : String) (i : Nat) (s : InviteSys) (a : Action inviteService Request)
    (s' : InviteSys) : Prop :=
  ∃ input r user invite k now newId acknowledged, a = .advance i input ∧
    s.jobs[i]? = some ⟨r, .perform (.acceptTx user invite) k⟩ ∧ invite.token = token ∧
    input (.acceptTx user invite) = .run now newId acknowledged ∧
    acceptTx now user invite s.state = .ok s'.state

/-- Throughout the run from `s₀` to `s`, the request `winner` alone consumes
the invite. -/
structure ConsumedBy (ctx : InviteContext) (token : String) (s₀ : InviteSys)
    (as : List (Action inviteService Request)) (s : InviteSys) (winner : Nat) : Prop where
  accepted : ∀ i, Accepted token s i → i = winner
  written : AtMostOnce (inviteNext ctx) (fun m a m' => ∃ i, Writes token i m a m') s₀ as
  members : ∀ i input user rest m m', StepOf (inviteNext ctx) s₀ as m (.advance i input) m' →
    m.jobs[i]? = some ⟨.accept user token, rest⟩ →
    m'.state.members ≠ m.state.members → i = winner

/-- A transaction about to run on the invite finds it unredeemed. -/
def stillOpen (token : String) (s : InviteSys) : Action inviteService Request → Bool
  | .spawn _ => true
  | .advance i _ =>
    match s.jobs[i]? with
    | some ⟨_, .perform (.acceptTx _ invite) _⟩ =>
      invite.token ≠ token ||
        s.state.invites.rows.all fun row => row.token ≠ token || row.redeemedAt.isNone
    | _ => true

/-! ### Where a request stands -/

/-- `accept_invite` before its transaction. -/
def redeeming (user : User) (invite : TeamInvite) (team : Team) :
    Program Op Op.Answer (Except AppError Response) :=
  .perform (.acceptTx user invite) fun x =>
    .done (x.map fun _ => .accepted ⟨invite.teamId, team.name, invite.role⟩)

/-- `accept_invite` before it reads the clock. -/
def found (ctx : InviteContext) (user : User) (invite : TeamInvite) (team : Team) :
    Program Op Op.Answer (Except AppError Response) :=
  .perform .now fun (time : Timestamp) =>
    if invite.expiresAt ≤ time then .done (.error (.notFound "Invite expired."))
    else if ctx.toLowercase user.email ≠ invite.email then
      .done (.error (.forbidden "This invite was issued to a different email address."))
    else redeeming user invite team

/-- `accept_invite` before its lookup. -/
def looking (ctx : InviteContext) (user : User) (token : String) :
    Program Op Op.Answer (Except AppError Response) :=
  .perform (.openInvite token) fun x =>
    match x with
    | .error e => .done (.error e)
    | .ok none => .done (.error (.notFound "Invite not found or already redeemed."))
    | .ok (some (invite, team)) => found ctx user invite team

theorem handle_accept (ctx : InviteContext) (user : User) (token : String) :
    (handle ctx (.accept user token)).run = looking ctx user token := by
  refine congrArg (Program.perform (Op.openInvite token)) (funext ?_)
  intro x
  cases x with
  | error e => rfl
  | ok pair =>
    cases pair with
    | none => rfl
    | some pair =>
      obtain ⟨invite, team⟩ := pair
      refine congrArg (Program.perform Op.now) (funext ?_)
      intro (time : Timestamp)
      show Program.bind (if invite.expiresAt ≤ time then Handler.ofExcept (.error _)
        else if ctx.toLowercase user.email ≠ invite.email then Handler.ofExcept (.error _)
        else Handler.redeem user invite team) _ = _
      by_cases hexpired : invite.expiresAt ≤ time
      · rw [if_pos hexpired, if_pos hexpired]
        rfl
      rw [if_neg hexpired, if_neg hexpired]
      by_cases hemail : ctx.toLowercase user.email ≠ invite.email
      · rw [if_pos hemail, if_pos hemail]
        rfl
      rw [if_neg hemail, if_neg hemail]
      refine congrArg (Program.perform (Op.acceptTx user invite)) (funext ?_)
      intro x
      cases x with
      | error e => rfl
      | ok _ => rfl

/-- The operations of `create_invite`. -/
def redeemsNothing : Op → Prop
  | .acceptTx _ _ => False
  | _ => True

theorem handle_create (ctx : InviteContext) (user : User) (teamId : Uuid)
    (req : CreateInviteRequest) :
    (handle ctx (.create user teamId req)).run.All redeemsNothing := by
  have hcheck : (Handler.checkCreate ctx user teamId req).run.All redeemsNothing := by
    refine Program.All.bind_run trivial ?_
    intro _
    refine Program.All.bind_run ⟨trivial, fun _ => trivial⟩ ?_
    intro role
    refine Program.All.bind_run trivial ?_
    intro _
    by_cases hrole : req.role ≠ "advisor" ∧ req.role ≠ "viewer"
    · rw [if_pos hrole]
      trivial
    · rw [if_neg hrole]
      trivial
  refine Program.All.bind (p := (Handler.createInvite ctx user teamId req).run) ?_ ?_
  · refine Program.All.bind_run hcheck ?_
    intro _
    refine Program.All.bind_run ⟨trivial, fun _ => trivial⟩ ?_
    intro token
    refine Program.All.bind_run ⟨trivial, fun _ => trivial⟩ ?_
    intro time
    refine Program.All.bind_run ⟨trivial, fun _ => trivial⟩ ?_
    intro _
    exact Program.All.bind_run ⟨trivial, fun _ => trivial⟩ fun _ => trivial
  · intro x
    cases x with
    | error e => trivial
    | ok response => trivial

/-- The invite is in the table. -/
def Stored (db : TeamsDb) (token : String) : Prop := ∃ row ∈ db.invites.rows, row.token = token

/-- The invite is redeemed. -/
def Redeemed (db : TeamsDb) (token : String) : Prop :=
  ∃ row ∈ db.invites.rows, row.token = token ∧ row.redeemedAt ≠ none

/-- What is known of an invite that a request has found. -/
structure Seen (db : TeamsDb) (invite : TeamInvite) : Prop where
  stored : Stored db invite.token
  role : invite.role = "advisor" ∨ invite.role = "viewer"

/-- Where a request stands, and what it has seen. -/
inductive Stage (ctx : InviteContext) (db : TeamsDb) :
    Request → Program Op Op.Answer (Except AppError Response) → Prop where
  | creating {user : User} {teamId : Uuid} {req : CreateInviteRequest}
      {p : Program Op Op.Answer (Except AppError Response)} (h : p.All redeemsNothing) :
      Stage ctx db (.create user teamId req) p
  | looking {user : User} {token : String} :
      Stage ctx db (.accept user token) (looking ctx user token)
  | found {user : User} {invite : TeamInvite} {team : Team} (h : Seen db invite) :
      Stage ctx db (.accept user invite.token) (found ctx user invite team)
  | redeeming {user : User} {invite : TeamInvite} {team : Team} (h : Seen db invite) :
      Stage ctx db (.accept user invite.token) (redeeming user invite team)
  | ended {user : User} {token : String} {answer : Except AppError Response} :
      Stage ctx db (.accept user token) (.done answer)

/-- The first stage. -/
theorem stage_handle (ctx : InviteContext) (db : TeamsDb) (r : Request) :
    Stage ctx db r (handle ctx r).run := by
  cases r with
  | create user teamId req => exact .creating (handle_create ctx user teamId req)
  | accept user token =>
    rw [handle_accept]
    exact .looking

/-- A request about to run the transaction accepts the invite that it has
seen. -/
theorem Stage.acceptTx {ctx : InviteContext} {db : TeamsDb} {r : Request} {user : User}
    {invite : TeamInvite}
    {k : (Op.acceptTx user invite).Answer → Program Op Op.Answer (Except AppError Response)}
    (h : Stage ctx db r (.perform (.acceptTx user invite) k)) :
    r = .accept user invite.token ∧ Seen db invite := by
  generalize hrest : Program.perform (Op.acceptTx user invite) k = p at h
  cases h with
  | creating h =>
    subst hrest
    exact absurd h.1 id
  | looking => cases hrest
  | found h => cases hrest
  | redeeming h =>
    cases hrest
    exact ⟨rfl, h⟩
  | ended => cases hrest

/-- A stage stays when no invite is lost. -/
theorem Stage.later {ctx : InviteContext} {db db' : TeamsDb} {r : Request}
    {p : Program Op Op.Answer (Except AppError Response)} (h : Stage ctx db r p)
    (hstored : ∀ token, Stored db token → Stored db' token) : Stage ctx db' r p := by
  cases h with
  | creating h => exact .creating h
  | looking => exact .looking
  | found h => exact .found ⟨hstored _ h.stored, h.role⟩
  | redeeming h => exact .redeeming ⟨hstored _ h.stored, h.role⟩
  | ended => exact .ended

/-! ### One operation -/

section
variable {ctx : InviteContext} {db : TeamsDb} {token : String}

/-- An operation leaves the tables, adds an invite, or redeems one. -/
theorem exec_cases (db : TeamsDb) (o : Op) (input : (o : Op) → o.Input) :
    (exec db o (input o)).2 = db ∨
    (∃ token teamId invitedBy email role expiresAt now,
      insertInvite db token teamId invitedBy email role expiresAt now
        = .ok (exec db o (input o)).2) ∨
    ∃ user invite now newId acknowledged, o = .acceptTx user invite ∧
      input (.acceptTx user invite) = .run now newId acknowledged ∧
      acceptTx now user invite db = .ok (exec db o (input o)).2 := by
  cases o with
  | roleFor teamId userId => exact Or.inl rfl
  | openInvite token => exact Or.inl rfl
  | now => exact Or.inl rfl
  | generateToken => exact Or.inl rfl
  | sendEmail email redeemUrl => exact Or.inl rfl
  | insertInvite token teamId invitedBy email role expiresAt =>
    rcases Attempt.write_cases (input (.insertInvite token teamId invitedBy email role expiresAt))
      db fun now _ => (insertInvite db token teamId invitedBy email role expiresAt now).map
        fun db' => (db', ()) with
      ⟨hdb, -⟩ | ⟨now, newId, acknowledged, answer, -, hstatement, -⟩
    · exact Or.inl hdb
    · refine Or.inr (Or.inl ⟨token, teamId, invitedBy, email, role, expiresAt, now, ?_⟩)
      exact map_unit_eq_ok hstatement
  | acceptTx user invite =>
    rcases Attempt.write_cases (input (.acceptTx user invite)) db fun now _ =>
      (acceptTx now user invite db).map fun db' => (db', ()) with
      ⟨hdb, -⟩ | ⟨now, newId, acknowledged, answer, hrun, hstatement, -⟩
    · exact Or.inl hdb
    · refine Or.inr (Or.inr ⟨user, invite, now, newId, acknowledged, rfl, hrun, ?_⟩)
      exact map_unit_eq_ok hstatement

/-- No invite is lost, and none is redeemed no more. -/
theorem exec_invites (db : TeamsDb) (o : Op) (input : (o : Op) → o.Input) {row : TeamInvite}
    (hrow : row ∈ db.invites.rows) :
    ∃ row' ∈ (exec db o (input o)).2.invites.rows, row'.token = row.token ∧
      (row.redeemedAt ≠ none → row'.redeemedAt ≠ none) := by
  rcases exec_cases db o input with
    hdb | ⟨token, teamId, invitedBy, email, role, expiresAt, now, hinsert⟩ |
      ⟨user, invite, now, newId, acknowledged, -, -, htx⟩
  · exact ⟨row, hdb.symm ▸ hrow, rfl, id⟩
  · refine ⟨row, ?_, rfl, id⟩
    rw [(insertInvite_rows hinsert).2.2]
    exact List.mem_append_left _ hrow
  -- The transaction sets `redeemed_at` of its invite and leaves the other rows.
  · have hrow' := List.mem_map_of_mem (f := fun i =>
      if i.token = invite.token then { i with redeemedAt := some now, redeemedBy := some user.id }
      else i) hrow
    rw [← acceptTx_invites htx] at hrow'
    refine ⟨_, hrow', ?_⟩
    by_cases htoken : row.token = invite.token
    · rw [if_pos htoken]
      exact ⟨rfl, fun _ h => nomatch h⟩
    · rw [if_neg htoken]
      exact ⟨rfl, id⟩

theorem stored_exec (o : Op) (input : (o : Op) → o.Input) (h : Stored db token) :
    Stored (exec db o (input o)).2 token := by
  obtain ⟨row, hrow, htoken⟩ := h
  obtain ⟨row', hrow', htoken', -⟩ := exec_invites db o input hrow
  exact ⟨row', hrow', htoken'.trans htoken⟩

theorem redeemed_exec (o : Op) (input : (o : Op) → o.Input) (h : Redeemed db token) :
    Redeemed (exec db o (input o)).2 token := by
  obtain ⟨row, hrow, htoken, hredeemed⟩ := h
  obtain ⟨row', hrow', htoken', hkeep⟩ := exec_invites db o input hrow
  exact ⟨row', hrow', htoken'.trans htoken, hkeep hredeemed⟩

/-- The transaction redeems the invite, if it is in the table. -/
theorem redeemed_acceptTx {db' : TeamsDb} {user : User} {invite : TeamInvite} {now : Timestamp}
    (hstored : Stored db invite.token) (h : acceptTx now user invite db = .ok db') :
    Redeemed db' invite.token := by
  obtain ⟨row, hrow, htoken⟩ := hstored
  refine ⟨{ row with redeemedAt := some now, redeemedBy := some user.id }, ?_, htoken,
    fun hnone => nomatch hnone⟩
  rw [acceptTx_invites h, List.mem_map]
  exact ⟨row, hrow, if_pos htoken⟩

/-- The next stage. -/
theorem stage_exec {r : Request} {o : Op}
    {k : o.Answer → Program Op Op.Answer (Except AppError Response)}
    (input : (o : Op) → o.Input) (h : Stage ctx db r (.perform o k)) :
    Stage ctx (exec db o (input o)).2 r (k (exec db o (input o)).1) := by
  cases h with
  | creating h => exact .creating (h.2 _)
  | @looking user token =>
    have hexec : exec db (.openInvite token) (input (.openInvite token))
        = (Attempt.query (input (.openInvite token)) (openInvite db token), db) := rfl
    rw [hexec]
    cases hquery : Attempt.query (input (.openInvite token)) (openInvite db token) with
    | error e => exact .ended
    | ok answer =>
      -- The lookup answers with a stored invite of this token.
      have hopen := Attempt.query_eq_ok hquery
      cases answer with
      | none => exact .ended
      | some pair =>
        obtain ⟨invite, team⟩ := pair
        obtain ⟨hinvite, -, -⟩ := openInvite_eq_some hopen.symm
        obtain ⟨rfl, -⟩ := openInvite_key hopen.symm
        exact .found ⟨⟨invite, hinvite, rfl⟩, invite_role_cases hinvite⟩
  | @found user invite team h =>
    show Stage ctx db _ (if invite.expiresAt ≤ (show Timestamp from input .now) then _
      else if ctx.toLowercase user.email ≠ invite.email then _ else redeeming user invite team)
    by_cases hexpired : invite.expiresAt ≤ (show Timestamp from input .now)
    · rw [if_pos hexpired]
      exact .ended
    rw [if_neg hexpired]
    by_cases hemail : ctx.toLowercase user.email ≠ invite.email
    · rw [if_pos hemail]
      exact .ended
    rw [if_neg hemail]
    exact .redeeming h
  | redeeming h => exact .ended

/-- An operation of an accept that changes the memberships is the transaction
of its invite, and takes effect. -/
theorem members_exec {user : User} {o : Op}
    {k : o.Answer → Program Op Op.Answer (Except AppError Response)}
    (input : (o : Op) → o.Input) (h : Stage ctx db (.accept user token) (.perform o k))
    (hchange : (exec db o (input o)).2.members ≠ db.members) :
    ∃ invite now newId acknowledged, o = .acceptTx user invite ∧ invite.token = token ∧
      input (.acceptTx user invite) = .run now newId acknowledged ∧
      acceptTx now user invite db = .ok (exec db o (input o)).2 := by
  cases h with
  | looking => exact absurd rfl hchange
  | found h => exact absurd rfl hchange
  | @redeeming user invite team h =>
    rcases exec_cases db (.acceptTx user invite) input with
      hdb | ⟨token, teamId, invitedBy, email, role, expiresAt, now, hinsert⟩ |
        ⟨user', invite', now, newId, acknowledged, ho, hrun, htx⟩
    · exact absurd (congrArg TeamsDb.members hdb) hchange
    · exact absurd (insertInvite_rows hinsert).2.1 hchange
    · cases ho
      exact ⟨invite, now, newId, acknowledged, rfl, rfl, hrun, htx⟩

/-- An operation after which an accept is answered `Ok` is the transaction of
its invite, and takes effect. -/
theorem accepted_exec {user : User} {o : Op} {response : Response}
    {k : o.Answer → Program Op Op.Answer (Except AppError Response)}
    (input : (o : Op) → o.Input) (h : Stage ctx db (.accept user token) (.perform o k))
    (hdone : k (exec db o (input o)).1 = .done (.ok response)) :
    ∃ invite now newId acknowledged, o = .acceptTx user invite ∧ invite.token = token ∧
      input (.acceptTx user invite) = .run now newId acknowledged ∧
      acceptTx now user invite db = .ok (exec db o (input o)).2 := by
  cases h with
  | looking =>
    have hexec : exec db (.openInvite token) (input (.openInvite token))
        = (Attempt.query (input (.openInvite token)) (openInvite db token), db) := rfl
    rw [hexec] at hdone
    cases hquery : Attempt.query (input (.openInvite token)) (openInvite db token) with
    | error e =>
      rw [hquery] at hdone
      cases hdone
    | ok answer =>
      rw [hquery] at hdone
      cases answer with
      | none => cases hdone
      | some pair => cases hdone
  | @found user invite team h =>
    replace hdone : (if invite.expiresAt ≤ (show Timestamp from input .now) then .done (.error _)
      else if ctx.toLowercase user.email ≠ invite.email then .done (.error _)
      else redeeming user invite team) = .done (.ok response) := hdone
    by_cases hexpired : invite.expiresAt ≤ (show Timestamp from input .now)
    · rw [if_pos hexpired] at hdone
      cases hdone
    rw [if_neg hexpired] at hdone
    by_cases hemail : ctx.toLowercase user.email ≠ invite.email
    · rw [if_pos hemail] at hdone
      cases hdone
    · rw [if_neg hemail] at hdone
      cases hdone
  | @redeeming user invite team h =>
    rcases Attempt.write_cases (input (.acceptTx user invite)) db fun now _ =>
      (acceptTx now user invite db).map fun db' => (db', ()) with
      ⟨-, e, he⟩ | ⟨now, newId, acknowledged, answer, hrun, hstatement, -⟩
    · -- A failed transaction is answered with its error.
      have hanswer : (exec db (.acceptTx user invite) (input (.acceptTx user invite))).1
        = .error e := he
      rw [hanswer] at hdone
      cases hdone
    · exact ⟨invite, now, newId, acknowledged, rfl, rfl, hrun, map_unit_eq_ok hstatement⟩

end

/-! ### Runs -/

section
variable {ctx : InviteContext} {token : String} {s s' : InviteSys}
  {a : Action inviteService Request} {as : List (Action inviteService Request)}

/-- Every request is at one of its stages. -/
def Staged (ctx : InviteContext) (s : InviteSys) : Prop :=
  ∀ job ∈ s.jobs, Stage ctx s.state job.request job.rest

theorem staged_next (hs : Staged ctx s) (h : inviteNext ctx s a = some s') : Staged ctx s' := by
  rcases next_cases h with ⟨r, rfl, rfl⟩ | ⟨i, input, r, o, k, rfl, hjob, rfl⟩
  · intro job hmem
    rcases List.mem_append.mp hmem with hmem | hmem
    · exact hs job hmem
    · rw [List.mem_singleton.mp hmem]
      exact stage_handle ctx s.state r
  · intro job hmem
    -- The others stay where they are, as no invite is lost.
    rcases List.mem_or_eq_of_mem_set hmem with hmem | rfl
    · exact (hs job hmem).later fun token => stored_exec o input
    · exact stage_exec input (hs _ (List.mem_of_getElem? hjob))

theorem redeemed_next (hs : Redeemed s.state token) (h : inviteNext ctx s a = some s') :
    Redeemed s'.state token := by
  rcases next_cases h with ⟨r, rfl, rfl⟩ | ⟨i, input, r, o, k, rfl, hjob, rfl⟩
  · exact hs
  · exact redeemed_exec o input hs

/-- The invite is redeemed after it is written. -/
theorem redeemed_of_writes {i : Nat} (hs : Staged ctx s) (h : Writes token i s a s') :
    Redeemed s'.state token := by
  obtain ⟨input, r, user, invite, k, now, newId, acknowledged, -, hjob, rfl, -, htx⟩ := h
  obtain ⟨-, hseen⟩ := (hs _ (List.mem_of_getElem? hjob)).acceptTx
  exact redeemed_acceptTx hseen.stored htx

/-- It was not before, when it was still open. -/
theorem open_of_writes {i : Nat} (hopen : stillOpen token s a = true)
    (h : Writes token i s a s') : ¬ Redeemed s.state token := by
  obtain ⟨input, r, user, invite, k, now, newId, acknowledged, rfl, hjob, rfl, -, -⟩ := h
  rintro ⟨row, hrow, htoken, hredeemed⟩
  have hrows : ∀ row ∈ s.state.invites.rows,
      row.token ≠ invite.token ∨ row.redeemedAt = none := by
    simpa [stillOpen, hjob] using hopen
  exact (hrows row hrow).elim (fun h => h htoken) hredeemed

theorem staged_run {s₀ : InviteSys} (hs₀ : Staged ctx s₀)
    (hrun : run (inviteNext ctx) s₀ as = some s) : Staged ctx s :=
  Transition.run_invariant (P := Staged ctx) (C := fun _ _ => True)
    (fun _ _ _ hs _ h => staged_next hs h) hs₀ (Transition.along_true _ _) hrun

/-- Every request that was answered `Ok` has written the invite. -/
theorem accepted_run {s₀ : InviteSys} (hs₀ : Staged ctx s₀) (hjobs : s₀.jobs = [])
    (hrun : run (inviteNext ctx) s₀ as = some s) :
    ∀ i, Accepted token s i →
      ∃ m a m', StepOf (inviteNext ctx) s₀ as m a m' ∧ Writes token i m a m' := by
  refine Transition.run_history (P := fun as s => ∀ i, Accepted token s i →
    ∃ m a m', StepOf (inviteNext ctx) s₀ as m a m' ∧ Writes token i m a m') ?_ ?_ hrun
  · rintro i ⟨user, response, hjob⟩
    rw [hjobs] at hjob
    cases hjob
  · intro as a m m' hm haccepted hnext
    have hstaged := staged_run hs₀ hm
    have hlast := Transition.stepOf_last hm hnext
    have hold : ∀ i, Accepted token m i → ∃ n b n',
        StepOf (inviteNext ctx) s₀ (as ++ [a]) n b n' ∧ Writes token i n b n' := by
      intro i hi
      obtain ⟨n, b, n', hstep, hwrites⟩ := haccepted i hi
      exact ⟨n, b, n', hstep.append [a], hwrites⟩
    rintro i ⟨user, response, hjob'⟩
    rcases next_cases hnext with ⟨r, rfl, rfl⟩ | ⟨j, input, r, o, k, rfl, hjob, rfl⟩
    · -- A request that comes in has no answer yet.
      rcases Nat.lt_or_ge i m.jobs.length with hi | hi
      · rw [List.getElem?_append_left hi] at hjob'
        exact hold i ⟨user, response, hjob'⟩
      · rw [List.getElem?_append_right hi] at hjob'
        obtain ⟨rfl, hdone⟩ := Job.mk.inj (List.mem_singleton.mp (List.mem_of_getElem? hjob'))
        rw [handle_accept] at hdone
        cases hdone
    -- The answer is the one of this step, or was there before.
    · by_cases hij : j = i
      · subst hij
        rw [List.getElem?_set_self (List.getElem?_eq_some_iff.mp hjob).1] at hjob'
        obtain ⟨rfl, hdone⟩ := Job.mk.inj (Option.some.inj hjob')
        obtain ⟨invite, now, newId, acknowledged, rfl, htoken, hattempt, htx⟩ :=
          accepted_exec input (hstaged _ (List.mem_of_getElem? hjob)) hdone
        exact ⟨m, _, _, hlast, input, _, user, invite, k, now, newId, acknowledged, rfl, hjob,
          htoken, hattempt, htx⟩
      · rw [List.getElem?_set_ne hij] at hjob'
        exact hold i ⟨user, response, hjob'⟩

/-- A step of a request for the invite that changes the memberships writes the
invite. -/
theorem writes_of_members {i : Nat} {input : (o : Op) → o.Input} {user : User}
    {rest : Program Op Op.Answer (Except AppError Response)} (hs : Staged ctx s)
    (h : inviteNext ctx s (.advance i input) = some s')
    (hjob : s.jobs[i]? = some ⟨.accept user token, rest⟩)
    (hchange : s'.state.members ≠ s.state.members) : Writes token i s (.advance i input) s' := by
  rcases next_cases h with ⟨r, hspawn, -⟩ | ⟨j, input', r, o, k, haction, hjob', rfl⟩
  · cases hspawn
  · cases haction
    cases hjob.symm.trans hjob'
    obtain ⟨invite, now, newId, acknowledged, rfl, htoken, hattempt, htx⟩ :=
      members_exec input (hs _ (List.mem_of_getElem? hjob)) hchange
    exact ⟨input, _, user, invite, k, now, newId, acknowledged, rfl, hjob, htoken, hattempt, htx⟩

/-- A run in which every transaction on the invite finds it still unredeemed
lets one request consume it. The transaction of `accept_invite` is one operation of
the model, so the state before it is the one in which its UPDATE runs. -/
theorem consumed_once (ctx : InviteContext) (token : String) (db : TeamsDb)
    (hopen : Along (inviteNext ctx) (fun s a => stillOpen token s a = true) (Sys.init db) as)
    (hrun : run (inviteNext ctx) (Sys.init db) as = some s) :
    ∃ winner, ConsumedBy ctx token (Sys.init db) as s winner := by
  have hinit : Staged ctx (Sys.init db) := fun job hjob => nomatch hjob
  have hwritten : AtMostOnce (inviteNext ctx) (fun m a m' => ∃ i, Writes token i m a m')
      (Sys.init db) as := by
    -- Redeemed is stable, a write leads to it, and an open invite is not.
    refine Transition.atMostOnce_of_stable (I := Staged ctx)
      (R := fun s => Redeemed s.state token) (C := fun s a => stillOpen token s a = true)
      ?_ ?_ ?_ hinit hopen
    · intro s a s' hs _ h
      exact staged_next hs h
    · intro s a s' _ _ h hredeemed
      exact redeemed_next hredeemed h
    · rintro s a s' hs hCs - ⟨i, hwrites⟩
      exact ⟨redeemed_of_writes hs hwrites, open_of_writes hCs hwrites⟩
  have hstaged : ∀ m a m', StepOf (inviteNext ctx) (Sys.init db) as m a m' → Staged ctx m := by
    rintro m a m' ⟨⟨pre, post, -, hpre⟩, -⟩
    exact staged_run hinit hpre
  have haccepted : ∀ i, Accepted token s i → _ := accepted_run hinit rfl hrun
  by_cases hnone : ∃ i m a m', StepOf (inviteNext ctx) (Sys.init db) as m a m' ∧
      Writes token i m a m'
  · -- The winner is the request that writes the invite.
    obtain ⟨winner, n, b, n', hstep, hwinner⟩ := hnone
    have hsame : ∀ i m a m', StepOf (inviteNext ctx) (Sys.init db) as m a m' →
        Writes token i m a m' → i = winner := by
      intro i m a m' hstep' hwrites
      obtain ⟨-, rfl⟩ := hwritten.unique hstep' hstep ⟨i, hwrites⟩ ⟨winner, hwinner⟩
      obtain ⟨input, r, user, invite, k, now, newId, acknowledged, rfl, -⟩ := hwrites
      obtain ⟨input', r', user', invite', k', now', newId', acknowledged', h, -⟩ := hwinner
      cases h
      rfl
    refine ⟨winner, ?_, hwritten, ?_⟩
    · intro i hi
      obtain ⟨m, a, m', hstep', hwrites⟩ := haccepted i hi
      exact hsame i m a m' hstep' hwrites
    · intro i input user rest m m' hstep' hjob hchange
      exact hsame i m _ m' hstep'
        (writes_of_members (hstaged m _ m' hstep') hstep'.step hjob hchange)
  -- Nobody writes the invite, so nobody is answered `Ok`.
  · refine ⟨0, ?_, hwritten, ?_⟩
    · intro i hi
      obtain ⟨m, a, m', hstep, hwrites⟩ := haccepted i hi
      exact absurd ⟨i, m, a, m', hstep, hwrites⟩ hnone
    · intro i input user rest m m' hstep hjob hchange
      exact absurd ⟨i, m, _, m', hstep,
        writes_of_members (hstaged m _ m' hstep) hstep.step hjob hchange⟩ hnone

end

/-! ### Two accounts with one address -/

/-- The account of the address, and another one in lower case. -/
def bob : User := ⟨⟨2⟩, ⟨2⟩, "Bob@example.com", some "Bob", none, 0, 0, none⟩

def robert : User := ⟨⟨3⟩, ⟨3⟩, "bob@example.com", some "Robert", none, 0, 0, none⟩

/-- The request goes on for `n` operations at the given time. -/
def goOn (i n : Nat) (now : Timestamp) : List (Action inviteService Request) :=
  List.replicate n (.advance i (calmInput inviteContext now "token"))

/-- The owner invites the address. -/
def invited : List (Action inviteService Request) :=
  .spawn (.create owner owner.id ⟨"bob@example.com", "advisor"⟩) :: goOn 0 5 10

/-- Bob accepts, and then Robert tries to. -/
def acceptedInTurn : List (Action inviteService Request) :=
  invited ++ (.spawn (.accept bob "token") :: goOn 1 3 20) ++
    (.spawn (.accept robert "token") :: goOn 2 1 30)

theorem stillOpen_acceptedInTurn :
    Along (inviteNext inviteContext) (fun s a => stillOpen "token" s a = true)
      (Sys.init (migrate0005 oneUser)) acceptedInTurn := by
  decide +kernel

/-- `consumed_once` for two accepts in turn. -/
theorem consumed_once_in_turn :
    ∃ s, run (inviteNext inviteContext) (Sys.init (migrate0005 oneUser)) acceptedInTurn = some s ∧
      ∃ winner, ConsumedBy inviteContext "token" (Sys.init (migrate0005 oneUser)) acceptedInTurn
        s winner :=
  ⟨_, rfl, consumed_once inviteContext "token" (migrate0005 oneUser) stillOpen_acceptedInTurn rfl⟩

/-- Bob and Robert accept at once: both look the invite up before either
redeems it. -/
def acceptedAtOnce : List (Action inviteService Request) :=
  invited ++ [.spawn (.accept bob "token"), .spawn (.accept robert "token")] ++
    goOn 1 2 20 ++ goOn 2 2 20 ++ goOn 1 1 21 ++ goOn 2 1 22

/-- Both are answered `Ok` and become members by one invite. -/
theorem two_accounts_redeem_one_invite :
    ∃ s, run (inviteNext inviteContext) (Sys.init (migrate0005 oneUser)) acceptedAtOnce = some s ∧
      s.state.members.rows = [⟨owner.id, owner.id, "owner", 0⟩, ⟨owner.id, bob.id, "advisor", 21⟩,
        ⟨owner.id, robert.id, "advisor", 22⟩] ∧
      ¬ ∃ winner, ConsumedBy inviteContext "token" (Sys.init (migrate0005 oneUser)) acceptedAtOnce
        s winner := by
  obtain ⟨s, hrun, hrows, hbob, hrobert⟩ : ∃ s, run (inviteNext inviteContext)
      (Sys.init (migrate0005 oneUser)) acceptedAtOnce = some s ∧
        s.state.members.rows = [⟨owner.id, owner.id, "owner", 0⟩,
          ⟨owner.id, bob.id, "advisor", 21⟩, ⟨owner.id, robert.id, "advisor", 22⟩] ∧
        Accepted "token" s 1 ∧ Accepted "token" s 2 :=
    ⟨_, rfl, by decide, ⟨bob, _, rfl⟩, ⟨robert, _, rfl⟩⟩
  refine ⟨s, hrun, hrows, ?_⟩
  rintro ⟨winner, h⟩
  have hsame : 1 = 2 := (h.accepted 1 hbob).trans (h.accepted 2 hrobert).symm
  exact absurd hsame (by decide)

end MizanConnect.Proofs.Teams
