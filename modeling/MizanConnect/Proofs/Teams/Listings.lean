import MizanConnect.Proofs.Teams.References
import MizanConnect.Teams.Roster

/-!
# `MizanConnect.Proofs.Teams.Listings`: what the two listings show, and to whom

`list_for_me` and `list_members` read several times, and the rest of the service moves in
between. What they answer is still right, because a membership once there stays
(`isMember_exec`) and every state on the way is one of a run of the service
(`reachable_before`), where the references hold.

`Cause` says what a handler has read before each of its statements, and `Shown` what its
answer is made of. `handle_follows` is the walk over the handlers.
`list_for_me_answers` and `list_members_answers` put these together.
-/

set_option autoImplicit false

namespace MizanConnect.Proofs.Teams.Roster

open Concurrent (Action Event Lawful Leads Performed Program Sys leads_error leads_perform
  leads_value mem_own own trace)
open MizanConnect.Teams (Accounts AccountAction InviteContext RosterContext Team TeamMember
  TeamMemberDto TeamMembersResponse TeamRole TeamSummary TeamsDb accountsNext migrate0005
  ownerMembership roleFor soloTeam teamMembers)
open MizanConnect.Teams.Roster
open MizanConnect.Users (User authenticate serve users)
open Sql (Table)
open Transition (run run_append run_cons_eq_some)

/-! ### Lists in step -/

section
variable {α β γ : Type} {R : α → β → Prop} {xs : List α} {ys : List β}

theorem map_eq_of_forall₂ {f : β → γ} {g : α → γ} (hf : ∀ x y, R x y → f y = g x)
    (h : List.Forall₂ R xs ys) : ys.map f = xs.map g := by
  induction h with
  | nil => rfl
  | cons hxy _ ih => rw [List.map_cons, List.map_cons, hf _ _ hxy, ih]

theorem exists_of_forall₂ (h : List.Forall₂ R xs ys) {y : β} (hy : y ∈ ys) :
    ∃ x ∈ xs, R x y := by
  induction h with
  | nil => cases hy
  | cons hxy _ ih =>
    rcases List.mem_cons.mp hy with rfl | hy
    · exact ⟨_, List.mem_cons_self, hxy⟩
    · obtain ⟨x, hx, hR⟩ := ih hy
      exact ⟨x, List.mem_cons_of_mem _ hx, hR⟩

end

/-! ### Queries -/

/-- The user is on the team. -/
def IsMember (db : TeamsDb) (teamId userId : Uuid) : Prop :=
  ∃ m ∈ db.members.rows, m.teamId = teamId ∧ m.userId = userId

section
variable {ρ : Type} {le : ρ → ρ → Bool} {scan : ρ → Nat} {rows : List ρ}

theorem orderBy_perm : (orderBy le scan rows).Perm rows :=
  (List.perm_insertionSort _ _).trans (List.perm_insertionSort _ _)

theorem mem_orderBy {x : ρ} : x ∈ orderBy le scan rows ↔ x ∈ rows := orderBy_perm.mem_iff

theorem orderBy_pairwise (htotal : ∀ a b, le a b = true ∨ le b a = true)
    (htrans : ∀ a b c, le a b = true → le b c = true → le a c = true) :
    (orderBy le scan rows).Pairwise fun a b => le a b = true := by
  have : Std.Total fun a b => le a b = true := ⟨htotal⟩
  have : IsTrans ρ fun a b => le a b = true := ⟨htrans⟩
  exact List.pairwise_insertionSort _ _

end

section
variable {db : TeamsDb} {teamId userId : Uuid} {team : Team}

/-- `role_for` answers for members, with the role of the row. -/
theorem roleFor_eq_some {role : TeamRole} (h : roleFor db.members teamId userId = some role) :
    ∃ m ∈ db.members.rows, m.teamId = teamId ∧ m.userId = userId ∧ m.role = role.asStr := by
  obtain ⟨m, hfind, hrole⟩ := Option.map_eq_some_iff.mp h
  have hkey : m.teamId = teamId ∧ m.userId = userId := by simpa using List.find?_some hfind
  refine ⟨m, List.mem_of_find?_eq_some hfind, hkey.1, hkey.2, ?_⟩
  have hadmitted := db.members.admitted m (List.mem_of_find?_eq_some hfind)
  have hmem : m.role ∈ ["owner", "advisor", "viewer"] := by
    by_contra hno
    simp only [teamMembers, if_neg hno] at hadmitted
    cases hadmitted
  -- The constraint of the table leaves the three names of a role.
  rw [← hrole]
  rcases (by simpa using hmem : m.role = "owner" ∨ m.role = "advisor" ∨ m.role = "viewer") with
    h | h | h <;> rw [h] <;> decide

theorem roleFor_of_isMember (h : IsMember db teamId userId) :
    ∃ role, roleFor db.members teamId userId = some role := by
  obtain ⟨m, hm, hteam, huser⟩ := h
  cases hfind : db.members.rows.find? fun m => m.teamId = teamId && m.userId = userId with
  | none =>
    have hno := List.find?_eq_none.mp hfind m hm
    simp [hteam, huser] at hno
  | some found => exact ⟨_, by rw [roleFor, hfind]; rfl⟩

theorem mem_teamsOf :
    team ∈ teamsOf db userId ↔
      team ∈ db.teams.rows ∧ team.deletedAt = none ∧ IsMember db team.id userId := by
  simp only [teamsOf, List.mem_flatMap, List.mem_map, List.mem_filter, Bool.and_eq_true,
    decide_eq_true_eq]
  constructor
  · rintro ⟨t, ht, m, ⟨hm, ⟨hteam, huser⟩, hlive⟩, rfl⟩
    exact ⟨ht, hlive, m, hm, hteam, huser⟩
  · rintro ⟨ht, hlive, m, hm, hteam, huser⟩
    exact ⟨team, ht, m, ⟨hm, ⟨hteam, huser⟩, hlive⟩, rfl⟩

/-- The join has a team once, as the key of a membership is the team and the user. -/
theorem nodup_teamsOf : ((teamsOf db userId).map Team.id).Nodup := by
  have hkeys : (db.teams.rows.map Team.id).Nodup := db.teams.keys
  unfold teamsOf
  rw [List.map_flatMap, List.nodup_flatMap]
  constructor
  · intro t _
    have hone := db.members.length_filter_le_one
      (fun m => m.teamId = t.id && m.userId = userId && t.deletedAt = none) (by
        intro a b ha hb
        simp only [Bool.and_eq_true, decide_eq_true_eq] at ha hb
        exact Prod.ext (ha.1.1.trans hb.1.1.symm) (ha.1.2.trans hb.1.2.symm))
    exact List.nodup_iff_count_le_one.mpr fun id =>
      List.count_le_length.trans (by simpa using hone)
  · refine (List.pairwise_map.mp hkeys).imp ?_
    intro a b hne
    simp only [Function.onFun, List.disjoint_left, List.map_map, List.mem_map]
    rintro id ⟨_, -, rfl⟩ ⟨_, -, heq⟩
    exact hne heq.symm

end

/-! ### Causes -/

/-- The operation has been performed, with this answer. -/
def Answered (h : List (Event Op Op.Answer)) (o : Op) (x : o.Answer) : Prop :=
  (⟨o, x⟩ : Event Op Op.Answer) ∈ h

/-- The request is one for `list_members`. -/
def ListsMembers : Request → Prop
  | .listMembers _ _ => True
  | _ => False

/-- What a handler has read before a statement. -/
def Cause (r : Request) (h : List (Event Op Op.Answer)) : Op → Prop
  | .listForUser userId => ∃ req user, r = .listForMe req ∧ userId = user.id ∧
      Answered h (.authenticate req) (Except.ok user)
  | .roleFor teamId userId => ListsMembers r ∨
      ∃ teams, Answered h (.listForUser userId) (Except.ok teams) ∧ ∃ team ∈ teams, team.id = teamId
  | .listMembers teamId => ∃ req user role, r = .listMembers req (some teamId) ∧
      Answered h (.authenticate req) (Except.ok user) ∧
      Answered h (.roleFor teamId user.id) (Except.ok (some role))
  | .fetchById userId => ∃ teamId members, Answered h (.listMembers teamId) (Except.ok members) ∧
      ∃ m ∈ members, m.userId = userId
  | _ => True

/-- What the summaries of `list_for_me` are made of. -/
def Summarized {Key : Type} (ctx : RosterContext Key) (h : List (Event Op Op.Answer))
    (userId : Uuid) (team : Team) (summary : TeamSummary) : Prop :=
  ∃ role, Answered h (.roleFor team.id userId) (Except.ok role) ∧
    summary = fromTeam ctx team (role.map TeamRole.asStr)

/-- What a row of a roster is made of. -/
def Described {Key : Type} (ctx : RosterContext Key) (h : List (Event Op Op.Answer))
    (m : TeamMember) (dto : TeamMemberDto) : Prop :=
  ∃ found, Answered h (.fetchById m.userId) found ∧ dto = memberDto ctx m found

/-- What the answer to a request is made of. -/
def Shown {Key : Type} (ctx : RosterContext Key) (r : Request) (h : List (Event Op Op.Answer)) :
    Response → Prop
  | .teams summaries => ∃ userId teams, Answered h (.listForUser userId) (Except.ok teams) ∧
      List.Forall₂ (Summarized ctx h userId) teams summaries
  | .members response => ∃ req teamId members, r = .listMembers req (some teamId) ∧
      response.teamId = teamId ∧ Answered h (.listMembers teamId) (Except.ok members) ∧
      List.Forall₂ (Described ctx h) members response.members
  | _ => True

section
variable {Key : Type} {ctx : RosterContext Key} {h h' : List (Event Op Op.Answer)} {r : Request}

theorem Answered.mono {o : Op} {x : o.Answer} (hx : Answered h o x) (hsub : h ⊆ h') :
    Answered h' o x := hsub hx

theorem answered_last (o : Op) (x : o.Answer) : Answered (h ++ [⟨o, x⟩]) o x :=
  List.mem_append_right _ List.mem_cons_self

theorem leads_authenticate {req : Users.Request} :
    Leads (Cause r) (Handler.authenticate req) h fun h' user =>
      Answered h' (.authenticate req) (Except.ok user) := by
  refine leads_perform trivial fun x user hx => ?_
  cases hx
  exact answered_last _ _

theorem leads_listForUser {userId : Uuid} (hcause : Cause r h (.listForUser userId)) :
    Leads (Cause r) (Handler.listForUser userId) h fun h' teams =>
      Answered h' (.listForUser userId) (Except.ok teams) := by
  refine leads_perform hcause fun x teams hx => ?_
  cases hx
  exact answered_last _ _

theorem leads_roleFor {teamId userId : Uuid} (hcause : Cause r h (.roleFor teamId userId)) :
    Leads (Cause r) (Handler.roleFor teamId userId) h fun h' role =>
      Answered h' (.roleFor teamId userId) (Except.ok role) := by
  refine leads_perform hcause fun x role hx => ?_
  cases hx
  exact answered_last _ _

theorem leads_listMembers {teamId : Uuid} (hcause : Cause r h (.listMembers teamId)) :
    Leads (Cause r) (Handler.listMembers teamId) h fun h' members =>
      Answered h' (.listMembers teamId) (Except.ok members) := by
  refine leads_perform hcause fun x members hx => ?_
  cases hx
  exact answered_last _ _

theorem leads_fetchById {userId : Uuid} (hcause : Cause r h (.fetchById userId)) :
    Leads (Cause r) (Handler.fetchById userId) h fun h' found =>
      Answered h' (.fetchById userId) found := by
  refine leads_perform hcause fun x => leads_value ?_
  exact answered_last _ _

/-- The loop of `list_for_me`, over the teams that are left. -/
theorem summarize_leads {userId : Uuid} {teams : List Team} (rest : List Team)
    (hlisted : Answered h (.listForUser userId) (Except.ok teams)) (hrest : rest ⊆ teams) :
    Leads (Cause r) (Handler.summarize ctx userId rest) h fun h' summaries =>
      List.Forall₂ (Summarized ctx h' userId) rest summaries := by
  induction rest generalizing h with
  | nil => exact leads_value List.Forall₂.nil
  | cons team rest ih =>
    obtain ⟨hteam, hrest⟩ := List.cons_subset.mp hrest
    unfold Handler.summarize
    refine Leads.bind (leads_roleFor (Or.inr ⟨teams, hlisted, team, hteam, rfl⟩))
      fun role h₁ hsub₁ hrole => ?_
    refine Leads.bind (ih (hlisted.mono hsub₁) hrest) fun summaries h₂ hsub₂ hsummaries => ?_
    exact leads_value (.cons ⟨role, hrole.mono hsub₂, rfl⟩ hsummaries)

/-- The loop of `list_members`, over the rows that are left. -/
theorem describe_leads {teamId : Uuid} {members : List TeamMember} (rest : List TeamMember)
    (hlisted : Answered h (.listMembers teamId) (Except.ok members)) (hrest : rest ⊆ members) :
    Leads (Cause r) (Handler.describe ctx rest) h fun h' dtos =>
      List.Forall₂ (Described ctx h') rest dtos := by
  induction rest generalizing h with
  | nil => exact leads_value List.Forall₂.nil
  | cons m rest ih =>
    obtain ⟨hm, hrest⟩ := List.cons_subset.mp hrest
    unfold Handler.describe
    refine Leads.bind (leads_fetchById ⟨teamId, members, hlisted, m, hm, rfl⟩)
      fun found h₁ hsub₁ hfound => ?_
    refine Leads.bind (ih (hlisted.mono hsub₁) hrest) fun dtos h₂ hsub₂ hdtos => ?_
    exact leads_value (.cons ⟨found, hfound.mono hsub₂, rfl⟩ hdtos)

theorem listForMe_leads (req : Users.Request) :
    Leads (Cause (.listForMe req)) (handle ctx (.listForMe req)) []
      fun h' response => Shown ctx (.listForMe req) h' response := by
  refine Leads.bind leads_authenticate fun user h₁ _ huser => Leads.map ?_
  refine Leads.bind (leads_listForUser ⟨req, user, rfl, rfl, huser⟩) fun teams h₂ _ hteams => ?_
  refine (summarize_leads teams hteams (List.Subset.refl teams)).imp
    fun summaries h₃ hsub hsummaries => ?_
  exact ⟨user.id, teams, hteams.mono hsub, hsummaries⟩

theorem listMembers_leads (req : Users.Request) (path : Option Uuid) :
    Leads (Cause (.listMembers req path)) (handle ctx (.listMembers req path)) []
      fun h' response => Shown ctx (.listMembers req path) h' response := by
  refine Leads.bind leads_authenticate fun user h₁ _ huser => ?_
  cases path with
  | none => exact leads_value trivial
  | some teamId =>
    refine Leads.map (Leads.bind (leads_roleFor (Or.inl trivial)) fun role h₂ hsub₂ hrole => ?_)
    cases role with
    | none => exact leads_error
    | some role =>
      refine Leads.bind (leads_listMembers ⟨req, user, role, rfl, huser.mono hsub₂, hrole⟩)
        fun members h₃ _ hmembers => ?_
      refine Leads.bind (describe_leads members hmembers (List.Subset.refl members))
        fun dtos h₄ hsub₄ hdtos => leads_value ?_
      exact ⟨req, teamId, members, rfl, rfl, hmembers.mono hsub₄, hdtos⟩

/-- Every request reads in this order, and answers with what it has read. -/
theorem handle_follows (ctx : RosterContext Key) (r : Request) :
    (handle ctx r).run.Follows (Cause r)
      (fun h' x => ∀ response, x = Except.ok response → Shown ctx r h' response) [] := by
  cases r with
  | other a => exact ⟨trivial, fun _ response hx => by cases hx; trivial⟩
  | listForMe req => exact listForMe_leads req
  | listMembers req path => exact listMembers_leads req path

end

/-! ### Memberships stay -/

section
variable {db db' : TeamsDb} {teamId userId : Uuid}

/-- A written membership takes the place of one of the same team and user. -/
theorem isMember_write {m : TeamMember} (hwrite : db.members.write [m] = .ok db'.members)
    (h : IsMember db teamId userId) : IsMember db' teamId userId := by
  obtain ⟨x, hx, hteam, huser⟩ := h
  by_cases hkey : teamMembers.key x = teamMembers.key m
  · obtain ⟨hkteam, hkuser⟩ : x.teamId = m.teamId ∧ x.userId = m.userId := Prod.mk.inj hkey
    exact ⟨m, (Table.mem_write_singleton hwrite).mpr (Or.inl rfl), hkteam.symm.trans hteam,
      hkuser.symm.trans huser⟩
  · exact ⟨x, (Table.mem_write_singleton hwrite).mpr (Or.inr ⟨hx, hkey⟩), hteam, huser⟩

theorem isMember_acceptTx {now : Timestamp} {user : User} {invite : Teams.TeamInvite}
    (htx : Teams.acceptTx now user invite db = .ok db') (h : IsMember db teamId userId) :
    IsMember db' teamId userId := by
  unfold Teams.acceptTx at htx
  obtain ⟨members, hmembers, htx⟩ := except_bind_eq_ok.mp htx
  obtain ⟨invites, -, htx⟩ := except_bind_eq_ok.mp htx
  cases htx
  obtain ⟨ws, hws, hwrite⟩ := except_bind_eq_ok.mp hmembers
  obtain ⟨-, ⟨old, -, -, rfl⟩ | ⟨-, rfl, -⟩⟩ := Table.upserted_cases hws
  · exact isMember_write hwrite h
  · exact isMember_write hwrite h

end

section
variable {Key : Type} {ctx : RosterContext Key} {s s' : Accounts} {teamId userId : Uuid}

theorem isMember_next {invites : InviteContext} {accounts : Users.UsersContext Key}
    {a : AccountAction} (hstep : accountsNext accounts invites s a = some s')
    (h : IsMember s.invites.state teamId userId) : IsMember s'.invites.state teamId userId := by
  rcases accountsNext_cases hstep with ⟨-, hsame | ⟨r, hspawn⟩⟩ | ⟨i, input, -, hnext⟩
  · rw [hsame]
    exact h
  · rw [← Option.some.inj hspawn]
    exact h
  · rcases Concurrent.next_cases hnext with ⟨r, haction, -⟩ | ⟨j, input', r, o, k, -, -, hinvites⟩
    · cases haction
    · rw [hinvites]
      show IsMember (Teams.exec s.invites.state o (input' o)).2 teamId userId
      rcases exec_cases s.invites.state o input' with
        hdb | ⟨token, team, invitedBy, email, role, expiresAt, now, hinsert⟩ |
          ⟨user, invite, now, newId, acknowledged, -, -, htx⟩
      · rw [hdb]
        exact h
      · have hmembers := (insertInvite_rows hinsert).2.1
        unfold IsMember
        rw [hmembers]
        exact h
      · exact isMember_acceptTx htx h

/-- An operation leaves the service, or is a step of it: the extractor is that of a
request for another endpoint. -/
theorem exec_reaches (ctx : RosterContext Key) (s : Accounts) (o : Op) (input : o.Input) :
    (exec ctx s o input).2 = s ∨
      ∃ a, accountsNext ctx.accounts ctx.invites s a = some (exec ctx s o input).2 := by
  cases o with
  | step a =>
    simp only [exec]
    cases hstep : accountsNext ctx.accounts ctx.invites s a with
    | none => exact Or.inl rfl
    | some s' => exact Or.inr ⟨a, hstep⟩
  | authenticate req =>
    cases hauth : authenticate ctx.accounts req s.users with
    | error e => exact Or.inl (by simp only [exec, hauth])
    | ok out =>
      refine Or.inr ⟨.serve { req with endpoint := .other }, ?_⟩
      have hother : authenticate ctx.accounts { req with endpoint := .other } s.users
          = .ok out := hauth
      simp only [exec, accountsNext, serve, hauth, hother]
      rfl
  | listForUser userId => exact Or.inl rfl
  | roleFor teamId userId => exact Or.inl rfl
  | listMembers teamId => exact Or.inl rfl
  | fetchById userId => exact Or.inl rfl

theorem isMember_exec (ctx : RosterContext Key) (s : Accounts) (o : Op) (input : o.Input)
    (h : IsMember s.invites.state teamId userId) :
    IsMember (exec ctx s o input).2.invites.state teamId userId := by
  rcases exec_reaches ctx s o input with hsame | ⟨a, hstep⟩
  · rw [hsame]
    exact h
  · exact isMember_next hstep h

end

/-! ### Operations of a run -/

/-- An operation of a run. -/
abbrev Entry {Key : Type} (ctx : RosterContext Key) := Performed (service ctx) Request

section
variable {Key : Type} {ctx : RosterContext Key} {t : Table users}
  {as : List (Action (service ctx) Request)} {s : RosterSys} {pre post past : List (Entry ctx)}
  {e : Entry ctx} {i : Nat} {teamId userId : Uuid}

/-- The operations of a run. -/
abbrev entries (ctx : RosterContext Key) (t : Table users)
    (as : List (Action (service ctx) Request)) : List (Entry ctx) :=
  trace (fun r => (handle ctx r).run) (Sys.init (.afterMigrations t)) as

/-- The state of a run is one of a run of the rest of the service. -/
theorem reachable_run (hrun : run (next ctx) (Sys.init (.afterMigrations t)) as = some s) :
    ∃ bs, run (accountsNext ctx.accounts ctx.invites) (.afterMigrations t) bs = some s.state := by
  refine Concurrent.trace_invariant
    (P := fun _ x => ∃ bs, run (accountsNext ctx.accounts ctx.invites) (.afterMigrations t) bs
      = some x) (handle_follows ctx) ⟨[], rfl⟩ ?_ hrun
  rintro past e - ⟨bs, hbs⟩
  rcases exec_reaches ctx e.before e.op e.input with hsame | ⟨a, hstep⟩
  · exact ⟨bs, hbs.trans (congrArg some hsame.symm)⟩
  · exact ⟨bs ++ [a], run_append.mpr ⟨e.before, hbs, run_cons_eq_some.mpr ⟨_, hstep, rfl⟩⟩⟩

theorem reachable_before (hrun : run (next ctx) (Sys.init (.afterMigrations t)) as = some s)
    (h : entries ctx t as = pre ++ e :: post) :
    ∃ bs, run (accountsNext ctx.accounts ctx.invites) (.afterMigrations t) bs = some e.before := by
  obtain ⟨as₁, as₂, m, k, -, hm, -, hstate, -⟩ := Concurrent.trace_split hrun h
  rw [← hstate]
  exact reachable_run hm

/-- A membership that was there at an operation is there at every later one. -/
theorem isMember_later (hrun : run (next ctx) (Sys.init (.afterMigrations t)) as = some s)
    (h : entries ctx t as = pre ++ e :: post) {f : Entry ctx} (hf : f ∈ pre)
    (hmember : IsMember f.before.invites.state teamId userId) :
    IsMember e.before.invites.state teamId userId :=
  Concurrent.trace_related_before
    (T := fun x y : Accounts => IsMember x.invites.state teamId userId →
      IsMember y.invites.state teamId userId)
    (fun _ hx => hx) (fun _ _ _ hxy hyz hx => hyz (hxy hx)) (isMember_exec ctx) hrun h f hf
    (isMember_exec ctx f.before f.op f.input hmember)

/-- The entries of one job are of its request. -/
theorem request_of_entry (hrun : run (next ctx) (Sys.init (.afterMigrations t)) as = some s)
    {r : Request} {p : Program Op Op.Answer (Except AppError Response)}
    (hjob : s.jobs[i]? = some ⟨r, p⟩) {f : Entry ctx} (hf : f ∈ entries ctx t as)
    (hi : f.job = i) : f.request = r := by
  obtain ⟨job, hat, hrequest⟩ := (Concurrent.traced_run (handle_follows ctx) hrun).known f hf
  rw [hi, hjob] at hat
  cases hat
  exact hrequest.symm

/-! ### What an answer was read from -/

/-- The job has come in through the extractor as the user. -/
def LoggedIn (past : List (Entry ctx)) (i : Nat) (req : Users.Request) (user : User) : Prop :=
  ∃ f ∈ past, f.job = i ∧ f.op = .authenticate req ∧
    ∃ u, authenticate ctx.accounts req f.before.users = .ok (u, user)

theorem LoggedIn.mono {req : Users.Request} {user : User} (h : LoggedIn pre i req user)
    (hsub : pre ⊆ past) : LoggedIn past i req user := by
  obtain ⟨f, hf, hrest⟩ := h
  exact ⟨f, hsub hf, hrest⟩

/-- What came before an operation of a run is of the run. -/
theorem subset_of_split (h : entries ctx t as = pre ++ e :: post) : pre ⊆ entries ctx t as := by
  rw [h]
  exact List.subset_append_left pre _

theorem loggedIn_of_answered {req : Users.Request} {user : User}
    (h : Answered (own i past) (.authenticate req) (Except.ok user)) :
    LoggedIn past i req user := by
  obtain ⟨⟨job, request, x, o, input⟩, hf, hi, hevent⟩ := mem_own h
  obtain ⟨rfl, hanswer⟩ := Sigma.mk.inj hevent
  refine ⟨_, hf, hi, rfl, ?_⟩
  have hauth : (exec ctx x (.authenticate req) ()).1 = Except.ok user := eq_of_heq hanswer
  simp only [exec] at hauth
  cases hout : authenticate ctx.accounts req x.users with
  | error e =>
    rw [hout] at hauth
    cases hauth
  | ok out =>
    rw [hout] at hauth
    cases hauth
    exact ⟨out.1, rfl⟩

theorem listing_of_answered {teams : List Team}
    (h : Answered (own i past) (.listForUser userId) (Except.ok teams)) :
    ∃ f ∈ past, f.job = i ∧ f.op = .listForUser userId ∧
      ∃ scan, teams = Teams.Roster.listForUser ctx f.before.invites.state scan userId := by
  obtain ⟨⟨job, request, x, o, input⟩, hf, hi, hevent⟩ := mem_own h
  obtain ⟨rfl, hanswer⟩ := Sigma.mk.inj hevent
  exact ⟨_, hf, hi, rfl, input.2, Attempt.query_eq_ok (eq_of_heq hanswer)⟩

theorem role_of_answered {role : Option TeamRole}
    (h : Answered (own i past) (.roleFor teamId userId) (Except.ok role)) :
    ∃ f ∈ past, f.job = i ∧ f.op = .roleFor teamId userId ∧
      role = roleFor f.before.invites.state.members teamId userId := by
  obtain ⟨⟨job, request, x, o, input⟩, hf, hi, hevent⟩ := mem_own h
  obtain ⟨rfl, hanswer⟩ := Sigma.mk.inj hevent
  exact ⟨_, hf, hi, rfl, Attempt.query_eq_ok (eq_of_heq hanswer)⟩

theorem members_of_answered {members : List TeamMember}
    (h : Answered (own i past) (.listMembers teamId) (Except.ok members)) :
    ∃ f ∈ past, f.job = i ∧ f.op = .listMembers teamId ∧
      ∃ scan, members = Teams.Roster.listMembers f.before.invites.state scan teamId := by
  obtain ⟨⟨job, request, x, o, input⟩, hf, hi, hevent⟩ := mem_own h
  obtain ⟨rfl, hanswer⟩ := Sigma.mk.inj hevent
  exact ⟨_, hf, hi, rfl, input.2, Attempt.query_eq_ok (eq_of_heq hanswer)⟩

theorem found_of_answered {found : Except AppError (Option User)}
    (h : Answered (own i past) (.fetchById userId) found) :
    ∃ f ∈ past, f.job = i ∧ f.event = ⟨.fetchById userId, found⟩ ∧
      ∀ x, found = .ok x → x = Teams.Roster.fetchById f.before.users userId := by
  obtain ⟨⟨job, request, x, o, input⟩, hf, hi, hevent⟩ := mem_own h
  obtain ⟨rfl, hanswer⟩ := Sigma.mk.inj hevent
  refine ⟨_, hf, hi, hevent, ?_⟩
  intro out hout
  exact Attempt.query_eq_ok ((eq_of_heq hanswer).trans hout)

/-- A role is asked for only on a team that the user is on. -/
theorem isMember_of_role (hrun : run (next ctx) (Sys.init (.afterMigrations t)) as = some s)
    {req : Users.Request} {p : Program Op Op.Answer (Except AppError Response)}
    (hjob : s.jobs[i]? = some ⟨.listForMe req, p⟩) {f : Entry ctx} (hf : f ∈ entries ctx t as)
    (hi : f.job = i) (hop : f.op = .roleFor teamId userId) :
    IsMember f.before.invites.state teamId userId := by
  obtain ⟨pre, post, hsplit⟩ := List.append_of_mem hf
  have hcause := (Concurrent.lawful_of_trace (handle_follows ctx) hrun hsplit).allowed
  rw [hop, request_of_entry hrun hjob hf hi] at hcause
  obtain hlists | ⟨teams, hteams, team, hteam, rfl⟩ := hcause
  · exact absurd hlists id
  · obtain ⟨g, hg, -, -, scan, rfl⟩ := listing_of_answered hteams
    exact isMember_later hrun hsplit hg (mem_teamsOf.mp (mem_orderBy.mp hteam)).2.2

/-- A name is asked for only of a user with an account. -/
theorem hasAccount_of_fetch (hrun : run (next ctx) (Sys.init (.afterMigrations t)) as = some s)
    {f : Entry ctx} (hf : f ∈ entries ctx t as) (hop : f.op = .fetchById userId) :
    HasAccount f.before.users userId := by
  obtain ⟨pre, post, hsplit⟩ := List.append_of_mem hf
  have hcause := (Concurrent.lawful_of_trace (handle_follows ctx) hrun hsplit).allowed
  rw [hop] at hcause
  obtain ⟨teamId, members, hmembers, m, hm, rfl⟩ := hcause
  obtain ⟨g, hg, -, -, scan, rfl⟩ := members_of_answered hmembers
  obtain ⟨hm, hteam⟩ := List.mem_filter.mp (mem_orderBy.mp hm)
  obtain ⟨m', hm', -, huser⟩ := isMember_later hrun hsplit hg
    ⟨m, hm, of_decide_eq_true hteam, rfl⟩
  obtain ⟨bs, hbs⟩ := reachable_before hrun hsplit
  rw [← huser]
  exact (member_points hbs hm').2

end

/-! ### `list_for_me` -/

/-- An answer of `list_for_me` to the user: the teams are those at the moment of the
SELECT `listing`, and each has the role of the moment at which it was read. -/
structure TeamsAnswer {Key : Type} (ctx : RosterContext Key) (past : List (Entry ctx)) (i : Nat)
    (req : Users.Request) (summaries : List TeamSummary) (user : User) (listing : Entry ctx) :
    Prop where
  loggedIn : LoggedIn past i req user
  selected : listing ∈ past ∧ listing.job = i ∧ listing.op = .listForUser user.id
  exact : ∀ teamId, (∃ summary ∈ summaries, summary.id = teamId) ↔
    ∃ team ∈ listing.before.invites.state.teams.rows, team.id = teamId ∧
      team.deletedAt = none ∧ IsMember listing.before.invites.state teamId user.id
  nodup : (summaries.map TeamSummary.id).Nodup
  sorted : summaries.Pairwise fun a b => ctx.byName.le a.name b.name = true
  role : ∀ summary ∈ summaries, ∃ team ∈ listing.before.invites.state.teams.rows,
    ∃ f ∈ past, f.job = i ∧ f.op = .roleFor team.id user.id ∧
      ∃ m ∈ f.before.invites.state.members.rows, m.teamId = team.id ∧ m.userId = user.id ∧
        summary = fromTeam ctx team (some m.role)

section
variable {Key : Type} {ctx : RosterContext Key} {t : Table users}
  {as : List (Action (service ctx) Request)} {s : RosterSys} {i : Nat} {userId : Uuid}

/-- A summary that was read has a role. -/
theorem role_of_summarized (hrun : run (next ctx) (Sys.init (.afterMigrations t)) as = some s)
    {req : Users.Request} {p : Program Op Op.Answer (Except AppError Response)}
    (hjob : s.jobs[i]? = some ⟨.listForMe req, p⟩) {team : Team} {summary : TeamSummary}
    (h : Summarized ctx (own i (entries ctx t as)) userId team summary) :
    ∃ f ∈ entries ctx t as, f.job = i ∧ f.op = .roleFor team.id userId ∧
      ∃ m ∈ f.before.invites.state.members.rows, m.teamId = team.id ∧ m.userId = userId ∧
        summary = fromTeam ctx team (some m.role) := by
  obtain ⟨role, hrole, rfl⟩ := h
  obtain ⟨f, hf, hi, hop, rfl⟩ := role_of_answered hrole
  obtain ⟨role, hrole⟩ := roleFor_of_isMember (isMember_of_role hrun hjob hf hi hop)
  obtain ⟨m, hm, hteam, huser, hname⟩ := roleFor_eq_some hrole
  exact ⟨f, hf, hi, hop, m, hm, hteam, huser, by rw [hrole, hname]; rfl⟩

/-- The teams of a run of the service are those of the backfill. -/
theorem teams_of_run {invites : InviteContext} {accounts : Users.UsersContext Key}
    {bs : List AccountAction} {x : Accounts}
    (hrun : run (accountsNext accounts invites) (.afterMigrations t) bs = some x) :
    x.invites.state.teams = (migrate0005 t).teams :=
  teams_kept (run_inviteActions hrun)

/-- Whoever the backfill put on a team is still on it. -/
theorem isMember_run {invites : InviteContext} {accounts : Users.UsersContext Key}
    {bs : List AccountAction} {x y : Accounts} {teamId : Uuid}
    (hrun : run (accountsNext accounts invites) x bs = some y)
    (h : IsMember x.invites.state teamId userId) : IsMember y.invites.state teamId userId :=
  Transition.run_invariant (P := fun z : Accounts => IsMember z.invites.state teamId userId)
    (C := fun _ _ => True) (fun _ _ _ hz _ hstep => isMember_next hstep hz) h
    (Transition.along_true _ _) hrun

/-- In every run, with everything else that the service does between its statements,
`list_for_me` answers with the teams that the user was on, each once and in the order of
their names, and each with a role, which the user had when it was asked for. A user from
before 0005 finds the own team among them. -/
theorem list_for_me_answers
    (hrun : run (next ctx) (Sys.init (.afterMigrations t)) as = some s) {req : Users.Request}
    {summaries : List TeamSummary}
    (hjob : s.jobs[i]? = some ⟨.listForMe req, .done (.ok (.teams summaries))⟩) :
    ∃ user listing, TeamsAnswer ctx (entries ctx t as) i req summaries user listing ∧
      ∀ u ∈ t.rows, u.id = user.id → u.deletedAt = none →
        ∃ summary ∈ summaries, summary.id = user.id ∧ summary.ownerUserId = user.id := by
  obtain ⟨userId, teams, hteams, hsummaries⟩ :=
    Concurrent.value_of_run (handle_follows ctx) hrun hjob _ rfl
  obtain ⟨listing, hlisting, hi, hop, scan, rfl⟩ := listing_of_answered hteams
  obtain ⟨pre, post, hsplit⟩ := List.append_of_mem hlisting
  have hcause := (Concurrent.lawful_of_trace (handle_follows ctx) hrun hsplit).allowed
  rw [hop, request_of_entry hrun hjob hlisting hi] at hcause
  obtain ⟨req', user, hreq, rfl, huser⟩ := hcause
  cases hreq
  have hmade : ∀ summary ∈ summaries, ∃ team ∈ listing.before.invites.state.teams.rows,
      ∃ f ∈ entries ctx t as, f.job = i ∧ f.op = .roleFor team.id user.id ∧
        ∃ m ∈ f.before.invites.state.members.rows, m.teamId = team.id ∧ m.userId = user.id ∧
          summary = fromTeam ctx team (some m.role) := by
    intro summary hsummary
    obtain ⟨team, hteam, hmade⟩ := exists_of_forall₂ hsummaries hsummary
    exact ⟨team, (mem_teamsOf.mp (mem_orderBy.mp hteam)).1, role_of_summarized hrun hjob hmade⟩
  -- A summary has the id and the name of its team.
  have hids : summaries.map TeamSummary.id = _ := map_eq_of_forall₂
    (fun team summary hmade => by obtain ⟨role, -, rfl⟩ := hmade; rfl) hsummaries
  have hnames : summaries.map TeamSummary.name = _ := map_eq_of_forall₂
    (fun team summary hmade => by obtain ⟨role, -, rfl⟩ := hmade; rfl) hsummaries
  have hexact : ∀ teamId, (∃ summary ∈ summaries, summary.id = teamId) ↔
      ∃ team ∈ listing.before.invites.state.teams.rows, team.id = teamId ∧
        team.deletedAt = none ∧ IsMember listing.before.invites.state teamId user.id := by
    intro teamId
    rw [← List.mem_map, hids, List.mem_map]
    constructor
    · rintro ⟨team, hteam, rfl⟩
      obtain ⟨hteam, hlive, hmember⟩ := mem_teamsOf.mp (mem_orderBy.mp hteam)
      exact ⟨team, hteam, rfl, hlive, hmember⟩
    · rintro ⟨team, hteam, rfl, hlive, hmember⟩
      exact ⟨team, mem_orderBy.mpr (mem_teamsOf.mpr ⟨hteam, hlive, hmember⟩), rfl⟩
  refine ⟨user, listing,
    { loggedIn := ?_, selected := ⟨hlisting, hi, hop⟩, exact := hexact, nodup := ?_, sorted := ?_,
      role := hmade }, ?_⟩
  · exact hi ▸ (loggedIn_of_answered huser).mono (subset_of_split hsplit)
  · rw [hids]
    exact (orderBy_perm.map Team.id).nodup_iff.mpr nodup_teamsOf
  · have hsorted :
        (summaries.map TeamSummary.name).Pairwise fun a b => ctx.byName.le a b = true := by
      rw [hnames, List.pairwise_map]
      exact orderBy_pairwise (fun a b => ctx.byName.total a.name b.name)
        fun a b c => ctx.byName.trans a.name b.name c.name
    exact List.pairwise_map.mp hsorted
  · intro u hu hid hlive
    obtain ⟨bs, hbs⟩ := reachable_before hrun hsplit
    have hteams := teams_of_run hbs
    have hback : soloTeam u ∈ (migrate0005 t).teams.rows :=
      List.mem_map_of_mem (List.mem_filter.mpr ⟨hu, decide_eq_true hlive⟩)
    have hmember : IsMember (migrate0005 t) u.id u.id :=
      ⟨ownerMembership (soloTeam u), List.mem_map_of_mem hback, rfl, rfl⟩
    obtain ⟨summary, hsummary, hsummaryId⟩ := (hexact user.id).mpr
      ⟨soloTeam u, hteams ▸ hback, hid, rfl, hid ▸ isMember_run hbs hmember⟩
    refine ⟨summary, hsummary, hsummaryId, ?_⟩
    obtain ⟨team, hteam, -, -, -, -, m, -, -, -, rfl⟩ := hmade summary hsummary
    have hsame : team = soloTeam u := listing.before.invites.state.teams.eq_of_key hteam
      (hteams ▸ hback) (hsummaryId.trans hid.symm)
    rw [hsame]
    exact hid

/-! ### `list_members` -/

/-- A row of a roster. Its name is that of the account when it was asked for, or else the
address. It is missing only when that statement failed. -/
structure RosterRow {Key : Type} (ctx : RosterContext Key) (past : List (Entry ctx)) (i : Nat)
    (m : TeamMember) (dto : TeamMemberDto) : Prop where
  userId : dto.userId = m.userId
  role : dto.role = m.role
  joinedAt : dto.joinedAt = ctx.accounts.formatRfc3339 m.joinedAt
  name : ∃ f ∈ past, f.job = i ∧
    ((∃ e, f.event = ⟨.fetchById m.userId, Except.error e⟩ ∧ dto.displayName = none) ∨
      ∃ u ∈ f.before.users.rows, f.op = .fetchById m.userId ∧ u.id = m.userId ∧
        u.deletedAt = none ∧ dto.displayName = some (u.displayName.getD u.email))

/-- An answer of `list_members` to the user, who was on the team when the role was read and
still when the members were: the members at the moment of the SELECT `listing`. -/
structure RosterAnswer {Key : Type} (ctx : RosterContext Key) (past : List (Entry ctx)) (i : Nat)
    (req : Users.Request) (teamId : Uuid) (response : TeamMembersResponse) (user : User)
    (listing : Entry ctx) : Prop where
  loggedIn : LoggedIn past i req user
  selected : listing ∈ past ∧ listing.job = i ∧ listing.op = .listMembers teamId
  admitted : ∃ f ∈ past, f.job = i ∧ f.op = .roleFor teamId user.id ∧
    IsMember f.before.invites.state teamId user.id
  member : IsMember listing.before.invites.state teamId user.id
  team : response.teamId = teamId
  rows : ∃ members, members.Perm (listing.before.invites.state.members.rows.filter
      fun m => m.teamId = teamId) ∧ (members.Pairwise fun a b => a.joinedAt ≤ b.joinedAt) ∧
    List.Forall₂ (RosterRow ctx past i) members response.members

/-- What was read of a member. -/
theorem rosterRow_of_described
    (hrun : run (next ctx) (Sys.init (.afterMigrations t)) as = some s) {m : TeamMember}
    {dto : TeamMemberDto} (h : Described ctx (own i (entries ctx t as)) m dto) :
    RosterRow ctx (entries ctx t as) i m dto := by
  obtain ⟨found, hfound, rfl⟩ := h
  obtain ⟨f, hf, hi, hevent, hok⟩ := found_of_answered hfound
  refine ⟨rfl, rfl, rfl, f, hf, hi, ?_⟩
  have hop : f.op = .fetchById m.userId := congrArg Sigma.fst hevent
  cases found with
  | error e => exact Or.inl ⟨e, hevent, rfl⟩
  | ok x =>
    obtain ⟨u, hu, hid, hlive⟩ := hasAccount_of_fetch hrun hf hop
    have hfetch := hok x rfl
    cases hfind : fetchById f.before.users m.userId with
    | none =>
      have hno := List.find?_eq_none.mp hfind u hu
      simp [Users.Repository.isLive, hid, hlive] at hno
    | some u' =>
      have hlive' := List.find?_some hfind
      simp only [Users.Repository.isLive, Bool.and_eq_true, decide_eq_true_eq] at hlive'
      refine Or.inr ⟨u', List.mem_of_find?_eq_some hfind, hop, hlive'.1, hlive'.2, ?_⟩
      rw [hfetch, hfind]
      cases hname : u'.displayName <;> simp [memberDto, Except.toOption, hname]

/-- In every run, with everything else that the service does between its statements,
`list_members` answers only a user who was on the team, with exactly the members of that
moment in the order in which they joined. -/
theorem list_members_answers
    (hrun : run (next ctx) (Sys.init (.afterMigrations t)) as = some s) {req : Users.Request}
    {path : Option Uuid} {response : TeamMembersResponse}
    (hjob : s.jobs[i]? = some ⟨.listMembers req path, .done (.ok (.members response))⟩) :
    ∃ user teamId listing, path = some teamId ∧
      RosterAnswer ctx (entries ctx t as) i req teamId response user listing := by
  obtain ⟨req', teamId, members, hreq, hteam, hmembers, hrows⟩ :=
    Concurrent.value_of_run (handle_follows ctx) hrun hjob _ rfl
  cases hreq
  obtain ⟨listing, hlisting, hi, hop, scan, rfl⟩ := members_of_answered hmembers
  obtain ⟨pre, post, hsplit⟩ := List.append_of_mem hlisting
  have hcause := (Concurrent.lawful_of_trace (handle_follows ctx) hrun hsplit).allowed
  rw [hop, request_of_entry hrun hjob hlisting hi] at hcause
  obtain ⟨req', user, role, hreq, huser, hrole⟩ := hcause
  cases hreq
  -- The role was read first, and the membership stays.
  obtain ⟨g, hg, hgi, hgop, hroleFor⟩ := role_of_answered hrole
  obtain ⟨m, hm, hmteam, hmuser, -⟩ := roleFor_eq_some hroleFor.symm
  have hmember : IsMember g.before.invites.state teamId user.id := ⟨m, hm, hmteam, hmuser⟩
  refine ⟨user, teamId, listing, rfl, ?_, ⟨hlisting, hi, hop⟩,
    ⟨g, subset_of_split hsplit hg, hgi.trans hi, hgop, hmember⟩,
    isMember_later hrun hsplit hg hmember, hteam, _, orderBy_perm, ?_,
    hrows.imp fun m dto => rosterRow_of_described hrun⟩
  · exact hi ▸ (loggedIn_of_answered huser).mono (subset_of_split hsplit)
  · exact (orderBy_pairwise (fun a b => by simpa using Int.le_total a.joinedAt b.joinedAt)
      fun a b c hab hbc => by
        simpa using Int.le_trans (by simpa using hab) (by simpa using hbc)).imp of_decide_eq_true

end

/-! ### Bob looks at his teams -/

def rosterContext : RosterContext Unit where
  accounts := twoAccounts
  invites := inviteContext
  branding _ := ⟨none, none⟩
  byName :=
    { le := fun a b => decide (a ≤ b)
      total := fun a b => by simpa using String.le_total a b
      trans := fun a b c hab hbc => by
        simp only [decide_eq_true_eq] at hab hbc ⊢
        exact String.le_trans hab hbc }

/-- Every statement runs. -/
def answered : (o : Op) → (service rosterContext).In o
  | .step _ => ()
  | .authenticate _ => ()
  | .listForUser _ => (.run 30 ⟨0⟩ true, fun _ => 0)
  | .roleFor _ _ => .run 30 ⟨0⟩ true
  | .listMembers _ => (.run 30 ⟨0⟩ true, fun _ => 0)
  | .fetchById _ => .run 30 ⟨0⟩ true

/-- Bob joins the team of Alice, and then asks for a listing. -/
def joinedThen (r : Request) (statements : Nat) : List (Action (service rosterContext) Request) :=
  joining.zipIdx.flatMap (fun (a, i) => [.spawn (.other a), .advance i answered]) ++
    .spawn r :: List.replicate statements (.advance joining.length answered)

def aliceTeam : TeamSummary := ⟨⟨1⟩, "Alice", ⟨1⟩, none, none, some "advisor", none⟩

def aliceRoster : TeamMembersResponse :=
  ⟨⟨1⟩, [⟨⟨1⟩, "owner", none, some "Alice"⟩, ⟨⟨2⟩, "advisor", none, some "Bob@example.com"⟩]⟩

theorem list_for_me_answers_joined : ∃ user listing,
    TeamsAnswer rosterContext (entries rosterContext oneUser
      (joinedThen (.listForMe (bearing "Bearer b")) 3)) 10 (bearing "Bearer b") [aliceTeam] user
      listing := by
  obtain ⟨s, hrun, hjob⟩ : ∃ s, run (next rosterContext) (Sys.init (.afterMigrations oneUser))
      (joinedThen (.listForMe (bearing "Bearer b")) 3) = some s ∧
        s.jobs[10]? = some ⟨.listForMe (bearing "Bearer b"), .done (.ok (.teams [aliceTeam]))⟩ :=
    ⟨_, rfl, rfl⟩
  obtain ⟨user, listing, hanswer, -⟩ := list_for_me_answers hrun hjob
  exact ⟨user, listing, hanswer⟩

theorem list_members_answers_joined : ∃ user listing,
    RosterAnswer rosterContext (entries rosterContext oneUser
      (joinedThen (.listMembers (bearing "Bearer b") (some ⟨1⟩)) 5)) 10 (bearing "Bearer b") ⟨1⟩
      aliceRoster user listing := by
  obtain ⟨s, hrun, hjob⟩ : ∃ s, run (next rosterContext) (Sys.init (.afterMigrations oneUser))
      (joinedThen (.listMembers (bearing "Bearer b") (some ⟨1⟩)) 5) = some s ∧
        s.jobs[10]? = some ⟨.listMembers (bearing "Bearer b") (some ⟨1⟩),
          .done (.ok (.members aliceRoster))⟩ := ⟨_, rfl, rfl⟩
  obtain ⟨user, teamId, listing, hpath, hanswer⟩ := list_members_answers hrun hjob
  cases hpath
  exact ⟨user, listing, hanswer⟩

end MizanConnect.Proofs.Teams.Roster
