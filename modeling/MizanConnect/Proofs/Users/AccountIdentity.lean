import MizanConnect.Proofs.Teams.Membership

/-!
# `MizanConnect.Proofs.Users.AccountIdentity`: whose row it is

A row of `users` belongs to one Supabase user, and only a request with a verified token
of that user writes it. `serve_rows` says where a row of the table after a request comes
from, `serve_keeps` that no row goes away or changes its identity, and `serve_frame` that
the rows of the others stay as they are.

The step lemmas are about one request. `rows_run` takes them to the runs of the whole
service, where the invite requests pass the same extractor.
-/

set_option autoImplicit false

namespace MizanConnect.Proofs.Users

open MizanConnect.Auth
open MizanConnect.Users
open MizanConnect.Teams (AccountAction Accounts InviteContext accountsNext)
open Sql (Table)
open Transition (run run_cons_eq_some)

variable {Key : Type}

/-- Two versions of one account, the second of which is not deleted unless the first
is. -/
structure SameAccount (u u' : User) : Prop where
  id : u'.id = u.id
  supabaseUserId : u'.supabaseUserId = u.supabaseUserId
  createdAt : u'.createdAt = u.createdAt
  live : u.deletedAt = none → u'.deletedAt = none

theorem SameAccount.refl (u : User) : SameAccount u u := ⟨rfl, rfl, rfl, fun h => h⟩

theorem SameAccount.trans {u v w : User} (h : SameAccount u v) (h' : SameAccount v w) :
    SameAccount u w where
  id := h'.id.trans h.id
  supabaseUserId := h'.supabaseUserId.trans h.supabaseUserId
  createdAt := h'.createdAt.trans h.createdAt
  live := h'.live ∘ h.live

/-- The row that a request writes: the address is that of its token, and a name or an
avatar is that of its token, of its body, or of the row before it. -/
structure WrittenBy (ctx : UsersContext Key) (t : Table users) (req : Request)
    (claims : SupabaseClaims) (r : User) : Prop where
  own : presented ctx req = some (r.supabaseUserId, claims)
  email : claims.email = some r.email
  name : ∀ n, r.displayName = some n → bodyName req = some n ∨ claims.displayName = some n ∨
    ∃ old ∈ t.rows, old.supabaseUserId = r.supabaseUserId ∧ old.displayName = some n
  avatar : ∀ a, r.avatarUrl = some a → claims.avatarUrl = some a ∨
    ∃ old ∈ t.rows, old.supabaseUserId = r.supabaseUserId ∧ old.avatarUrl = some a
  account : (∃ old ∈ t.rows, SameAccount old r) ∨
    ((∀ u ∈ t.rows, u.supabaseUserId ≠ r.supabaseUserId ∧ u.id ≠ r.id) ∧ r.id = req.newId)

section
variable {ctx : UsersContext Key} {req : Request} {t t' : Table users} {user r u : User}

/-! ### One request -/

/-- The claims that a request presents are those of its token. -/
theorem claims_of_presented {supabaseUserId : Uuid} {claims : SupabaseClaims}
    (h : presented ctx req = some (supabaseUserId, claims)) :
    claimsOf ctx.jwt req.authorization = .ok claims := by
  unfold presented at h
  split at h
  · cases h
  · rename_i c hc
    split at h
    · split at h
      · cases h
      · cases h
        exact hc
    · cases h

/-- What the extractor writes. -/
theorem authenticate_written (h : authenticate ctx req t = .ok (t', user)) :
    t.write [user] = .ok t' ∧ ∃ claims, WrittenBy ctx t req claims user := by
  obtain ⟨claims', hclaims', -, hemail⟩ := Teams.authenticate_claims h
  cases hpres : presented ctx req with
  | none =>
    obtain ⟨e, he⟩ := authenticate_of_presented_none (t := t) hpres
    rw [he] at h
    cases h
  | some sc =>
    obtain ⟨s, claims⟩ := sc
    rw [Except.ok.inj (hclaims'.symm.trans (claims_of_presented hpres))] at hemail
    obtain ⟨email, hauth⟩ := authenticate_of_presented (t := t) hpres
    rw [hauth] at h
    obtain ⟨hwrite, ⟨old, hold, hsub, rfl⟩ | ⟨hnone, rfl, hid⟩⟩ :=
      upsertUser_ok (mapError_eq_ok.mp h)
    · subst hsub
      refine ⟨hwrite, claims, hpres, hemail, fun n hn => ?_, fun a ha => ?_,
        Or.inl ⟨old, hold, rfl, rfl, rfl, fun _ => rfl⟩⟩
      · rcases Option.or_eq_some_iff.mp hn with hclaim | ⟨-, hold'⟩
        · exact Or.inr (Or.inl hclaim)
        · exact Or.inr (Or.inr ⟨old, hold, rfl, hold'⟩)
      · rcases Option.or_eq_some_iff.mp ha with hclaim | ⟨-, hold'⟩
        · exact Or.inl hclaim
        · exact Or.inr ⟨old, hold, rfl, hold'⟩
    · exact ⟨hwrite, claims, hpres, hemail, fun n hn => Or.inr (Or.inl hn), fun a ha => Or.inl ha,
        Or.inr ⟨fun u hu => ⟨hnone u hu, hid u hu⟩, rfl⟩⟩

/-- What the handler of an endpoint writes: the row of the user under the name of the
body, or nothing. -/
theorem handle_rows (ctx : UsersContext Key) (req : Request) (huser : user ∈ t.rows)
    (hlive : user.deletedAt = none) :
    (handle ctx req user t).2 = t ∨ ∃ body, bodyName req = body ∧
      t.write [Repository.renamed req.now body user] = .ok (handle ctx req user t).2 := by
  unfold handle bodyName
  rcases req.endpoint with _ | (_ | body) | _
  · exact Or.inl rfl
  · exact Or.inl rfl
  · simp only [patchMe]
    cases body.validate with
    | error e => exact Or.inl rfl
    | ok valid =>
      cases req.unreachable .updateDisplayName with
      | true => exact Or.inl rfl
      | false =>
        obtain ⟨t', hupdate, hwrite⟩ := updateDisplayName_live req.now body.newName huser hlive
        simp only [Bool.false_eq_true, if_false, hupdate]
        exact Or.inr ⟨_, rfl, hwrite⟩
  · exact Or.inl rfl

/-- A rename keeps what is known of the row. -/
theorem WrittenBy.renamed {claims : SupabaseClaims} {body : Option String}
    (h : WrittenBy ctx t req claims user) (hbody : bodyName req = body) :
    WrittenBy ctx t req claims (Repository.renamed req.now body user) where
  own := h.own
  email := h.email
  name := by
    intro n hn
    rcases Option.or_eq_some_iff.mp hn with hnew | ⟨-, hold⟩
    · exact Or.inl (hbody.trans hnew)
    · exact h.name n hold
  avatar := h.avatar
  account := by
    rcases h.account with ⟨old, hold, hsame⟩ | hnew
    · exact Or.inl ⟨old, hold, hsame.id, hsame.supabaseUserId, hsame.createdAt, hsame.live⟩
    · exact Or.inr hnew

/-- A row after a request was there before, or the request has written it, with a token
of the user. -/
theorem serve_rows (hr : r ∈ (serve ctx req t).2.rows) :
    r ∈ t.rows ∨ ∃ claims, WrittenBy ctx t req claims r := by
  unfold serve at hr
  cases hauth : authenticate ctx req t with
  | error e =>
    rw [hauth] at hr
    exact Or.inl hr
  | ok out =>
    obtain ⟨t', user⟩ := out
    rw [hauth] at hr
    obtain ⟨hwrite, claims, hwritten⟩ := authenticate_written hauth
    obtain ⟨-, -, huser, hlive, -⟩ := authenticate_ok hauth
    have hbefore : ∀ x ∈ t'.rows, x ∈ t.rows ∨ ∃ claims, WrittenBy ctx t req claims x := by
      intro x hx
      rcases (Table.mem_write_singleton hwrite).mp hx with rfl | ⟨hx, -⟩
      · exact Or.inr ⟨claims, hwritten⟩
      · exact Or.inl hx
    rcases handle_rows ctx req huser hlive with hsame | ⟨body, hbody, hrename⟩
    · exact hbefore r (hsame ▸ hr)
    · rcases (Table.mem_write_singleton hrename).mp hr with rfl | ⟨hr, -⟩
      · exact Or.inr ⟨claims, hwritten.renamed hbody⟩
      · exact hbefore r hr

/-- A written row takes the place of its own account, or a free one. -/
theorem write_keeps {w : User} (hwrite : t.write [w] = .ok t')
    (haccount : (∃ old ∈ t.rows, SameAccount old w) ∨ ∀ u ∈ t.rows, u.id ≠ w.id)
    (hu : u ∈ t.rows) : ∃ u' ∈ t'.rows, SameAccount u u' := by
  by_cases hid : u.id = w.id
  · rcases haccount with ⟨old, hold, hsame⟩ | hfree
    · cases t.eq_of_key hu hold (hid.trans hsame.id)
      exact ⟨w, (Table.mem_write_singleton hwrite).mpr (Or.inl rfl), hsame⟩
    · exact absurd hid (hfree u hu)
  · exact ⟨u, (Table.mem_write_singleton hwrite).mpr (Or.inr ⟨hu, hid⟩), SameAccount.refl u⟩

/-- No row goes away, and none changes its identity. -/
theorem serve_keeps (ctx : UsersContext Key) (req : Request) (hu : u ∈ t.rows) :
    ∃ u' ∈ (serve ctx req t).2.rows, SameAccount u u' := by
  unfold serve
  cases hauth : authenticate ctx req t with
  | error e => exact ⟨u, hu, SameAccount.refl u⟩
  | ok out =>
    obtain ⟨t', user⟩ := out
    obtain ⟨hwrite, claims, hwritten⟩ := authenticate_written hauth
    obtain ⟨-, -, huser, hlive, -⟩ := authenticate_ok hauth
    obtain ⟨v, hv, hsame⟩ := write_keeps hwrite
      (hwritten.account.imp_right fun hnew x hx => (hnew.1 x hx).2) hu
    rcases handle_rows ctx req huser hlive with hrows | ⟨body, -, hrename⟩
    · refine ⟨v, ?_, hsame⟩
      show v ∈ (handle ctx req user t').2.rows
      rw [hrows]
      exact hv
    · obtain ⟨u', hu', hsame'⟩ :=
        write_keeps hrename (Or.inl ⟨user, huser, rfl, rfl, rfl, id⟩) hv
      exact ⟨u', hu', hsame.trans hsame'⟩

/-- A request that does not present the user of a row leaves the row as it is. -/
theorem serve_frame (hu : u ∈ t.rows)
    (hother : ∀ claims, presented ctx req ≠ some (u.supabaseUserId, claims)) :
    u ∈ (serve ctx req t).2.rows := by
  obtain ⟨u', hu', hsame⟩ := serve_keeps ctx req hu
  rcases serve_rows hu' with hold | ⟨claims, hwritten⟩
  · cases t.eq_of_key hu hold hsame.id.symm
    exact hu'
  · refine absurd (hsame.supabaseUserId ▸ hwritten.own) (hother claims)

end

/-! ### Runs of the service -/

/-- A request of the list presents the user, with these claims. -/
def Presents (ctx : UsersContext Key) (reqs : List Request) (supabaseUserId : Uuid)
    (req : Request) (claims : SupabaseClaims) : Prop :=
  req ∈ reqs ∧ presented ctx req = some (supabaseUserId, claims)

/-- Where the data of a row are from: the row of the same user at the start, or a request
that presented the user. -/
structure Sourced (ctx : UsersContext Key) (start : Table users) (reqs : List Request) (r : User) :
    Prop where
  email : (∃ u ∈ start.rows, u.supabaseUserId = r.supabaseUserId ∧ u.email = r.email) ∨
    ∃ req claims, Presents ctx reqs r.supabaseUserId req claims ∧ claims.email = some r.email
  name : ∀ n, r.displayName = some n →
    (∃ u ∈ start.rows, u.supabaseUserId = r.supabaseUserId ∧ u.displayName = some n) ∨
      ∃ req claims, Presents ctx reqs r.supabaseUserId req claims ∧
        (bodyName req = some n ∨ claims.displayName = some n)
  avatar : ∀ a, r.avatarUrl = some a →
    (∃ u ∈ start.rows, u.supabaseUserId = r.supabaseUserId ∧ u.avatarUrl = some a) ∨
      ∃ req claims, Presents ctx reqs r.supabaseUserId req claims ∧ claims.avatarUrl = some a

section
variable {ctx : UsersContext Key} {req : Request} {start t : Table users} {reqs : List Request}
  {r u : User}

theorem Presents.later {supabaseUserId : Uuid} {old : Request} {claims : SupabaseClaims}
    (h : Presents ctx reqs supabaseUserId old claims) :
    Presents ctx (reqs ++ [req]) supabaseUserId old claims :=
  ⟨List.mem_append_left _ h.1, h.2⟩

theorem Sourced.later (req : Request) (h : Sourced ctx start reqs r) :
    Sourced ctx start (reqs ++ [req]) r where
  email := h.email.imp_right fun ⟨old, claims, hold, heq⟩ => ⟨old, claims, hold.later, heq⟩
  name := fun n hn =>
    (h.name n hn).imp_right fun ⟨old, claims, hold, heq⟩ => ⟨old, claims, hold.later, heq⟩
  avatar := fun a ha =>
    (h.avatar a ha).imp_right fun ⟨old, claims, hold, heq⟩ => ⟨old, claims, hold.later, heq⟩

/-- One more request. -/
theorem sourced_step (h : ∀ u ∈ t.rows, Sourced ctx start reqs u)
    (hr : r ∈ (serve ctx req t).2.rows) : Sourced ctx start (reqs ++ [req]) r := by
  rcases serve_rows hr with hold | ⟨claims, hwritten⟩
  · exact (h r hold).later req
  have hown : Presents ctx (reqs ++ [req]) r.supabaseUserId req claims :=
    ⟨List.mem_append_right _ (List.mem_singleton_self req), hwritten.own⟩
  refine ⟨Or.inr ⟨req, claims, hown, hwritten.email⟩, fun n hn => ?_, fun a ha => ?_⟩
  · rcases hwritten.name n hn with hbody | hclaim | ⟨old, hold, hsub, hname⟩
    · exact Or.inr ⟨req, claims, hown, Or.inl hbody⟩
    · exact Or.inr ⟨req, claims, hown, Or.inr hclaim⟩
    · have hsourced := ((h old hold).later req).name n hname
      rwa [hsub] at hsourced
  · rcases hwritten.avatar a ha with hclaim | ⟨old, hold, hsub, havatar⟩
    · exact Or.inr ⟨req, claims, hown, hclaim⟩
    · have hsourced := ((h old hold).later req).avatar a havatar
      rwa [hsub] at hsourced

/-- Induction on the run from the right: `sourced_step` is its last request. -/
theorem sourced_after (reqs : List Request) :
    ∀ r ∈ (after ctx start reqs).rows, Sourced ctx start reqs r := by
  induction reqs using List.reverseRecOn with
  | nil =>
    intro r hr
    exact ⟨Or.inl ⟨r, hr, rfl, rfl⟩, fun n hn => Or.inl ⟨r, hr, rfl, hn⟩,
      fun a ha => Or.inl ⟨r, hr, rfl, ha⟩⟩
  | append_singleton reqs req ih =>
    intro r hr
    rw [after, List.foldl_append] at hr
    exact sourced_step ih hr

theorem keeps_after (reqs : List Request) (hu : u ∈ start.rows) :
    ∃ u' ∈ (after ctx start reqs).rows, SameAccount u u' := by
  induction reqs using List.reverseRecOn with
  | nil => exact ⟨u, hu, SameAccount.refl u⟩
  | append_singleton reqs req ih =>
    obtain ⟨v, hv, hsame⟩ := ih
    obtain ⟨u', hu', hsame'⟩ := serve_keeps ctx req hv
    refine ⟨u', ?_, hsame.trans hsame'⟩
    rw [after, List.foldl_append]
    exact hu'

theorem frame_after (reqs : List Request) (hu : u ∈ start.rows)
    (hother : ∀ req claims, ¬ Presents ctx reqs u.supabaseUserId req claims) :
    u ∈ (after ctx start reqs).rows := by
  induction reqs using List.reverseRecOn with
  | nil => exact hu
  | append_singleton reqs req ih =>
    have hbefore := ih fun old claims hold => hother old claims hold.later
    rw [after, List.foldl_append]
    refine serve_frame hbefore fun claims hpres => hother req claims ⟨?_, hpres⟩
    exact List.mem_append_right _ (List.mem_singleton_self req)

end

/-- What a step of the service does to `users`, as a request of any endpoint. -/
def served : AccountAction → Option Request
  | .serve req => some req
  | .arrive req _ => some { req with endpoint := .other }
  | .advance _ _ => none

section
variable {ctx : UsersContext Key} {invites : InviteContext} {s s' : Accounts}
  {as : List AccountAction}

/-- The table of a run is that of its requests. -/
theorem users_run (hrun : run (accountsNext ctx invites) s as = some s') :
    s'.users = after ctx s.users (as.filterMap served) := by
  induction as generalizing s with
  | nil =>
    cases hrun
    rfl
  | cons a as ih =>
    obtain ⟨m, hm, hrest⟩ := run_cons_eq_some.mp hrun
    rw [ih hrest]
    cases a with
    | serve req =>
      cases hm
      rfl
    | arrive req endpoint =>
      have hserve : (serve ctx { req with endpoint := .other } s.users).2 = m.users := by
        simp only [accountsNext] at hm
        have hauth : authenticate ctx { req with endpoint := .other } s.users =
            authenticate ctx req s.users := rfl
        unfold serve
        rw [hauth]
        cases hout : authenticate ctx req s.users with
        | error e =>
          rw [hout] at hm
          cases hm
          rfl
        | ok out =>
          rw [hout] at hm
          obtain ⟨invites', -, rfl⟩ := Option.map_eq_some_iff.mp hm
          rfl
      rw [← hserve]
      rfl
    | advance i input =>
      obtain ⟨invites', -, rfl⟩ := Option.map_eq_some_iff.mp hm
      rfl

/-- In every run of the service, with invites in between: no row of `users` goes away,
and none changes its id, its Supabase user or the instant of its creation, or becomes
deleted. A row is as it was as long as no request has presented a verified token of its
user. And every address, name and avatar is that of the row at the start, or was brought by
a request with a verified token of the user of the row. -/
theorem account_identity (hrun : run (accountsNext ctx invites) s as = some s') :
    (∀ u ∈ s.users.rows, ∃ u' ∈ s'.users.rows, SameAccount u u') ∧
    (∀ u ∈ s.users.rows,
      (∀ req claims, ¬ Presents ctx (as.filterMap served) u.supabaseUserId req claims) →
        u ∈ s'.users.rows) ∧
    ∀ r ∈ s'.users.rows, Sourced ctx s.users (as.filterMap served) r := by
  rw [users_run hrun]
  exact ⟨fun u hu => keeps_after _ hu, fun u hu => frame_after _ hu, sourced_after _⟩

end

/-- Alice and Bob, as they were before 0005. -/
def aliceAndBob : Table users :=
  ⟨[Teams.owner, Teams.advisor], by simp [users], by decide, by
    simp [users, Sql.uniqueOn, Teams.owner, Teams.advisor]⟩

/-- `account_identity` for a login of Alice, which is none of Bob. -/
theorem account_identity_alice :
    ∃ s, run (accountsNext namedContext Teams.inviteContext) (.afterMigrations aliceAndBob)
        [.serve (aliceRequest .getMe)] = some s ∧
      Teams.owner ∉ s.users.rows ∧ (∃ u ∈ s.users.rows, SameAccount Teams.owner u) ∧
      Teams.advisor ∈ s.users.rows ∧
      ∀ r ∈ s.users.rows, Sourced namedContext aliceAndBob [aliceRequest .getMe] r := by
  obtain ⟨s, hrun, hrows⟩ : ∃ s, run (accountsNext namedContext Teams.inviteContext)
      (.afterMigrations aliceAndBob) [.serve (aliceRequest .getMe)] = some s ∧
        Teams.owner ∉ s.users.rows := ⟨_, rfl, by decide⟩
  obtain ⟨hkeeps, hframe, hsourced⟩ := account_identity hrun
  refine ⟨s, hrun, hrows, hkeeps Teams.owner List.mem_cons_self,
    hframe Teams.advisor (List.mem_cons_of_mem _ List.mem_cons_self) ?_, hsourced⟩
  intro req claims hpres
  cases List.mem_singleton.mp hpres.1
  have hother : (presented namedContext (aliceRequest .getMe)).map Prod.fst ≠
      some Teams.advisor.supabaseUserId := by decide
  exact hother (by rw [hpres.2]; rfl)

end MizanConnect.Proofs.Users
