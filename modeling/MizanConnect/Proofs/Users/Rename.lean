import Mathlib.Data.List.Induction
import MizanConnect.Users.Handlers

/-!
# `MizanConnect.Proofs.Users.Rename`: what becomes of a new display name

Two statements write `users.display_name`. `update_display_name` is the
PATCH, and `upsert_user_from_claims` runs before every authenticated
handler. The upsert sets the name of the token when the token has one, so a
rename lasts until the next request with such a token.

`written` is the name that one request leaves on the row, from its inputs
alone. `serve_step` is the specification of a request: the row of the user
gets the written name, or keeps its own, and a profile that the request
answers reports the name of the row. `after_lastWritten` is its fold over a
run, and `rename_survives_iff` settles when every later profile reports the
new name.
-/

set_option autoImplicit false

namespace MizanConnect.Proofs.Users

open MizanConnect.Auth
open MizanConnect.Users
open Sql (Table)

variable {Key : Type}

/-! ### What a request brings -/

/-- The Supabase id and the claims that a request presents, when it gets
through the extractor. -/
def presented (ctx : UsersContext Key) (req : Request) : Option (Uuid × SupabaseClaims) :=
  match claimsOf ctx.jwt req.authorization with
  | .error _ => none
  | .ok claims =>
    match ctx.parseUuid claims.sub, claims.email with
    | some supabaseUserId, some _ =>
      if req.unreachable .upsertUser then none else some (supabaseUserId, claims)
    | _, _ => none

/-- The name of a PATCH body. -/
def bodyName (req : Request) : Option String :=
  match req.endpoint with
  | .patchMe (some body) => body.newName
  | _ => none

/-- The handler of the request gets to `fetch_active`. -/
def reachesProfile (req : Request) : Bool :=
  match req.endpoint with
  | .getMe => true
  | .patchMe (some body) => body.validate.isOk && !req.unreachable .updateDisplayName
  | _ => false

/-- The name that a request of the user `supabaseUserId` leaves on the row:
that of the body, or else that of the token. -/
def written (ctx : UsersContext Key) (supabaseUserId : Uuid) (req : Request) :
    Option String :=
  match presented ctx req with
  | none => none
  | some (s, claims) =>
    if s = supabaseUserId then
      (if reachesProfile req then bodyName req else none).or claims.displayName
    else none

/-- The request is one of the user and is answered with a profile. -/
def Answered (ctx : UsersContext Key) (supabaseUserId : Uuid) (req : Request) : Prop :=
  (∃ claims, presented ctx req = some (supabaseUserId, claims)) ∧
    reachesProfile req = true ∧ req.unreachable .fetchActive = false

/-! ### The extractor -/

section
variable {ctx : UsersContext Key} {req : Request} {t t' : Table users} {user : User}

/-- The extractor upserts the row of the presented claims. -/
theorem authenticate_of_presented {supabaseUserId : Uuid} {claims : SupabaseClaims}
    (h : presented ctx req = some (supabaseUserId, claims)) :
    ∃ email, authenticate ctx req t
      = (fetchOne t (t.upserted (proposedUser req.now req.newId supabaseUserId email claims)
          (fun u => u.supabaseUserId = supabaseUserId) (mergeUser req.now email claims))).mapError
          AppError.ofDb := by
  unfold presented at h
  cases hclaims : claimsOf ctx.jwt req.authorization with
  | error e => simp [hclaims] at h
  | ok c =>
    simp only [hclaims] at h
    cases hsub : ctx.parseUuid c.sub with
    | none => simp [hsub] at h
    | some s =>
      cases hemail : c.email with
      | none => simp [hsub, hemail] at h
      | some email =>
        simp only [hsub, hemail] at h
        split at h
        · cases h
        · rename_i hreach
          cases h
          refine ⟨email, ?_⟩
          simp only [authenticate, hclaims, upsertUserFromClaims, hsub,
            SupabaseClaims.emailRequired, hemail, bind, Except.bind]
          rw [if_pos (by simpa using hreach)]

/-- A request that presents nothing is rejected. -/
theorem authenticate_of_presented_none (h : presented ctx req = none) :
    ∃ e, authenticate ctx req t = .error e := by
  simp only [authenticate, bind, Except.bind]
  unfold presented at h
  cases hclaims : claimsOf ctx.jwt req.authorization with
  | error e => exact ⟨e, rfl⟩
  | ok c =>
    simp only [hclaims] at h
    simp only [upsertUserFromClaims, SupabaseClaims.emailRequired, bind, Except.bind]
    cases hsub : ctx.parseUuid c.sub with
    | none => exact ⟨_, rfl⟩
    | some s =>
      cases hemail : c.email with
      | none => exact ⟨_, rfl⟩
      | some email =>
        simp only [hsub, hemail] at h
        split at h
        · rename_i hreach
          exact ⟨_, by rw [hreach]; rfl⟩
        · cases h

/-- Two rows with one Supabase id are the same row. -/
theorem eq_of_supabaseUserId {a b : User} (ha : a ∈ t.rows) (hb : b ∈ t.rows)
    (h : a.supabaseUserId = b.supabaseUserId) : a = b :=
  t.eq_of_clash ha hb ((Sql.uniqueOn_iff _ _ _).mpr ⟨_, rfl, congrArg some h.symm⟩)

/-- The two ways of the upsert. -/
theorem upsertUser_ok {supabaseUserId : Uuid} {email : String} {claims : SupabaseClaims}
    (h : fetchOne t (t.upserted (proposedUser req.now req.newId supabaseUserId email claims)
        (fun u => u.supabaseUserId = supabaseUserId) (mergeUser req.now email claims))
      = .ok (t', user)) :
    t.write [user] = .ok t' ∧
      ((∃ old ∈ t.rows, old.supabaseUserId = supabaseUserId ∧
          user = mergeUser req.now email claims old) ∨
        ((∀ u ∈ t.rows, u.supabaseUserId ≠ supabaseUserId) ∧
          user = proposedUser req.now req.newId supabaseUserId email claims ∧
          ∀ u ∈ t.rows, u.id ≠ user.id)) := by
  cases hrows : t.upserted (proposedUser req.now req.newId supabaseUserId email claims)
      (fun u => u.supabaseUserId = supabaseUserId) (mergeUser req.now email claims) with
  | error v =>
    rw [hrows] at h
    cases h
  | ok ws =>
    rw [hrows] at h
    obtain ⟨-, ⟨old, hold, hsub, rfl⟩ | ⟨hnone, rfl, hnew⟩⟩ := Table.upserted_cases hrows
    · obtain ⟨hwrite, rfl⟩ := fetchOne_singleton.mp h
      exact ⟨hwrite, Or.inl ⟨old, hold, by simpa using hsub, rfl⟩⟩
    · obtain ⟨hwrite, rfl⟩ := fetchOne_singleton.mp h
      exact ⟨hwrite, Or.inr ⟨fun u hu => by simpa using hnone u hu, rfl, hnew⟩⟩

/-- The upsert of a request: the row it returns is in the table and live,
has the name of the token or else the one the row had, and no row of another
user changes. -/
theorem authenticate_ok (h : authenticate ctx req t = .ok (t', user)) :
    ∃ claims, presented ctx req = some (user.supabaseUserId, claims) ∧
      user ∈ t'.rows ∧ user.deletedAt = none ∧
      (∀ u ∈ t.rows, u.supabaseUserId = user.supabaseUserId →
        user.displayName = claims.displayName.or u.displayName) ∧
      ∀ u ∈ t.rows, u.supabaseUserId ≠ user.supabaseUserId → u ∈ t'.rows := by
  cases hpres : presented ctx req with
  | none =>
    obtain ⟨e, he⟩ := authenticate_of_presented_none (t := t) hpres
    rw [he] at h
    cases h
  | some sc =>
    obtain ⟨s, claims⟩ := sc
    obtain ⟨email, hauth⟩ := authenticate_of_presented (t := t) hpres
    rw [hauth] at h
    obtain ⟨hwrite, hcases⟩ := upsertUser_ok (mapError_eq_ok.mp h)
    rcases hcases with ⟨old, hold, hsub, rfl⟩ | ⟨hnone, rfl, hnew⟩
    · subst hsub
      refine ⟨claims, rfl, (Table.mem_write_singleton hwrite).mpr (Or.inl rfl), rfl, ?_, ?_⟩
      · intro u hu hsame
        cases eq_of_supabaseUserId hu hold hsame
        rfl
      · intro u hu hne
        refine (Table.mem_write_singleton hwrite).mpr (Or.inr ⟨hu, fun hk => hne ?_⟩)
        cases t.eq_of_key hu hold hk
        rfl
    · refine ⟨claims, rfl, (Table.mem_write_singleton hwrite).mpr (Or.inl rfl), rfl, ?_, ?_⟩
      · intro u hu hsame
        exact absurd hsame (hnone u hu)
      · intro u hu _
        exact (Table.mem_write_singleton hwrite).mpr (Or.inr ⟨hu, hnew u hu⟩)

/-- A user with a row gets through the extractor. -/
theorem authenticate_existing {u : User} {claims : SupabaseClaims} (hu : u ∈ t.rows)
    (hpres : presented ctx req = some (u.supabaseUserId, claims)) :
    ∃ t' user, authenticate ctx req t = .ok (t', user) := by
  obtain ⟨email, hauth⟩ := authenticate_of_presented (t := t) hpres
  obtain ⟨old, hold, hsub, hrows⟩ := Table.upserted_of_conflict
    (proposedUser req.now req.newId u.supabaseUserId email claims)
    (fun x => x.supabaseUserId = u.supabaseUserId) (mergeUser req.now email claims)
    rfl hu (by simp)
  obtain ⟨t', hwrite⟩ := t.write_version_ok (w := mergeUser req.now email claims old) hold
    rfl rfl fun r hr => hr
  refine ⟨t', mergeUser req.now email claims old, ?_⟩
  rw [hauth, mapError_eq_ok, hrows, fetchOne_singleton]
  exact ⟨hwrite, rfl⟩

/-! ### The handlers -/

/-- The PATCH of a live user changes that row. -/
theorem updateDisplayName_live (now : Timestamp) (name : Option String) (huser : user ∈ t.rows)
    (hlive : user.deletedAt = none) :
    ∃ t', Repository.updateDisplayName t now user.id name
        = .ok (t', Repository.renamed now name user) ∧
      t.write [Repository.renamed now name user] = .ok t' := by
  have hfilter : t.rows.filter (Repository.isLive user.id) = [user] := by
    have hkey : t.rows.filter (fun x => users.key x = users.key user) = [user] :=
      t.filter_key huser
    rw [← hkey]
    refine List.filter_congr fun x hx => ?_
    by_cases hid : x.id = user.id
    · cases t.eq_of_key hx huser hid
      simp [Repository.isLive, hlive]
    · simp [Repository.isLive, users, hid]
  obtain ⟨t', hwrite⟩ := t.write_version_ok (w := Repository.renamed now name user) huser
    rfl rfl fun r hr => hr
  refine ⟨t', ?_, hwrite⟩
  rw [Repository.updateDisplayName, Table.updated, hfilter]
  exact fetchOne_singleton.mpr ⟨hwrite, rfl⟩

/-- A profile is answered once `fetch_active` has its connection. -/
theorem answerMe_eq_me_iff (me : MeResponse) :
    answerMe ctx req user = .me me ↔ req.unreachable .fetchActive = false ∧
      me = buildMe ctx.formatRfc3339 user
        (Billing.Repository.fetchActive req.subscriptions user.id) := by
  unfold answerMe
  cases req.unreachable .fetchActive <;> simp [eq_comm]

variable (ctx req) in
/-- The handler for a live user: the row gets the name of the body, or keeps
its own, the other rows stay, and a profile reports the row. -/
theorem handle_spec (huser : user ∈ t.rows) (hlive : user.deletedAt = none) :
    ∃ user' ∈ (handle ctx req user t).2.rows, user'.supabaseUserId = user.supabaseUserId ∧
      user'.displayName
        = (if reachesProfile req then bodyName req else none).or user.displayName ∧
      (∀ v ∈ t.rows, v.id ≠ user.id → v ∈ (handle ctx req user t).2.rows) ∧
      ∀ me, (handle ctx req user t).1 = .me me ↔
        (reachesProfile req = true ∧ req.unreachable .fetchActive = false) ∧
          me = buildMe ctx.formatRfc3339 user'
            (Billing.Repository.fetchActive req.subscriptions user'.id) := by
  unfold handle reachesProfile bodyName
  rcases hend : req.endpoint with _ | (_ | body) | _
  · exact ⟨user, huser, rfl, by simp, fun v hv _ => hv, by simp [answerMe_eq_me_iff]⟩
  · exact ⟨user, huser, rfl, by simp, fun v hv _ => hv, by simp⟩
  · simp only [patchMe]
    cases hvalid : body.validate with
    | error e =>
      exact ⟨user, huser, rfl, by simp [Except.isOk, Except.toBool], fun v hv _ => hv,
        by simp [Except.isOk, Except.toBool]⟩
    | ok valid =>
      cases hreach : req.unreachable .updateDisplayName with
      | true =>
        exact ⟨user, huser, rfl, by simp, fun v hv _ => hv, by simp⟩
      | false =>
        obtain ⟨t', hupdate, hwrite⟩ :=
          updateDisplayName_live req.now body.newName huser hlive
        simp only [Bool.false_eq_true, if_false, hupdate]
        refine ⟨Repository.renamed req.now body.newName user,
          (Table.mem_write_singleton hwrite).mpr (Or.inl rfl), rfl,
          by simp [Repository.renamed, Except.isOk, Except.toBool],
          fun v hv hne => (Table.mem_write_singleton hwrite).mpr (Or.inr ⟨hv, hne⟩), ?_⟩
        simp [answerMe_eq_me_iff, Except.isOk, Except.toBool]
  · exact ⟨user, huser, rfl, by simp, fun v hv _ => hv, by simp⟩

/-! ### One request -/

/-- A request that is not one of the user writes no name for the user. -/
theorem written_of_other {supabaseUserId : Uuid}
    (h : ∀ claims, presented ctx req ≠ some (supabaseUserId, claims)) :
    written ctx supabaseUserId req = none := by
  unfold written
  cases hpres : presented ctx req with
  | none => rfl
  | some sc =>
    obtain ⟨s, claims⟩ := sc
    refine if_neg ?_
    rintro rfl
    exact h claims hpres

variable (ctx req) in
/-- A request and the row of a user: the row gets the written name or keeps
its own, and the profiles that the request answers to the user are those of
`Answered`, with the name of the row. -/
theorem serve_step {u : User} (hu : u ∈ t.rows) :
    ∃ u' ∈ (serve ctx req t).2.rows, u'.supabaseUserId = u.supabaseUserId ∧
      u'.displayName = (written ctx u.supabaseUserId req).or u.displayName ∧
      (∀ me, (serve ctx req t).1 = .me me → me.supabaseUserId = u.supabaseUserId →
        Answered ctx u.supabaseUserId req ∧ me.displayName = u'.displayName) ∧
      (Answered ctx u.supabaseUserId req →
        ∃ me, (serve ctx req t).1 = .me me ∧ me.supabaseUserId = u.supabaseUserId) := by
  unfold serve
  cases hauth : authenticate ctx req t with
  | error e =>
    have hother : ∀ claims, presented ctx req ≠ some (u.supabaseUserId, claims) := by
      intro claims hpres
      obtain ⟨t', user, hok⟩ := authenticate_existing hu hpres
      rw [hok] at hauth
      cases hauth
    exact ⟨u, hu, rfl, by rw [written_of_other hother]; rfl, by simp,
      fun hanswered => absurd hanswered.1.choose_spec (hother _)⟩
  | ok out =>
    obtain ⟨t', user⟩ := out
    obtain ⟨claims, hpres, huser, hlive, hname, hframe⟩ := authenticate_ok hauth
    obtain ⟨user', huser', hsub', hname', hframe', hreply⟩ :=
      handle_spec ctx req huser hlive
    by_cases hsame : user.supabaseUserId = u.supabaseUserId
    · refine ⟨user', huser', hsub'.trans hsame, ?_, ?_, ?_⟩
      · rw [hname', hname u hu hsame.symm, written, hpres]
        simp only [hsame, if_true, Option.or_assoc]
      · intro me hme _
        obtain ⟨hreach, rfl⟩ := (hreply me).mp hme
        exact ⟨⟨⟨claims, hsame ▸ hpres⟩, hreach⟩, rfl⟩
      · intro hanswered
        exact ⟨_, (hreply _).mpr ⟨hanswered.2, rfl⟩, hsub'.trans hsame⟩
    · have hother : ∀ claims, presented ctx req ≠ some (u.supabaseUserId, claims) := by
        intro claims' hpres'
        rw [hpres, Option.some.injEq, Prod.mk.injEq] at hpres'
        exact hsame hpres'.1
      have hut' : u ∈ t'.rows := hframe u hu fun h => hsame h.symm
      have hid : u.id ≠ user.id := by
        intro h
        exact hsame (congrArg User.supabaseUserId (t'.eq_of_key hut' huser h)).symm
      refine ⟨u, hframe' u hut' hid, rfl, by rw [written_of_other hother]; rfl, ?_,
        fun hanswered => absurd hanswered.1.choose_spec (hother _)⟩
      intro me hme hmine
      obtain ⟨-, rfl⟩ := (hreply me).mp hme
      exact absurd (hsub'.symm.trans hmine) hsame

/-- A profile that a request answers is that of a row of the table after it,
and a PATCH with a name reports that name. -/
theorem serve_me {me : MeResponse} (h : (serve ctx req t).1 = .me me) :
    (∃ u ∈ (serve ctx req t).2.rows, u.supabaseUserId = me.supabaseUserId ∧
      u.displayName = me.displayName) ∧
    ∀ name, bodyName req = some name → me.displayName = some name := by
  unfold serve at h ⊢
  cases hauth : authenticate ctx req t with
  | error e => simp [hauth] at h
  | ok out =>
    obtain ⟨t', user⟩ := out
    obtain ⟨claims, -, huser, hlive, -, -⟩ := authenticate_ok hauth
    obtain ⟨user', huser', -, hname', -, hreply⟩ :=
      handle_spec ctx req huser hlive
    simp only [hauth] at h
    obtain ⟨⟨hreach, -⟩, rfl⟩ := (hreply me).mp h
    refine ⟨⟨user', huser', rfl, rfl⟩, fun name hbody => ?_⟩
    rw [if_pos hreach, hbody] at hname'
    exact hname'

/-! ### Runs -/

/-- The table after the requests, in order. -/
def after (ctx : UsersContext Key) (t : Table users) (reqs : List Request) : Table users :=
  reqs.foldl (fun t req => (serve ctx req t).2) t

/-- The last name written for the user. -/
def lastWritten (ctx : UsersContext Key) (supabaseUserId : Uuid) (reqs : List Request) :
    Option String :=
  reqs.foldl (fun last req => (written ctx supabaseUserId req).or last) none

/-- One more request comes last. -/
theorem lastWritten_append (supabaseUserId : Uuid) (reqs : List Request) :
    lastWritten ctx supabaseUserId (reqs ++ [req])
      = (written ctx supabaseUserId req).or (lastWritten ctx supabaseUserId reqs) := by
  rw [lastWritten, List.foldl_append]
  rfl

variable (ctx) in
/-- After any run the row has the last written name, or the one it had. -/
theorem after_lastWritten {u : User} (hu : u ∈ t.rows) (reqs : List Request) :
    ∃ u' ∈ (after ctx t reqs).rows, u'.supabaseUserId = u.supabaseUserId ∧
      u'.displayName = (lastWritten ctx u.supabaseUserId reqs).or u.displayName := by
  -- Induction on the run from the right: `serve_step` is its last request.
  induction reqs using List.reverseRecOn with
  | nil => exact ⟨u, hu, rfl, rfl⟩
  | append_singleton reqs req ih =>
    obtain ⟨v, hv, hsub, hname⟩ := ih
    obtain ⟨w, hw, hsub', hname', -, -⟩ := serve_step ctx req hv
    refine ⟨w, by simpa [after] using hw, hsub'.trans hsub, ?_⟩
    rw [hname', hname, hsub, lastWritten_append, Option.or_assoc]

end

section
variable (ctx : UsersContext Key)

/-- After a successful PATCH with a name, every later profile answered to the
user by a GET or a PATCH without a name reports that name exactly when, at
each of them, the last name written for the user since the rename is the new
name or none was. The run `later` is any run of requests by any users. -/
theorem rename_survives_iff (t : Table users) (rename : Request) (profile : MeResponse)
    (name : String) (hrename : (serve ctx rename t).1 = .me profile)
    (hname : bodyName rename = some name) (later : List Request) :
    (∀ pre req post, later = pre ++ req :: post → bodyName req = none → ∀ me,
      (serve ctx req (after ctx (serve ctx rename t).2 pre)).1 = .me me →
      me.supabaseUserId = profile.supabaseUserId → me.displayName = some name) ↔
    ∀ pre req post, later = pre ++ req :: post → bodyName req = none →
      Answered ctx profile.supabaseUserId req →
      ∀ m, lastWritten ctx profile.supabaseUserId (pre ++ [req]) = some m → m = name := by
  obtain ⟨⟨u, hu, hsub, hdisplay⟩, hreport⟩ := serve_me hrename
  rw [hreport name hname] at hdisplay
  rw [← hsub]
  -- What a profile after the prefix reports: the last written name, or `name`.
  have hreports : ∀ pre req me,
      (serve ctx req (after ctx (serve ctx rename t).2 pre)).1 = .me me →
      me.supabaseUserId = u.supabaseUserId →
      Answered ctx u.supabaseUserId req ∧ me.displayName
        = (lastWritten ctx u.supabaseUserId (pre ++ [req])).or (some name) := by
    intro pre req me hme hmine
    obtain ⟨v, hv, hvsub, hvname⟩ := after_lastWritten ctx hu pre
    obtain ⟨w, -, -, hwname, hanswer, -⟩ := serve_step ctx req hv
    obtain ⟨hanswered, hdn⟩ := hanswer me hme (hmine.trans hvsub.symm)
    refine ⟨hvsub ▸ hanswered, ?_⟩
    rw [hdn, hwname, hvname, hdisplay, hvsub, ← Option.or_assoc, lastWritten_append]
  constructor
  · intro hall pre req post hlater hbody hanswered m hm
    obtain ⟨v, hv, hvsub, -⟩ := after_lastWritten ctx hu pre
    obtain ⟨w, -, -, -, -, hanswer⟩ := serve_step ctx req hv
    obtain ⟨me, hme, hmine⟩ := hanswer (hvsub ▸ hanswered)
    have hnamed := hall pre req post hlater hbody me hme (hmine.trans hvsub)
    rw [(hreports pre req me hme (hmine.trans hvsub)).2, hm] at hnamed
    exact Option.some.inj hnamed
  · intro hall pre req post hlater hbody me hme hmine
    obtain ⟨hanswered, hdn⟩ := hreports pre req me hme hmine
    rw [hdn]
    cases hlast : lastWritten ctx u.supabaseUserId (pre ++ [req]) with
    | none => rfl
    | some m => rw [hall pre req post hlater hbody hanswered m hlast]; rfl

end

/-! ### A token with a name -/

/-- The token of Alice, whose metadata names her "Alice". -/
def aliceClaims : SupabaseClaims :=
  ⟨"alice", some "alice@example.com", .obj [("display_name", .str "Alice")]⟩

def namedContext : UsersContext Unit where
  jwt :=
    { isProduction := true, testJwtSecret := none
      decodeHeader := fun _ => some ⟨false, none⟩
      decodeTest := fun _ _ => none
      findKey := fun _ => .ok ()
      decode := fun _ token => if token = "jwt" then some aliceClaims else none }
  parseUuid sub := if sub = "alice" then some ⟨1⟩ else none
  formatRfc3339 _ := none

/-- A request with the token of Alice. -/
def aliceRequest (endpoint : Endpoint) : Request where
  endpoint := endpoint
  authorization := .value "Bearer jwt"
  now := 0
  newId := ⟨2⟩
  subscriptions := Table.empty
  unreachable _ := false

/-- `PATCH /v1/me` to "Alice II". -/
def renameRequest : Request := aliceRequest (.patchMe (some ⟨some " Alice II "⟩))

/-- `rename_survives_iff` at the rename and one GET with the same token. -/
theorem rename_survives_iff_named_token :
    ¬ ∀ pre req post, [aliceRequest .getMe] = pre ++ req :: post → bodyName req = none →
      ∀ me, (serve namedContext req
          (after namedContext (serve namedContext renameRequest Table.empty).2 pre)).1 = .me me →
        me.supabaseUserId = ⟨1⟩ → me.displayName = some "Alice II" := by
  intro hall
  have hsame := (rename_survives_iff namedContext Table.empty renameRequest _ "Alice II" rfl
    (by decide) [aliceRequest .getMe]).mp hall [] _ [] rfl rfl
    ⟨⟨aliceClaims, rfl⟩, rfl, rfl⟩ "Alice" (by decide)
  exact absurd hsame (by decide)

/-- The PATCH reports the new name, and the next GET with the same token
reports the name of the token. -/
theorem rename_lost_at_next_request :
    ∃ profile, (serve namedContext renameRequest Table.empty).1 = .me profile ∧
      bodyName renameRequest = some "Alice II" ∧ profile.displayName = some "Alice II" ∧
      ∃ me, (serve namedContext (aliceRequest .getMe)
          (serve namedContext renameRequest Table.empty).2).1 = .me me ∧
        me.supabaseUserId = profile.supabaseUserId ∧ me.displayName = some "Alice" :=
  ⟨_, rfl, by decide, by decide, _, rfl, by decide, by decide⟩

end MizanConnect.Proofs.Users
