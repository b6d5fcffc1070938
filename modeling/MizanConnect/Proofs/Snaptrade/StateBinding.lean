import MizanConnect.Proofs.Snaptrade.QueryString
import MizanConnect.Proofs.Snaptrade.SuccessPage
import MizanConnect.Proofs.Snaptrade.Timeline
import Mathlib.Tactic.IntervalCases

/-!
# `MizanConnect.Proofs.Snaptrade.StateBinding`: the state token binds a callback to its login

The callback is public. What binds it to a user is the state token, which
`login_portal` puts into the redirect. `verify_issue` says how long a token is
good, and `redirectWithState_injective` that the redirect names one token.

Tokens cannot be forged: one that verifies was in a redirect before
(`Unforged`). Then every row that is linked was linked by a callback whose token
went out in a login of the row's own user, no longer ago than the lifetime of
the token (`linked_by_own_login`).
-/

set_option autoImplicit false

namespace MizanConnect.Proofs.Snaptrade

open MizanConnect.Snaptrade
open MizanConnect.Snaptrade.Repository
open MizanConnect.Snaptrade.BrokerConnections (Row)
open Concurrent (Action own trace_asked trace_related trace_split)
open Transition (run)

/-! ### What a token says -/

section
variable {jwt : StateJwt} {secret : String} {now : Nat} {token : String} {claims : StateClaims}
  {deps : BrokerDeps}

theorem verify_eq_ok :
    verify jwt secret now token = .ok claims ↔
      jwt.decode now token secret.toUTF8.data.toList stateValidation = some claims := by
  unfold verify
  cases jwt.decode now token secret.toUTF8.data.toList stateValidation with
  | none => simp
  | some decoded => simp

/-- The context of a request verifies with the clock of its arrival. -/
theorem decodeState_contextAt :
    (contextAt deps now).decodeState token = some claims ↔
      verify deps.jwt deps.stateSecret now token = .ok claims := by
  show (verify deps.jwt deps.stateSecret now token).toOption = some claims ↔ _
  cases verify deps.jwt deps.stateSecret now token with
  | error e => simp [Except.toOption]
  | ok decoded => simp [Except.toOption]

/-- A token that the service has issued says what was signed, and no longer than
its lifetime and the leeway. -/
theorem verify_issued (hjwt : jwt.Sound) {signed : StateClaims}
    (hissued : jwt.encode secret.toUTF8.data.toList signed = some token)
    (h : verify jwt secret now token = .ok claims) :
    claims = signed ∧ (now : Int) ≤ signed.exp + stateLeeway := by
  have hdecode := verify_eq_ok.mp h
  obtain rfl := hjwt.issued hissued hdecode
  exact ⟨rfl, hjwt.expiry hdecode rfl⟩

/-- A token of `issue` is good for its lifetime and the leeway, and not for a
second longer. -/
theorem verify_issue (hjwt : jwt.Sound) {userId nonce : Uuid} {time : Timestamp}
    (htime : (0 : Int) ≤ time)
    (hissued : jwt.encode secret.toUTF8.data.toList (stateClaims userId nonce time) = some token) :
    verify jwt secret now token = .ok (stateClaims userId nonce time) ↔
      (now : Int) ≤ time + 630 := by
  constructor
  · intro h
    have hnow := (verify_issued hjwt hissued h).2
    simp only [stateClaims, stateTtl, stateLeeway] at hnow
    omega
  · intro h
    have hissuers : stateValidation.iss = some [stateIssuer] := rfl
    refine verify_eq_ok.mpr (hjwt.accepts hissued List.mem_cons_self rfl rfl hissuers
      List.mem_cons_self ?_ ?_)
    · simp only [stateClaims, stateTtl]
      omega
    · simp only [stateClaims, stateTtl, stateValidation, stateLeeway]
      omega

end

/-! ### The token in the redirect -/

/-- A pair is read back from its text. -/
theorem serializePair_injective {p q : List Char × List Char}
    (h : SignedRequest.serializePair p = SignedRequest.serializePair q) : p = q := by
  rw [QueryString.serializePair_eq,
    QueryString.serializePair_eq] at h
  rw [← FormUrlencoded.decodePair_encodePair (s := QueryString.kept) p, h,
    FormUrlencoded.decodePair_encodePair]

/-- The URL determines the value that was appended. -/
theorem appendPair_injective {url : RedirectUrl} {name value value' : List Char}
    (h : (url.appendPair name value).asStr = (url.appendPair name value').asStr) :
    value = value' := by
  -- What stands around the pair is the same on both sides.
  have hpair : SignedRequest.serializePair (name, value)
      = SignedRequest.serializePair (name, value') := by
    unfold RedirectUrl.asStr RedirectUrl.appendPair at h
    dsimp only [Option.map_some, Option.getD_some] at h
    have hquery := List.append_cancel_right (List.append_cancel_left h)
    have htext := (List.cons.inj hquery).2
    cases hq : url.query with
    | none => simpa only [hq] using htext
    | some query =>
      rw [hq] at htext
      dsimp only at htext
      split at htext
      · exact htext
      · exact (List.cons.inj (List.append_cancel_left htext)).2
  exact (Prod.mk.inj (serializePair_injective hpair)).2

/-- The redirect URL determines its token. -/
theorem redirectWithState_injective {deps : BrokerDeps} {token token' redirect : String}
    (h : deps.redirectWithState token = some redirect)
    (h' : deps.redirectWithState token' = some redirect) : token = token' := by
  obtain ⟨url, hurl, htext⟩ := Option.map_eq_some_iff.mp h
  obtain ⟨url', hurl', htext'⟩ := Option.map_eq_some_iff.mp h'
  cases hurl.symm.trans hurl'
  have hsame := String.ofList_injective (htext.trans htext'.symm)
  exact String.toList_injective (appendPair_injective hsame)

/-! ### A run -/

/-- The operation sends SnapTrade a redirect with the token. -/
def handsOut (deps : BrokerDeps) (token : String) (e : Entry) : Bool :=
  match e.op with
  | .call (.loginUser _ _ redirect) => deps.redirectWithState token = some redirect
  | _ => false

/-- A callback with a token that verifies brings one that was handed out. -/
def Unforged (deps : BrokerDeps) (as : List (Action brokerage Arrival)) : Prop :=
  ∀ (i time : Nat) q token claims, as[i]? = some (.spawn ⟨time, .callback q⟩) →
    q.state = some token → verify deps.jwt deps.stateSecret time token = .ok claims →
    (timedTrace deps (as.take i)).any (handsOut deps token) = true

/-- The operation `e` links the row to the authorization, and the operations
before it show why: a login of the row's user has handed out the token of the
callback, at most 630 seconds before the callback came in, and SnapTrade has
listed the authorization for the row. -/
structure LinkedBy (deps : BrokerDeps) (pre : List Entry) (e : Entry) (x : Row)
    (authorizationId : String) : Prop where
  op : ∃ slug name, e.op = .markCompleted x.id authorizationId slug name
  login : ∃ q token, e.request.request = .callback q ∧ q.state = some token ∧
    ∃ f ∈ pre, f.request.request = .loginPortal x.userId ∧ handsOut deps token f = true ∧
      ∃ g ∈ pre, g.job = f.job ∧ ∃ time : Timestamp, g.event = ⟨.now, time⟩ ∧
        (e.request.time : Int) ≤ time + 630
  listed : ∃ k ∈ pre, k.job = e.job ∧ ∃ secret authorizations,
    k.event = ⟨.call (.listAuthorizations x.snaptradeUserId secret),
      Except.ok authorizations⟩ ∧ authorizationId ∈ authorizations.map (·.id)

section
variable {deps : BrokerDeps} {as : List (Action brokerage Arrival)} {s : TimedSys}
  {pre post past : List Entry} {e f : Entry} {userId : Uuid}

theorem handsOut_op {token : String} (h : handsOut deps token f = true) :
    ∃ snaptradeUserId secret redirect, f.op = .call (.loginUser snaptradeUserId secret redirect) ∧
      deps.redirectWithState token = some redirect := by
  unfold handsOut at h
  split at h
  · rename_i name secret redirect hop
    exact ⟨name, secret, redirect, hop, of_decide_eq_true h⟩
  · cases h

/-- A redirect comes from the login of the user its token is for, after a look at
the clock. -/
theorem login_of_handsOut (hrun : run (timedNext deps) timedInit as = some s)
    (h : timedTrace deps as = pre ++ f :: post) {token : String}
    (hout : handsOut deps token f = true) :
    ∃ userId, f.request.request = .loginPortal userId ∧
      ∃ g ∈ pre, g.job = f.job ∧ ∃ (time : Timestamp) (nonce : Uuid), g.event = ⟨.now, time⟩ ∧
        deps.jwt.encode deps.stateSecret.toUTF8.data.toList (stateClaims userId nonce time)
          = some token := by
  obtain ⟨name, secret, redirect, hop, hredirect⟩ := handsOut_op hout
  have hcause := (timed_lawful hrun h).allowed
  rw [hop] at hcause
  obtain ⟨userId, hlogin, -, time, nonce, token', htime, -, hencode, hredirect'⟩ := hcause
  obtain ⟨g, hg, hjob, hevent⟩ := entry_of_answered htime
  -- The redirect carries one token.
  obtain rfl := redirectWithState_injective hredirect hredirect'
  exact ⟨userId, hlogin, g, hg, hjob, time, nonce, hevent, hencode⟩

/-- The rows with the id of a row of a state belong to its user. -/
theorem same_owner {db db' : BrokerDb} {x y : Row} (hpersist : Persist db db')
    (hx : x ∈ db.connections.rows) (hy : y ∈ db'.connections.rows) (hid : x.id = y.id) :
    y.userId = x.userId ∧ y.snaptradeUserId = x.snaptradeUserId := by
  obtain ⟨z, hz, hxz⟩ := hpersist x hx
  have hzy : z = y := db'.connections.eq_of_key hz hy (hxz.id.trans hid)
  rw [← hzy]
  exact ⟨hxz.userId, hxz.snaptradeUserId⟩

/-- A callback that links a row shows why. -/
theorem linkedBy_of_completed (hjwt : deps.jwt.Sound)
    (hrun : run (timedNext deps) timedInit as = some s) (hforge : Unforged deps as)
    (h : timedTrace deps as = pre ++ e :: post) {x : Row} (hx : x ∈ s.state.connections.rows)
    {authorizationId : String} {slug name : Option String}
    (hop : e.op = .markCompleted x.id authorizationId slug name) :
    LinkedBy deps pre e x authorizationId := by
  have hcause := (timed_lawful hrun h).allowed
  rw [hop] at hcause
  obtain ⟨q, userId, row, secret, authorizations, hcallback, hlink⟩ := hcause
  -- The row that the callback found is an earlier version of this one.
  obtain ⟨y, hy, hid, huser, hname, -⟩ :=
    found_before hrun h (Or.inr (Or.inl hlink.found))
  have hpersist : Persist e.before s.state := by
    have hmem : e ∈ timedTrace deps as := by
      rw [h]
      exact List.mem_append_right _ List.mem_cons_self
    have hlater := trace_related Persist.refl (fun _ _ _ => Persist.trans) persist_exec hrun e hmem
    exact (persist_exec e.before e.op e.input).trans hlater
  obtain ⟨howner, hsame⟩ := same_owner hpersist hy hx (hid.trans hlink.id)
  have hmine : x.userId = userId := howner.trans huser
  have hsnap : x.snaptradeUserId = row.snaptradeUserId := hsame.trans hname
  refine ⟨⟨slug, name, hop⟩, ?_, ?_⟩
  · -- The token of the callback verifies, so it was handed out before.
    have htoken := hlink.token
    simp only [requester, Option.map_eq_some_iff, Option.bind_eq_some_iff] at htoken
    obtain ⟨claims, ⟨token, hstate, hdecode⟩, hsub⟩ := htoken
    have hverify := decodeState_contextAt.mp hdecode
    obtain ⟨as₁, as₂, rfl, hearlier⟩ := trace_asked hrun h
    have hany := hforge as₁.length e.request.time q token claims
      (by rw [List.getElem?_append_right (Nat.le_refl _), Nat.sub_self, List.getElem?_cons_zero,
        ← hcallback]) hstate hverify
    rw [List.take_left] at hany
    obtain ⟨f, hf, hout⟩ := List.any_eq_true.mp hany
    have hfpre : f ∈ pre := hearlier hf
    obtain ⟨before, after, rfl⟩ := List.append_of_mem hfpre
    obtain ⟨owner, hlogin, g, hg, hjob, time, nonce, htime, hencode⟩ :=
      login_of_handsOut hrun (h.trans (List.append_assoc before (f :: after) (e :: post))) hout
    obtain ⟨rfl, hlate⟩ := verify_issued hjwt hencode hverify
    have hours : owner = x.userId := by
      rw [hmine, ← hsub]
      rfl
    refine ⟨q, token, hcallback, hstate, f, hfpre, hours ▸ hlogin, hout, g,
      List.mem_append_left _ hg, hjob, time, htime, ?_⟩
    simp only [stateClaims, stateTtl, stateLeeway] at hlate
    omega
  · obtain ⟨k, hk, hjob, hevent⟩ := entry_of_answered hlink.listed
    exact ⟨k, hk, hjob, secret, authorizations, hsnap ▸ hevent, hlink.chosen⟩

/-- A linked row was linked by some operation. -/
theorem completed_of_linked (hrun : run (timedNext deps) timedInit as = some s) :
    ∀ x ∈ s.state.connections.rows, ∀ a, x.snaptradeAuthorizationId = some a →
      ∃ e ∈ timedTrace deps as, ∃ slug name, e.op = .markCompleted x.id a slug name := by
  refine timed_invariant (P := fun past db => ∀ x ∈ db.connections.rows, ∀ a,
    x.snaptradeAuthorizationId = some a →
      ∃ e ∈ past, ∃ slug name, e.op = .markCompleted x.id a slug name) ?_ ?_ hrun
  · intro x hx
    cases hx
  · intro past e _ hpast x hx a ha
    have hold : ∀ y ∈ e.before.connections.rows, y.id = x.id →
        y.snaptradeAuthorizationId = some a →
        ∃ f ∈ past ++ [e], ∃ slug name, f.op = .markCompleted x.id a slug name := by
      intro y hy hid hlinked
      obtain ⟨f, hf, hop⟩ := hpast y hy a hlinked
      exact ⟨f, List.mem_append_left _ hf, hid ▸ hop⟩
    have hchange := exec_change e.before e.op e.input
    have hafter : x ∈ (brokerage.exec e.before e.op e.input).2.connections.rows := hx
    revert hafter
    generalize hrows : (brokerage.exec e.before e.op e.input).2.connections.rows = rows' at hchange
    generalize hop : e.op = o at hchange
    intro hafter
    cases hchange with
    | keep => exact hold x hafter rfl ha
    | inserted userId name blob now newId hnew =>
      rcases List.mem_append.mp hafter with hafter | hafter
      · exact hold x hafter rfl ha
      · rw [List.mem_singleton.mp hafter] at ha
        cases ha
    | completed connectionId authorizationId slug name now =>
      obtain ⟨y, hy, rfl⟩ := List.mem_map.mp hafter
      by_cases hid : y.id = connectionId
      · rw [if_pos hid] at ha ⊢
        cases ha
        exact ⟨e, List.mem_append_right _ List.mem_cons_self, slug, name, hid ▸ hop⟩
      · rw [if_neg hid] at ha hold ⊢
        exact hold y hy rfl ha
    | deleted userId connectionId now =>
      obtain ⟨y, hy, rfl⟩ := List.mem_map.mp hafter
      by_cases howned : ownedBy userId connectionId y = true
      · rw [if_pos howned] at ha hold ⊢
        exact hold y hy rfl ha
      · rw [if_neg howned] at ha hold ⊢
        exact hold y hy rfl ha

/-- The state token binds a callback to the login that it belongs to, whatever
else runs. Every row that is linked was linked by a callback whose token went out
in a login of the row's own user, at most 630 seconds before the callback came
in, and to an authorization that SnapTrade has listed for the row. -/
theorem linked_by_own_login (hjwt : deps.jwt.Sound)
    (hrun : run (timedNext deps) timedInit as = some s) (hforge : Unforged deps as) {x : Row}
    (hx : x ∈ s.state.connections.rows) {authorizationId : String}
    (hlinked : x.snaptradeAuthorizationId = some authorizationId) :
    ∃ pre e post, timedTrace deps as = pre ++ e :: post ∧
      LinkedBy deps pre e x authorizationId := by
  obtain ⟨e, he, slug, name, hop⟩ := completed_of_linked hrun x hx authorizationId hlinked
  obtain ⟨pre, post, h⟩ := List.append_of_mem he
  exact ⟨pre, e, post, h, linkedBy_of_completed hjwt hrun hforge h hx hop⟩

end

/-! ### One login and its callback -/

/-- A token in the compact form of a JWT. -/
def shortToken : String := "eyJh.eyJz.c2ln"

/-- The redirect that brings it back. -/
def shortQuery : CallbackQuery :=
  ⟨some shortToken, some "00000000-0000-0000-0000-000000000001"⟩

/-- A codec that knows one token. -/
def aliceJwt : StateJwt where
  encode _ claims :=
    if claims.sub = alice ∧ claims.nonce = ⟨2⟩ ∧ claims.iss = stateIssuer ∧ claims.exp = 600 ∧
        claims.iat = 0 then some shortToken
    else none
  decode now token _ validation :=
    if token = shortToken ∧ (validation.iss.all fun issuers => stateIssuer ∈ issuers) ∧
        (validation.validateExp = true → (now : Int) ≤ 600 + validation.leeway) then
      some aliceClaims
    else none

theorem aliceJwt_encode {secret : List UInt8} {claims : StateClaims} {token : String}
    (h : aliceJwt.encode secret claims = some token) :
    claims = aliceClaims ∧ token = shortToken := by
  unfold aliceJwt at h
  dsimp only at h
  split at h
  · rename_i hclaims
    obtain ⟨hsub, hnonce, hiss, hexp, hiat⟩ := hclaims
    cases h
    refine ⟨?_, rfl⟩
    cases claims
    subst hsub hnonce hiss hexp hiat
    rfl
  · cases h

theorem aliceJwt_decode {now : Nat} {token : String} {secret : List UInt8}
    {validation : StateValidation} {claims : StateClaims}
    (h : aliceJwt.decode now token secret validation = some claims) :
    claims = aliceClaims ∧ token = shortToken ∧
      (validation.iss.all fun issuers => stateIssuer ∈ issuers) ∧
      (validation.validateExp = true → (now : Int) ≤ 600 + validation.leeway) := by
  unfold aliceJwt at h
  dsimp only at h
  split at h
  · rename_i hchecks
    cases h
    exact ⟨rfl, hchecks⟩
  · cases h

theorem aliceJwt_sound : aliceJwt.Sound where
  issued hencode hdecode := (aliceJwt_decode hdecode).1.trans (aliceJwt_encode hencode).1.symm
  issuer {_ _ _ _ _ issuers} hdecode hissuers := by
    obtain ⟨rfl, -, hall, -⟩ := aliceJwt_decode hdecode
    have hmem : stateIssuer ∈ issuers := by simpa [hissuers] using hall
    exact hmem
  expiry hdecode hexp := by
    obtain ⟨rfl, -, -, hnow⟩ := aliceJwt_decode hdecode
    exact hnow hexp
  accepts {_ _ _ _ validation issuers} hencode _ _ _ hissuers hmem _ hnow := by
    obtain ⟨rfl, rfl⟩ := aliceJwt_encode hencode
    have hissuer : stateIssuer ∈ issuers := hmem
    have hall : validation.iss.all (fun issuers => stateIssuer ∈ issuers) = true := by
      simpa [hissuers] using hissuer
    unfold aliceJwt
    dsimp only
    rw [if_pos ⟨rfl, hall, fun _ => hnow⟩]

/-- The service of one user. -/
def aliceDeps : BrokerDeps where
  jwt := aliceJwt
  stateSecret := "a-state-secret-of-thirty-two-bytes!!"
  redirectUri := "https://connect.example/callback"
  parseUrl uri := some ⟨uri.toList, none, none⟩
  decrypt := aliceContext.decrypt
  encrypt := aliceContext.encrypt
  parseRfc3339 := aliceContext.parseRfc3339

/-- Steps of the job `i` while SnapTrade lists `authorizations`. -/
def timedSteps (n i : Nat) (authorizations : List StAuthorization) (now : Timestamp) :
    List (Action brokerage Arrival) :=
  List.replicate n (.advance i (calmInput (aliceReply authorizations) now ⟨2⟩))

/-- The user logs in, and links Questrade 500 seconds later. -/
def timedLink : List (Action brokerage Arrival) :=
  (.spawn ⟨0, .loginPortal alice⟩ :: timedSteps 9 0 [] 0) ++
    (.spawn ⟨500, .callback shortQuery⟩ :: timedSteps 4 1 [questrade] 500)

/-- Her callback brings the token of her login. -/
theorem unforged_timedLink : Unforged aliceDeps timedLink := by
  have hhanded : (timedTrace aliceDeps (timedLink.take 10)).any (handsOut aliceDeps shortToken)
      = true := by
    decide +kernel
  intro i time q token claims hat _ hverify
  obtain ⟨-, rfl, -⟩ := aliceJwt_decode (verify_eq_ok.mp hverify)
  -- The one callback is the request number 10.
  have hi : i = 10 := by
    have hlt : i < 15 := (List.getElem?_eq_some_iff.mp hat).1
    interval_cases i
    case «10» => rfl
    all_goals cases hat
  rw [hi]
  exact hhanded

/-- `linked_by_own_login` for the row of that run. -/
theorem linked_by_own_login_alice :
    ∃ s x, run (timedNext aliceDeps) timedInit timedLink = some s ∧
      x ∈ s.state.connections.rows ∧ x.snaptradeAuthorizationId = some "A" ∧
      ∃ pre e post, timedTrace aliceDeps timedLink = pre ++ e :: post ∧
        LinkedBy aliceDeps pre e x "A" := by
  have hsome : (run (timedNext aliceDeps) timedInit timedLink).map
      (fun s => s.state.connections.rows.map (·.snaptradeAuthorizationId)) = some [some "A"] := by
    decide +kernel
  obtain ⟨s, hs, hrows⟩ := Option.map_eq_some_iff.mp hsome
  obtain ⟨x, hx, ha⟩ := List.mem_map.mp (hrows ▸ List.mem_cons_self :
    some "A" ∈ s.state.connections.rows.map (·.snaptradeAuthorizationId))
  exact ⟨s, x, hs, hx, ha,
    linked_by_own_login aliceJwt_sound hs unforged_timedLink hx ha⟩

end MizanConnect.Proofs.Snaptrade
