import MizanConnect.Lib.Traced
import MizanConnect.Proofs.Snaptrade.Operations

/-!
# `MizanConnect.Proofs.Snaptrade.Causes`: what a brokerage handler has done before

`Cause` says of each operation of a handler what the same handler has done and
learnt before it, whatever the answers were: a row is written because of a reply
of SnapTrade, and an audit event because of what it reports (`Reports`).
`handle_follows` is the one walk over the handlers. What the answers say about
the tables is the business of the runs that use it.
-/

set_option autoImplicit false

namespace MizanConnect.Proofs.Snaptrade

open MizanConnect.Snaptrade
open Concurrent (Program Event Leads leads_value leads_error leads_perform)
open Repository (StoredConnection)

/-! ### Causes -/

/-- The operation has been performed, with this answer. -/
def Answered (h : List (Event Op Op.Answer)) (o : Op) (x : o.Answer) : Prop :=
  (⟨o, x⟩ : Event Op Op.Answer) ∈ h

/-- A lookup of the user has answered with the row. -/
def LookedUp (h : List (Event Op Op.Answer)) (userId : Uuid) (row : StoredConnection) : Prop :=
  Answered h (.fetchActiveForUser userId) (Except.ok (some row)) ∨
    Answered h (.fetchAnyForUser userId) (Except.ok (some row)) ∨
    ∃ authorizationId,
      Answered h (.fetchByAuthorizationIdForUser userId authorizationId) (Except.ok (some row))

/-- SnapTrade has registered the user, with this reply. -/
def Registered (h : List (Event Op Op.Answer)) (userId : Uuid) (resp : StRegisterUserResponse) :
    Prop :=
  Answered h (.call (.registerUser userId.toString)) (Except.ok resp)

/-- The pair is that of a row of the user, or it was registered just now. -/
def HasPair (ctx : BrokerContext) (h : List (Event Op Op.Answer)) (userId : Uuid)
    (snaptradeUserId secret : String) : Prop :=
  (∃ row, LookedUp h userId row ∧ row.snaptradeUserId = snaptradeUserId ∧
    ctx.decrypt row.snaptradeUserSecretEncrypted = some secret) ∨
  Registered h userId ⟨snaptradeUserId, secret⟩

/-- SnapTrade has removed the authorization, or does not know it. -/
def Removed (reply : Except SnaptradeError Json) : Prop :=
  (∃ v, reply = .ok v) ∨ reply = .error (.status 404)

/-- What an audit event reports has happened. -/
inductive Reports (ctx : BrokerContext) (h : List (Event Op Op.Answer)) :
    Request → AuditEvent → Prop where
  | initiated (userId : Uuid) (resp : StRegisterUserResponse) (hresp : Registered h userId resp) :
    Reports ctx h (.loginPortal userId) ⟨some userId, "broker.connect.initiated",
      .obj [("snaptrade_user_id", .str resp.userId)]⟩
  | completed (q : CallbackQuery) (userId connectionId : Uuid) (authorizationId : String)
      (slug name : Option String) (huser : requester ctx (.callback q) = some userId)
      (hwritten : Answered h (.markCompleted connectionId authorizationId slug name)
        (Except.ok ())) :
    Reports ctx h (.callback q) ⟨some userId, "broker.connect.completed",
      .obj [("authorization_id", .str authorizationId),
        ("broker_slug", (slug.map Json.str).getD .null)]⟩
  | missingState (q : CallbackQuery) (hstate : q.state = none) :
    Reports ctx h (.callback q) ⟨none, "broker.connect.failed",
      .obj [("error_code", .str "missing_state")]⟩
  | badState (q : CallbackQuery) (token : String) (hstate : q.state = some token)
      (hbad : ctx.decodeState token = none) :
    Reports ctx h (.callback q) ⟨none, "broker.connect.failed",
      .obj [("error_code", .str "bad_state")]⟩
  | noPending (q : CallbackQuery) (userId : Uuid)
      (huser : requester ctx (.callback q) = some userId)
      (hnone : Answered h (.fetchAnyForUser userId) (Except.ok none)) :
    Reports ctx h (.callback q) ⟨some userId, "broker.connect.failed",
      .obj [("error_code", .str "no_pending_connection")]⟩
  | mismatch (q : CallbackQuery) (userId : Uuid) (row : StoredConnection) (returned : String)
      (huser : requester ctx (.callback q) = some userId) (hrow : LookedUp h userId row)
      (hreturned : q.userId = some returned) (hne : returned ≠ row.snaptradeUserId) :
    Reports ctx h (.callback q) ⟨some userId, "broker.connect.failed",
      .obj [("error_code", .str "user_id_mismatch")]⟩
  | listFailed (q : CallbackQuery) (userId : Uuid) (snaptradeUserId secret : String)
      (e : SnaptradeError) (huser : requester ctx (.callback q) = some userId)
      (herror : Answered h (.call (.listAuthorizations snaptradeUserId secret))
        (Except.error e)) :
    Reports ctx h (.callback q) ⟨some userId, "broker.connect.failed",
      .obj [("error_code", .str "list_authorizations_failed")]⟩
  | noneNew (q : CallbackQuery) (userId : Uuid) (row : StoredConnection) (secret : String)
      (huser : requester ctx (.callback q) = some userId) (hrow : LookedUp h userId row)
      (hunlinked : row.snaptradeAuthorizationId = none)
      (hempty : Answered h (.call (.listAuthorizations row.snaptradeUserId secret))
        (Except.ok [])) :
    Reports ctx h (.callback q) ⟨some userId, "broker.connect.failed",
      .obj [("error_code", .str "no_new_authorization")]⟩
  | refreshed (userId : Uuid) (requested snaptradeUserId secret authorizationId : String) (v : Json)
      (hreply : Answered h (.call (.refreshAuthorization snaptradeUserId secret authorizationId))
        (Except.ok v)) :
    Reports ctx h (.refreshConnection userId requested) ⟨some userId, "broker.refresh",
      .obj [("authorization_id", .str authorizationId)]⟩
  | disconnected (userId : Uuid) (authorizationId : String) (row : StoredConnection) (n : Nat)
      (hrow : Answered h (.fetchByAuthorizationIdForUser userId authorizationId)
        (Except.ok (some row)))
      (hwritten : Answered h (.softDelete userId row.id) (Except.ok n)) :
    Reports ctx h (.deleteConnection userId authorizationId) ⟨some userId, "broker.disconnect",
      .obj [("authorization_id", (row.snaptradeAuthorizationId.map Json.str).getD .null)]⟩

/-- What comes before a call. -/
def CallCause (ctx : BrokerContext) (r : Request) (h : List (Event Op Op.Answer)) : Call → Prop
  | .registerUser snaptradeUserId => ∃ userId, r = .loginPortal userId ∧
      snaptradeUserId = userId.toString ∧ Answered h (.checkLimit userId) (Except.ok ()) ∧
      Answered h (.fetchAnyForUser userId) (Except.ok none)
  | .loginUser snaptradeUserId secret redirect => ∃ userId, r = .loginPortal userId ∧
      HasPair ctx h userId snaptradeUserId secret ∧
      ∃ (time : Timestamp) (nonce : Uuid) (token : String), Answered h .now time ∧
        Answered h .newUuid nonce ∧
        ctx.encodeState ⟨userId, nonce, "mizan-snaptrade-state", time + stateTtl, time⟩
          = some token ∧
        ctx.redirectWithState token = some redirect
  | c => ∃ userId snaptradeUserId secret, requester ctx r = some userId ∧
      c.credentials = some (snaptradeUserId, secret) ∧
      HasPair ctx h userId snaptradeUserId secret

/-- What comes before the row of a callback is written. -/
structure LinkCause (ctx : BrokerContext) (q : CallbackQuery) (h : List (Event Op Op.Answer))
    (connectionId : Uuid) (authorizationId : String) (userId : Uuid) (row : StoredConnection)
    (secret : String) (authorizations : List StAuthorization) : Prop where
  token : requester ctx (.callback q) = some userId
  found : Answered h (.fetchAnyForUser userId) (Except.ok (some row))
  id : row.id = connectionId
  returned : ∀ name, q.userId = some name → name = row.snaptradeUserId
  opened : ctx.decrypt row.snaptradeUserSecretEncrypted = some secret
  listed : Answered h (.call (.listAuthorizations row.snaptradeUserId secret))
    (Except.ok authorizations)
  chosen : authorizationId ∈ authorizations.map (·.id)
  fresh : row.snaptradeAuthorizationId ≠ some authorizationId

/-- What comes before the row of a disconnect is written. -/
structure UnlinkCause (ctx : BrokerContext) (h : List (Event Op Op.Answer)) (userId : Uuid)
    (connectionId : Uuid) (authorizationId : String) (row : StoredConnection) : Prop where
  found : Answered h (.fetchByAuthorizationIdForUser userId authorizationId) (Except.ok (some row))
  id : row.id = connectionId
  upstream : row.disabled = true ∨ row.snaptradeAuthorizationId = none ∨
    ∃ linked secret reply, row.snaptradeAuthorizationId = some linked ∧
      ctx.decrypt row.snaptradeUserSecretEncrypted = some secret ∧
      Answered h (.call (.removeAuthorization row.snaptradeUserId secret linked)) reply ∧
      Removed reply

/-- What comes before an operation. -/
def Cause (ctx : BrokerContext) (r : Request) (h : List (Event Op Op.Answer)) : Op → Prop
  | .checkLimit userId => r = .loginPortal userId
  | .fetchActiveForUser userId => requester ctx r = some userId
  | .fetchAnyForUser userId => requester ctx r = some userId
  | .fetchByAuthorizationIdForUser userId _ => requester ctx r = some userId
  | .insertPending userId snaptradeUserId blob => r = .loginPortal userId ∧
      ∃ resp, Registered h userId resp ∧ resp.userId = snaptradeUserId ∧
        ctx.encrypt resp.userSecret = some blob
  | .markCompleted connectionId authorizationId _ _ =>
    ∃ q userId row secret authorizations, r = .callback q ∧
      LinkCause ctx q h connectionId authorizationId userId row secret authorizations
  | .softDelete userId connectionId =>
    ∃ authorizationId row, r = .deleteConnection userId authorizationId ∧
      UnlinkCause ctx h userId connectionId authorizationId row
  | .recordEvent event => Reports ctx h r event
  | .call c => CallCause ctx r h c
  | .now => True
  | .newUuid => True

/-! ### The operations -/

section
variable {ctx : BrokerContext} {r : Request} {h h' : List (Event Op Op.Answer)} {userId : Uuid}
  {α : Type}

theorem Answered.mono {o : Op} {x : o.Answer} (hx : Answered h o x) (hsub : h ⊆ h') :
    Answered h' o x := hsub hx

/-- The last operation has been performed. -/
theorem answered_last (h : List (Event Op Op.Answer)) (o : Op) (x : o.Answer) :
    Answered (h ++ [⟨o, x⟩]) o x := List.mem_append_right _ List.mem_cons_self

theorem LookedUp.mono {row : StoredConnection} (hrow : LookedUp h userId row) (hsub : h ⊆ h') :
    LookedUp h' userId row := by
  rcases hrow with hrow | hrow | ⟨authorizationId, hrow⟩
  · exact Or.inl (hsub hrow)
  · exact Or.inr (Or.inl (hsub hrow))
  · exact Or.inr (Or.inr ⟨authorizationId, hsub hrow⟩)

theorem HasPair.mono {name secret : String} (hpair : HasPair ctx h userId name secret)
    (hsub : h ⊆ h') : HasPair ctx h' userId name secret := by
  rcases hpair with ⟨row, hrow, hname, hsecret⟩ | hresp
  · exact Or.inl ⟨row, hrow.mono hsub, hname, hsecret⟩
  · exact Or.inr (hsub hresp)

/-- The handler does nothing without its cause, and ends with a value that meets
`Q`. -/
abbrev Caused (ctx : BrokerContext) (r : Request) (p : Handler α) (h : List (Event Op Op.Answer))
    (Q : List (Event Op Op.Answer) → α → Prop) : Prop :=
  Leads (Cause ctx r) p h Q

theorem caused_ok {a : α} {Q : List (Event Op Op.Answer) → α → Prop} (hQ : Q h a) :
    Caused ctx r (Program.done (.ok a) : Handler α) h Q := leads_value hQ

theorem caused_fetchActive (hu : requester ctx r = some userId) :
    Caused ctx r (Handler.fetchActiveForUser userId) h fun h' out =>
      Answered h' (.fetchActiveForUser userId) (Except.ok out) := by
  refine leads_perform hu ?_
  rintro x out rfl
  exact answered_last h (.fetchActiveForUser userId) _

theorem caused_fetchAny (hu : requester ctx r = some userId) :
    Caused ctx r (Handler.fetchAnyForUser userId) h fun h' out =>
      Answered h' (.fetchAnyForUser userId) (Except.ok out) := by
  refine leads_perform hu ?_
  rintro x out rfl
  exact answered_last h (.fetchAnyForUser userId) _

theorem caused_fetchByAuthorizationId (hu : requester ctx r = some userId)
    (authorizationId : String) :
    Caused ctx r (Handler.fetchByAuthorizationIdForUser userId authorizationId) h fun h' out =>
      Answered h' (.fetchByAuthorizationIdForUser userId authorizationId) (Except.ok out) := by
  refine leads_perform hu ?_
  rintro x out rfl
  exact answered_last h (.fetchByAuthorizationIdForUser userId authorizationId) _

/-- An event that reports what has happened. -/
theorem caused_recordEvent {event : AuditEvent} (hevent : Reports ctx h r event) :
    Caused ctx r (Handler.recordEvent event) h fun _ _ => True :=
  leads_perform hevent fun _ => caused_ok True.intro

theorem caused_now :
    Caused ctx r Handler.now h fun h' time => Answered h' .now time :=
  leads_perform True.intro fun x => caused_ok (answered_last h .now x)

theorem caused_newUuid :
    Caused ctx r Handler.newUuid h fun h' uuid => Answered h' .newUuid uuid :=
  leads_perform True.intro fun x => caused_ok (answered_last h .newUuid x)

/-- A result that is there already. -/
theorem caused_ofExcept {x : Except AppError α} :
    Caused ctx r (Handler.ofExcept x) h fun _ a => x = .ok a := by
  intro a ha
  exact ha

theorem caused_ofOption {x : Option α} {e : AppError} :
    Caused ctx r (Handler.ofOption x e) h fun _ a => x = some a := by
  cases x with
  | none => exact leads_error
  | some a => exact caused_ok rfl

/-- A call that has its cause. -/
theorem caused_callOr {c : Call} {onError : Handler Unit} (hc : CallCause ctx r h c)
    (herror : ∀ e, Caused ctx r onError (h ++ [⟨.call c, Except.error e⟩]) fun _ _ => True) :
    Caused ctx r (Handler.callOr c onError) h fun h' reply =>
      Answered h' (.call c) (Except.ok reply) := by
  refine leads_perform hc ?_
  intro x
  cases x with
  | ok reply => exact caused_ok (answered_last h (.call c) _)
  | error e =>
    exact Program.Follows.bind (Program.Follows.imp (herror e) fun _ _ _ => leads_error)

theorem caused_call {c : Call} (hc : CallCause ctx r h c) :
    Caused ctx r (Handler.call c) h fun h' reply => Answered h' (.call c) (Except.ok reply) :=
  caused_callOr hc fun _ => caused_ok True.intro

/-! ### The reads -/

/-- The secret of a row, and what follows it. -/
theorem caused_withSecret {row : StoredConnection} {f : String → Handler α}
    {Q : List (Event Op Op.Answer) → α → Prop}
    (hf : ∀ secret h', h ⊆ h' → ctx.decrypt row.snaptradeUserSecretEncrypted = some secret →
      Caused ctx r (f secret) h' Q) : Caused ctx r (withSecret ctx row f) h Q := by
  refine Leads.bind caused_ofExcept ?_
  intro secret h' hsub hsecret
  exact hf secret h' hsub (decryptSecret_ok hsecret)

/-- A call with the pair of a row that was looked up. -/
theorem callCause_of_row {row : StoredConnection} {secret : String} {c : Call}
    (hu : requester ctx r = some userId) (hrow : LookedUp h userId row)
    (hsecret : ctx.decrypt row.snaptradeUserSecretEncrypted = some secret)
    (hc : c.credentials = some (row.snaptradeUserId, secret)) (hlogin : ∀ redirect,
      c ≠ .loginUser row.snaptradeUserId secret redirect) : CallCause ctx r h c := by
  have hpair : HasPair ctx h userId row.snaptradeUserId secret :=
    Or.inl ⟨row, hrow, rfl, hsecret⟩
  cases c with
  | registerUser name => cases hc
  | loginUser name secret' redirect =>
    cases hc
    exact absurd rfl (hlogin redirect)
  | _ => exact ⟨userId, _, _, hu, hc, hpair⟩

theorem caused_listConnections (hu : requester ctx r = some userId) :
    Caused ctx r (listConnections ctx userId) h fun _ _ => True := by
  refine Leads.bind (caused_fetchActive hu) ?_
  intro out h₁ _ hout
  cases out with
  | none => exact caused_ok True.intro
  | some row =>
    refine caused_withSecret ?_
    intro secret h₂ hsub hsecret
    refine Leads.bind (caused_call ?_) fun _ _ _ _ => caused_ok True.intro
    exact callCause_of_row hu (Or.inl (hsub hout)) hsecret rfl (by simp)

theorem caused_listAccounts (hu : requester ctx r = some userId) :
    Caused ctx r (listAccounts ctx userId) h fun _ _ => True := by
  refine Leads.bind (caused_fetchActive hu) ?_
  intro out h₁ _ hout
  cases out with
  | none => exact caused_ok True.intro
  | some row =>
    refine caused_withSecret ?_
    intro secret h₂ hsub hsecret
    refine Leads.bind (caused_call ?_) fun _ _ _ _ => caused_ok True.intro
    exact callCause_of_row hu (Or.inl (hsub hout)) hsecret rfl (by simp)

/-- The active connection of the user. -/
theorem caused_requireActive (hu : requester ctx r = some userId) :
    Caused ctx r (requireActive userId) h fun h' row => LookedUp h' userId row := by
  refine Leads.bind (caused_fetchActive hu) ?_
  intro out h₁ _ hout
  refine Leads.imp caused_ofOption ?_
  rintro row h₂ hsub rfl
  exact Or.inl (hsub hout)

theorem caused_accountHoldings (hu : requester ctx r = some userId) (accountId : String) :
    Caused ctx r (accountHoldings ctx userId accountId) h fun _ _ => True := by
  refine Leads.bind (caused_requireActive hu) ?_
  intro row h₁ _ hrow
  refine caused_withSecret ?_
  intro secret h₂ hsub hsecret
  refine Leads.imp (caused_call ?_) fun _ _ _ _ => True.intro
  exact callCause_of_row hu (hrow.mono hsub) hsecret rfl (by simp)

theorem caused_accountActivities (hu : requester ctx r = some userId) (accountId : String)
    (q : ActivitiesQuery) :
    Caused ctx r (accountActivities ctx userId accountId q) h fun _ _ => True := by
  refine Leads.bind (caused_requireActive hu) ?_
  intro row h₁ _ hrow
  refine caused_withSecret ?_
  intro secret h₂ hsub hsecret
  refine Leads.imp (caused_call ?_) fun _ _ _ _ => True.intro
  exact callCause_of_row hu (hrow.mono hsub) hsecret rfl (by simp)

/-! ### Refresh and disconnect -/

/-- The row of an authorization id of the user. -/
theorem caused_requireConnection (hu : requester ctx r = some userId)
    (authorizationId : String) :
    Caused ctx r (requireConnection userId authorizationId) h fun h' row =>
      Answered h' (.fetchByAuthorizationIdForUser userId authorizationId)
        (Except.ok (some row)) := by
  refine Leads.bind (caused_fetchByAuthorizationId hu authorizationId) ?_
  intro out h₁ _ hout
  refine Leads.imp caused_ofOption ?_
  rintro row h₂ hsub rfl
  exact hsub hout

theorem caused_refreshConnection (userId : Uuid) (requested : String) :
    Caused ctx (.refreshConnection userId requested) (refreshConnection ctx userId requested) h
      fun _ _ => True := by
  refine Leads.bind (caused_requireConnection rfl requested) ?_
  intro row h₁ _ hrow
  refine Leads.bind caused_ofOption ?_
  intro linked h₂ hsub₂ _
  refine caused_withSecret ?_
  intro secret h₃ hsub₃ hsecret
  refine Leads.bind (caused_call ?_) ?_
  · have hlooked : LookedUp h₃ userId row := Or.inr (Or.inr ⟨requested, hsub₃ (hsub₂ hrow)⟩)
    exact callCause_of_row rfl hlooked hsecret rfl (by simp)
  · intro v h₄ _ hreply
    exact caused_recordEvent
      (.refreshed userId requested row.snaptradeUserId secret linked v hreply)

/-- A removal that counts has been answered. -/
theorem caused_removeAuthorization {snaptradeUserId secret linked : String}
    (hc : CallCause ctx r h (.removeAuthorization snaptradeUserId secret linked)) :
    Caused ctx r (removeAuthorization snaptradeUserId secret linked) h fun h' _ =>
      ∃ reply, Answered h' (.call (.removeAuthorization snaptradeUserId secret linked)) reply ∧
        Removed reply := by
  refine leads_perform hc ?_
  intro x
  have hlast := answered_last h (.call (.removeAuthorization snaptradeUserId secret linked)) x
  cases x with
  | ok v => exact caused_ok ⟨_, hlast, Or.inl ⟨v, rfl⟩⟩
  | error e =>
    by_cases he : e = .status 404
    · subst he
      exact caused_ok ⟨_, hlast, Or.inr rfl⟩
    · simp only [he, if_false]
      exact leads_error

theorem caused_removeUpstream {row : StoredConnection} {authorizationId : String}
    (hu : requester ctx r = some userId)
    (hrow : Answered h (.fetchByAuthorizationIdForUser userId authorizationId)
      (Except.ok (some row))) :
    Caused ctx r (removeUpstream ctx row) h fun h' _ =>
      UnlinkCause ctx h' userId row.id authorizationId row := by
  unfold removeUpstream
  split
  · rename_i hdisabled
    exact caused_ok ⟨hrow, rfl, Or.inl hdisabled⟩
  · split
    · rename_i hunlinked
      exact caused_ok ⟨hrow, rfl, Or.inr (Or.inl hunlinked)⟩
    · rename_i linked hlinked
      refine caused_withSecret ?_
      intro secret h₁ hsub hsecret
      refine Leads.imp (caused_removeAuthorization ?_) ?_
      · have hlooked : LookedUp h₁ userId row := Or.inr (Or.inr ⟨authorizationId, hsub hrow⟩)
        exact callCause_of_row hu hlooked hsecret rfl (by simp)
      · rintro _ h₂ hsub₂ ⟨reply, hreply, hremoved⟩
        exact ⟨hsub₂ (hsub hrow), rfl,
          Or.inr (Or.inr ⟨linked, secret, reply, hlinked, hsecret, hreply, hremoved⟩)⟩

theorem caused_deleteConnection (userId : Uuid) (authorizationId : String) :
    Caused ctx (.deleteConnection userId authorizationId)
      (deleteConnection ctx userId authorizationId) h fun _ _ => True := by
  refine Leads.bind (caused_requireConnection rfl authorizationId) ?_
  intro row h₁ _ hrow
  refine Leads.bind (caused_removeUpstream rfl hrow) ?_
  intro _ h₂ _ hcause
  refine Leads.bind (P := fun h' n => Answered h' (.softDelete userId row.id) (Except.ok n)) ?_ ?_
  · refine leads_perform ⟨authorizationId, row, rfl, hcause⟩ ?_
    rintro x n rfl
    exact answered_last h₂ (.softDelete userId row.id) _
  · intro n h₃ hsub hwritten
    exact caused_recordEvent
      (.disconnected userId authorizationId row n (hsub hcause.found) hwritten)

/-! ### The login -/

theorem caused_issueState (userId : Uuid) :
    Caused ctx r (issueState ctx userId) h fun h' token =>
      ∃ (time : Timestamp) (nonce : Uuid), Answered h' .now time ∧ Answered h' .newUuid nonce ∧
        ctx.encodeState ⟨userId, nonce, "mizan-snaptrade-state", time + stateTtl, time⟩
          = some token := by
  refine Leads.bind caused_now ?_
  intro time h₁ _ htime
  refine Leads.bind caused_newUuid ?_
  intro nonce h₂ hsub hnonce
  refine Leads.imp caused_ofOption ?_
  intro token h₃ hsub' htoken
  exact ⟨time, nonce, hsub' (hsub htime), hsub' hnonce, htoken⟩

theorem caused_registerUser (hslot : Answered h (.checkLimit userId) (Except.ok ()))
    (hnone : Answered h (.fetchAnyForUser userId) (Except.ok none)) :
    Caused ctx (.loginPortal userId) (registerUser ctx userId) h fun h' pair =>
      HasPair ctx h' userId pair.1 pair.2 := by
  refine Leads.bind (caused_call (c := .registerUser userId.toString)
    ⟨userId, rfl, rfl, hslot, hnone⟩) ?_
  intro resp h₁ _ hresp
  refine Leads.bind (caused_recordEvent (.initiated userId resp hresp)) ?_
  intro _ h₂ hsub₂ _
  refine Leads.bind caused_ofOption ?_
  intro blob h₃ hsub₃ hblob
  refine Leads.bind (P := fun _ _ => True) ?_ ?_
  · exact leads_perform ⟨rfl, resp, hsub₃ (hsub₂ hresp), rfl, hblob⟩ fun _ _ _ => True.intro
  · intro _ h₄ hsub₄ _
    exact caused_ok (Or.inr (hsub₄ (hsub₃ (hsub₂ hresp))))

theorem caused_snaptradeUser (hslot : Answered h (.checkLimit userId) (Except.ok ()))
    {stored : Option StoredConnection}
    (hstored : Answered h (.fetchAnyForUser userId) (Except.ok stored)) :
    Caused ctx (.loginPortal userId) (snaptradeUser ctx userId stored) h fun h' pair =>
      HasPair ctx h' userId pair.1 pair.2 := by
  cases stored with
  | none => exact caused_registerUser hslot hstored
  | some row =>
    refine caused_withSecret ?_
    intro secret h₁ hsub hsecret
    exact caused_ok (Or.inl ⟨row, Or.inr (Or.inl (hsub hstored)), rfl, hsecret⟩)

theorem caused_loginPortal (userId : Uuid) :
    Caused ctx (.loginPortal userId) (loginPortal ctx userId) h fun _ _ => True := by
  refine Leads.bind (P := fun h' _ => Answered h' (.checkLimit userId) (Except.ok ())) ?_ ?_
  · refine leads_perform rfl ?_
    intro x
    cases x with
    | ok slot => exact caused_ok (answered_last h (.checkLimit userId) _)
    | error seconds => exact leads_error
  · intro _ h₁ _ hslot
    refine Leads.bind (caused_fetchAny rfl) ?_
    intro stored h₂ hsub₂ hstored
    refine Leads.bind (caused_snaptradeUser (hslot.mono hsub₂) hstored) ?_
    intro pair h₃ _ hpair
    refine Leads.bind (caused_issueState userId) ?_
    rintro token h₄ hsub₄ ⟨time, nonce, htime, hnonce, htoken⟩
    refine Leads.bind caused_ofOption ?_
    intro redirect h₅ hsub₅ hredirect
    refine Leads.bind (caused_call (c := .loginUser pair.1 pair.2 redirect) ?_) ?_
    · exact ⟨userId, rfl, (hpair.mono hsub₄).mono hsub₅, time, nonce, token, hsub₅ htime,
        hsub₅ hnonce, htoken, hredirect⟩
    · intro login h₆ _ _
      exact Leads.bind caused_now fun _ _ _ _ => caused_ok True.intro

/-! ### The callback -/

/-- A failure of the callback that reports what has happened. -/
theorem caused_failWith {user : Option Uuid} {errorCode : String} {e : AppError}
    {Q : List (Event Op Op.Answer) → α → Prop}
    (hevent : Reports ctx h r
      ⟨user, "broker.connect.failed", .obj [("error_code", .str errorCode)]⟩) :
    Caused ctx r (failWith user errorCode e) h Q :=
  Leads.bind (caused_recordEvent hevent) fun _ _ _ _ => leads_error

theorem caused_requireState (q : CallbackQuery) :
    Caused ctx (.callback q) (requireState ctx q) h fun _ claims =>
      requester ctx (.callback q) = some claims.sub := by
  unfold requireState
  cases hstate : q.state with
  | none => exact caused_failWith (.missingState q hstate)
  | some token =>
    dsimp only
    cases hverify : verifyState ctx.toSnaptradeContext token with
    | error e =>
      refine caused_failWith (.badState q token hstate ?_)
      unfold verifyState at hverify
      cases hdecode : ctx.decodeState token with
      | none => rfl
      | some claims => simp [hdecode] at hverify
    | ok claims =>
      refine caused_ok ?_
      have hdecode : ctx.decodeState token = some claims := verifyState_ok hverify
      simp [requester, hstate, hdecode]

theorem caused_requireRow {q : CallbackQuery} (hu : requester ctx (.callback q) = some userId)
    {found : Option StoredConnection}
    (hfound : Answered h (.fetchAnyForUser userId) (Except.ok found)) :
    Caused ctx (.callback q) (requireRow q userId found) h fun h' row =>
      Answered h' (.fetchAnyForUser userId) (Except.ok (some row)) ∧
        ∀ name, q.userId = some name → name = row.snaptradeUserId := by
  cases found with
  | none => exact caused_failWith (.noPending q userId hu hfound)
  | some row =>
    show Caused ctx _ (if q.userId.any fun returned => returned ≠ row.snaptradeUserId then
      Snaptrade.failWith (some userId) "user_id_mismatch" _
      else Handler.ofExcept (.ok row)) h _
    split
    · rename_i hany
      cases hreturned : q.userId with
      | none => simp [hreturned] at hany
      | some returned =>
        have hne : returned ≠ row.snaptradeUserId := by simpa [hreturned] using hany
        exact caused_failWith (.mismatch q userId row returned hu (Or.inr (Or.inl hfound))
          hreturned hne)
    · rename_i hany
      refine caused_ok ⟨hfound, ?_⟩
      intro name hname
      simpa [hname] using hany

/-- The choice of the callback is one of the list, and not the linked one. -/
theorem pickNewest_mem {c : SnaptradeContext} {authorizations : List StAuthorization}
    {existing : Option String} {auth : StAuthorization}
    (h : pickNewestAuthorization c authorizations existing = some auth) :
    auth ∈ authorizations ∧ existing ≠ some auth.id := by
  obtain ⟨pair, hpair, rfl⟩ := Option.map_eq_some_iff.mp h
  obtain ⟨hmem, hcandidate⟩ := List.mem_filter.mp (Best.best_mem hpair)
  refine ⟨(List.mem_zipIdx' hmem).2 ▸ List.getElem_mem _, ?_⟩
  rintro rfl
  simp [isCandidate] at hcandidate

/-- Without a link, nothing is chosen from an empty list only. -/
theorem pickNewest_none {c : SnaptradeContext} {authorizations : List StAuthorization}
    (h : pickNewestAuthorization c authorizations none = none) : authorizations = [] := by
  have hempty := (Best.best_eq_none_iff _ _).mp (Option.map_eq_none_iff.mp h)
  cases authorizations with
  | nil => rfl
  | cons auth rest => simp [isCandidate] at hempty

theorem caused_finishCallback {q : CallbackQuery} {row : StoredConnection} {secret : String}
    {authorizations : List StAuthorization} (hu : requester ctx (.callback q) = some userId)
    (hrow : Answered h (.fetchAnyForUser userId) (Except.ok (some row)))
    (hreturned : ∀ name, q.userId = some name → name = row.snaptradeUserId)
    (hsecret : ctx.decrypt row.snaptradeUserSecretEncrypted = some secret)
    (hlisted : Answered h (.call (.listAuthorizations row.snaptradeUserId secret))
      (Except.ok authorizations)) :
    Caused ctx (.callback q) (finishCallback userId row
      (pickNewestAuthorization ctx.toSnaptradeContext authorizations
        row.snaptradeAuthorizationId)) h fun _ _ => True := by
  cases hpick : pickNewestAuthorization ctx.toSnaptradeContext authorizations
      row.snaptradeAuthorizationId with
  | some auth =>
    obtain ⟨hmem, hne⟩ := pickNewest_mem hpick
    refine Leads.bind (P := fun h' _ => Answered h' (.markCompleted row.id auth.id
      (auth.brokerage.map (·.slug)) (auth.brokerage.map fun b => b.displayName.getD b.name))
      (Except.ok ())) ?_ ?_
    · refine leads_perform ⟨q, userId, row, secret, authorizations, rfl, hu, hrow, rfl, hreturned,
        hsecret, hlisted, List.mem_map_of_mem hmem, hne⟩ ?_
      rintro x _ rfl
      exact answered_last h (.markCompleted row.id auth.id _ _) _
    · intro _ h₁ _ hwritten
      refine Leads.bind (caused_recordEvent (.completed q userId row.id auth.id _ _ hu hwritten)) ?_
      exact fun _ _ _ _ => caused_ok True.intro
  | none =>
    unfold finishCallback
    dsimp only
    cases hlinked : row.snaptradeAuthorizationId with
    | some linked => exact caused_ok True.intro
    | none =>
      rw [hlinked] at hpick
      obtain rfl := pickNewest_none hpick
      refine Leads.bind (caused_recordEvent (.noneNew q userId row secret hu
        (Or.inr (Or.inl hrow)) hlinked hlisted)) ?_
      exact fun _ _ _ _ => caused_ok True.intro

theorem caused_callback (q : CallbackQuery) :
    Caused ctx (.callback q) (callback ctx q) h fun _ _ => True := by
  refine Leads.bind (caused_requireState q) ?_
  intro claims h₁ _ hu
  refine Leads.bind (caused_fetchAny hu) ?_
  intro found h₂ _ hfound
  refine Leads.bind (caused_requireRow hu hfound) ?_
  rintro row h₃ _ ⟨hrow, hreturned⟩
  refine caused_withSecret ?_
  intro secret h₄ hsub₄ hsecret
  refine Leads.bind (caused_callOr (c := .listAuthorizations row.snaptradeUserId secret) ?_ ?_) ?_
  · exact callCause_of_row hu (Or.inr (Or.inl (hsub₄ hrow))) hsecret rfl (by simp)
  · intro e
    exact caused_recordEvent (.listFailed q claims.sub row.snaptradeUserId secret e hu
      (answered_last h₄ (.call (.listAuthorizations row.snaptradeUserId secret)) _))
  · intro authorizations h₅ hsub₅ hlisted
    exact caused_finishCallback hu (hsub₅ (hsub₄ hrow)) hreturned hsecret hlisted

/-! ### All of them -/

theorem caused_handle (r : Request) :
    Caused ctx r (handle ctx r) h fun _ _ => True := by
  cases r with
  | loginPortal userId => exact (caused_loginPortal userId).map
  | callback q => exact (caused_callback q).map
  | listConnections userId => exact (caused_listConnections rfl).map
  | listAccounts userId => exact (caused_listAccounts rfl).map
  | accountHoldings userId accountId => exact (caused_accountHoldings rfl accountId).map
  | accountActivities userId accountId q => exact (caused_accountActivities rfl accountId q).map
  | refreshConnection userId authorizationId =>
    exact (caused_refreshConnection userId authorizationId).map
  | deleteConnection userId authorizationId =>
    exact (caused_deleteConnection userId authorizationId).map

/-- No handler does anything without its cause. -/
theorem handle_follows (ctx : BrokerContext) (r : Request) :
    (handle ctx r).run.Follows (Cause ctx r) (fun _ _ => True) [] :=
  Program.Follows.imp (caused_handle r) fun _ _ _ => True.intro

end

end MizanConnect.Proofs.Snaptrade
