import MizanConnect.Proofs.Snaptrade.CallbackReplay
import MizanConnect.Proofs.Snaptrade.Operations

/-!
# `MizanConnect.Proofs.Snaptrade.SuccessPage`: what the success page says

`snaptrade_callback` answers with the success page on two branches. On the
first it has just written the authorization that it picked. On the second it
picked none, because every listed authorization has the id that is already on
the row. It takes this for a replay, whether or not the row is still active and
whether or not the list is empty. `success_truthful_iff` says when the page is
truthful.

`result_callback` connects the two models of the handler: the program of
`Snaptrade.Handlers`, run alone, is the function of `Snaptrade.Callback`.
-/

set_option autoImplicit false

namespace MizanConnect.Proofs.Snaptrade

open MizanConnect.Snaptrade
open MizanConnect.Snaptrade.Repository
open MizanConnect.Snaptrade.BrokerConnections (Row schema isSnaptrade)
open Concurrent (Action Program result result_bind_run)
open Transition (run)
open Sql (Table)

/-! ### The program and the function -/

/-- The inputs when every statement runs at `now` and is acknowledged, and
SnapTrade replies as `reply` says. -/
def calmInput (reply : (c : Call) → Except SnaptradeError c.Reply) (now : Timestamp)
    (newId : Uuid) : (o : Op) → brokerage.In o
  | .checkLimit _ => Except.ok (ε := Int) ()
  | .call c => reply c
  | .now => now
  | .newUuid => newId
  | .fetchActiveForUser _ => Attempt.run now newId true
  | .fetchAnyForUser _ => Attempt.run now newId true
  | .fetchByAuthorizationIdForUser _ _ => Attempt.run now newId true
  | .insertPending _ _ _ => Attempt.run now newId true
  | .markCompleted _ _ _ _ => Attempt.run now newId true
  | .softDelete _ _ => Attempt.run now newId true
  | .recordEvent _ => Attempt.run now newId true

/-- The environment with these inputs. -/
def calm (reply : (c : Call) → Except SnaptradeError c.Reply) (now : Timestamp) (newId : Uuid)
    (w : Unit) (o : Op) : brokerage.In o × Unit :=
  (calmInput reply now newId o, w)

/-- `GET /authorizations` as the function takes it. -/
def listed (reply : (c : Call) → Except SnaptradeError c.Reply) : ListAuthorizations :=
  fun userId secret => (reply (.listAuthorizations userId secret)).mapError
    SnaptradeError.toAppError

section
variable {ctx : BrokerContext} {reply : (c : Call) → Except SnaptradeError c.Reply}
  {now : Timestamp} {newId : Uuid} {db : BrokerDb}

theorem result_fetchAny (userId : Uuid) :
    result brokerage (calm reply now newId) (Handler.fetchAnyForUser userId).run () db
      = (.ok (fetchAnyForUser db.connections userId), (), db) := rfl

theorem result_markCompleted (id : Uuid) (authId : String) (slug name : Option String) :
    result brokerage (calm reply now newId) (Handler.markCompleted id authId slug name).run () db =
      match markCompleted db.connections now id authId slug name with
      | .error v => (.error (AppError.ofDb (.violation v)), (), db)
      | .ok t' => (.ok (), (), { db with connections := t' }) := by
  have hexec : result brokerage (calm reply now newId)
      (Handler.markCompleted id authId slug name).run () db
        = ((db.write (.run now newId true) (markCompletedStatement id authId slug name)).1, (),
          (db.write (.run now newId true) (markCompletedStatement id authId slug name)).2) := rfl
  rw [hexec]
  cases hmark : markCompleted db.connections now id authId slug name with
  | error v => simp [BrokerDb.write, Attempt.write, markCompletedStatement, hmark, Except.map]
  | ok t' => simp [BrokerDb.write, Attempt.write, markCompletedStatement, hmark, Except.map]

theorem result_requireState (q : CallbackQuery) :
    result brokerage (calm reply now newId) (requireState ctx q).run () db =
      match q.state with
      | none => (.error (.badRequest "missing state token"), (),
          recordFailure db none "missing_state")
      | some token =>
        match verifyState ctx.toSnaptradeContext token with
        | .error e => (.error e, (), recordFailure db none "bad_state")
        | .ok claims => (.ok claims, (), db) := by
  unfold requireState
  cases htoken : q.state with
  | none => rfl
  | some token =>
    dsimp only
    cases hverify : verifyState ctx.toSnaptradeContext token with
    | error e => rfl
    | ok claims => rfl

theorem result_requireRow (q : CallbackQuery) (userId : Uuid)
    (found : Option StoredConnection) :
    result brokerage (calm reply now newId) (requireRow q userId found).run () db =
      match found with
      | none => (.error (.badRequest "no pending connection for this user"), (),
          recordFailure db (some userId) "no_pending_connection")
      | some row =>
        if q.userId.any fun returned => returned ≠ row.snaptradeUserId then
          (.error (.badRequest "snaptrade userId mismatch"), (),
            recordFailure db (some userId) "user_id_mismatch")
        else (.ok row, (), db) := by
  cases found with
  | none => rfl
  | some row =>
    unfold requireRow
    dsimp only
    split
    · rfl
    · rfl

/-- The end of the callback is `completeConnection`, or leaves the row. -/
theorem result_finishCallback (userId : Uuid) (row : StoredConnection)
    (picked : Option StAuthorization) :
    result brokerage (calm reply now newId) (finishCallback userId row picked).run () db =
      match picked with
      | some auth =>
        ((completeConnection now userId row.id auth db).1, (),
          (completeConnection now userId row.id auth db).2)
      | none =>
        if row.snaptradeAuthorizationId.isSome then (.ok .success, (), db)
        else (.ok .connectionFailed, (),
          recordFailure db (some userId) "no_new_authorization") := by
  cases picked with
  | none =>
    unfold finishCallback
    by_cases hlinked : row.snaptradeAuthorizationId.isSome = true
    · simp only [hlinked, if_true]
      rfl
    · simp only [hlinked]
      rfl
  | some auth =>
    cases hmark : markCompleted db.connections now row.id auth.id (auth.brokerage.map (·.slug))
        (auth.brokerage.map fun b => b.displayName.getD b.name) with
    | error v =>
      have hstatement : result brokerage (calm reply now newId)
          (Handler.markCompleted row.id auth.id (auth.brokerage.map (·.slug))
            (auth.brokerage.map fun b => b.displayName.getD b.name)).run () db
          = (.error (AppError.ofDb (.violation v)), (), db) := by
        rw [result_markCompleted, hmark]
      show result brokerage (calm reply now newId)
        (Handler.markCompleted row.id auth.id _ _ >>= _).run () db = _
      rw [result_bind_run, hstatement]
      simp only [completeConnection, hmark]
    | ok t' =>
      have hstatement : result brokerage (calm reply now newId)
          (Handler.markCompleted row.id auth.id (auth.brokerage.map (·.slug))
            (auth.brokerage.map fun b => b.displayName.getD b.name)).run () db
          = (.ok (), (), { db with connections := t' }) := by
        rw [result_markCompleted, hmark]
      show result brokerage (calm reply now newId)
        (Handler.markCompleted row.id auth.id _ _ >>= _).run () db = _
      rw [result_bind_run, hstatement]
      simp only [completeConnection, hmark]
      rfl

/-- The callback from the row on. -/
theorem result_afterRow (userId : Uuid) (row : StoredConnection) :
    result brokerage (calm reply now newId) (do
        let secret ← Handler.ofExcept (decryptSecret ctx.toSnaptradeContext
          row.snaptradeUserSecretEncrypted)
        let authorizations : List StAuthorization ←
          Handler.callOr (.listAuthorizations row.snaptradeUserId secret)
            (recordFailureEvent (some userId) "list_authorizations_failed")
        finishCallback userId row (pickNewestAuthorization ctx.toSnaptradeContext authorizations
          row.snaptradeAuthorizationId) : Handler CallbackPage).run () db =
      let out : Except AppError CallbackPage × BrokerDb :=
        match decryptSecret ctx.toSnaptradeContext row.snaptradeUserSecretEncrypted with
        | .error e => (.error e, db)
        | .ok secret =>
          match listed reply row.snaptradeUserId secret with
          | .error e => (.error e, recordFailure db (some userId) "list_authorizations_failed")
          | .ok authorizations =>
            match pickNewestAuthorization ctx.toSnaptradeContext authorizations
                row.snaptradeAuthorizationId with
            | some auth => completeConnection now userId row.id auth db
            | none =>
              if row.snaptradeAuthorizationId.isSome then (.ok .success, db)
              else (.ok .connectionFailed,
                recordFailure db (some userId) "no_new_authorization")
      (out.1, (), out.2) := by
  rw [result_bind_run]
  cases hsecret : decryptSecret ctx.toSnaptradeContext row.snaptradeUserSecretEncrypted with
  | error e => rfl
  | ok secret =>
    show result brokerage (calm reply now newId) (Handler.callOr (.listAuthorizations
      row.snaptradeUserId secret) _ >>= _).run () db = _
    rw [result_bind_run, result_callOr]
    dsimp only [listed, calm, calmInput]
    cases hreply : reply (.listAuthorizations row.snaptradeUserId secret) with
    | error e => rfl
    | ok authorizations =>
      dsimp only [Except.mapError]
      rw [result_finishCallback]
      cases hpick : pickNewestAuthorization ctx.toSnaptradeContext authorizations
          row.snaptradeAuthorizationId with
      | some auth => rfl
      | none =>
        dsimp only
        split
        · rfl
        · rfl

/-- The program of the callback, run alone, is the function. -/
theorem result_callback (q : CallbackQuery) :
    result brokerage (calm reply now newId) (callback ctx q).run () db =
      ((snaptradeCallback ctx.toSnaptradeContext (listed reply) now q db).1, (),
        (snaptradeCallback ctx.toSnaptradeContext (listed reply) now q db).2) := by
  unfold callback snaptradeCallback
  rw [result_bind_run, result_requireState]
  cases htoken : q.state with
  | none => rfl
  | some token =>
    dsimp only
    cases hverify : verifyState ctx.toSnaptradeContext token with
    | error e => rfl
    | ok claims =>
      dsimp only
      rw [result_bind_run, result_fetchAny]
      dsimp only
      rw [result_bind_run, result_requireRow]
      cases hfetch : fetchAnyForUser db.connections claims.sub with
      | none => rfl
      | some row =>
        dsimp only
        by_cases hmismatch : (q.userId.any fun returned => returned ≠ row.snaptradeUserId) = true
        · simp only [if_pos hmismatch]
        · simp only [if_neg hmismatch]
          exact result_afterRow claims.sub row

end

/-! ### When the page is truthful -/

/-- The user's row is linked to one of the authorizations. -/
def Linked (authorizations : List StAuthorization) (user : Uuid) (db : BrokerDb) : Prop :=
  ∃ row, anyRowFor db.connections user = some row ∧ row.isActive = true ∧
    row.disabled = false ∧ ∃ a ∈ authorizations, row.snaptradeAuthorizationId = some a.id

/-- The row has no authorization yet, or another one is listed, or the row is
active and its authorization is listed. -/
def Covered (authorizations : List StAuthorization) (row : Row) : Prop :=
  row.snaptradeAuthorizationId = none ∨
    (∃ a ∈ authorizations, row.snaptradeAuthorizationId ≠ some a.id) ∨
    (row.isActive = true ∧ row.disabled = false ∧
      ∃ a ∈ authorizations, row.snaptradeAuthorizationId = some a.id)

section
variable {ctx : SnaptradeContext} {upstream : ListAuthorizations} {q : CallbackQuery}
  {user : Uuid} {authorizations : List StAuthorization} {row : Row} {db : BrokerDb}

/-- Nothing is picked for a row with an authorization exactly when no other one
is listed. -/
theorem pick_eq_none_iff_of_linked {e : String} (he : row.snaptradeAuthorizationId = some e) :
    pickNewestAuthorization ctx authorizations row.snaptradeAuthorizationId = none ↔
      ∀ a ∈ authorizations, row.snaptradeAuthorizationId = some a.id := by
  rw [pickNewestAuthorization_eq_none_iff, he]
  refine forall₂_congr fun a _ => ?_
  rw [isCandidate_some_eq_false_iff, Option.some.injEq]
  exact eq_comm

/-- The success page after a pick is truthful. -/
theorem completeConnection_linked {auth : StAuthorization} {now : Timestamp}
    (hfound : anyRowFor db.connections user = some row) (hauth : auth ∈ authorizations)
    (hpage : (completeConnection now user row.id auth db).1 = .ok .success) :
    Linked authorizations user (completeConnection now user row.id auth db).2 := by
  unfold completeConnection at hpage ⊢
  cases hmark : markCompleted db.connections now row.id auth.id (auth.brokerage.map (·.slug))
      (auth.brokerage.map fun b => b.displayName.getD b.name) with
  | error v => simp [hmark] at hpage
  | ok t' =>
    simp only [hmark]
    exact ⟨_, anyRowFor_markCompleted hfound hmark, rfl, rfl, auth, hauth, rfl⟩

/-- Only a request that reaches the list can be answered with the success
page. -/
theorem reaches_of_success {now : Timestamp}
    (hpage : (snaptradeCallback ctx upstream now q db).1 = .ok .success) :
    ∃ user authorizations row, Reaches ctx upstream q user authorizations row db := by
  unfold snaptradeCallback at hpage
  cases htoken : q.state with
  | none => simp [htoken] at hpage
  | some token =>
    cases hverify : verifyState ctx token with
    | error e => simp [htoken, hverify] at hpage
    | ok claims =>
      cases hfetch : fetchAnyForUser db.connections claims.sub with
      | none => simp [htoken, hverify, hfetch] at hpage
      | some stored =>
        obtain ⟨row, hrow, rfl⟩ := Option.map_eq_some_iff.mp hfetch
        simp only [htoken, hverify, hfetch, StoredConnection.ofRow] at hpage
        by_cases hmismatch :
            (q.userId.any fun returned => returned ≠ row.snaptradeUserId) = true
        · rw [if_pos hmismatch] at hpage
          cases hpage
        · rw [if_neg hmismatch] at hpage
          cases hsecret : decryptSecret ctx row.snaptradeUserSecretEncrypted with
          | error e => simp [hsecret] at hpage
          | ok secret =>
            cases hlist : upstream row.snaptradeUserId secret with
            | error e => simp [hsecret, hlist] at hpage
            | ok authorizations =>
              refine ⟨claims.sub, authorizations, row, ⟨token, claims, htoken, hverify, rfl⟩,
                hrow, ?_, secret, decryptSecret_ok hsecret, hlist⟩
              intro returned hreturned
              by_contra hne
              exact hmismatch (by simp [hreturned, hne])

/-- A callback that reaches the list tells the truth exactly when the row is
covered by it. -/
theorem linked_iff_covered
    (h : Reaches ctx upstream q user authorizations row db) (now : Timestamp) :
    ((snaptradeCallback ctx upstream now q db).1 = .ok .success →
        Linked authorizations user (snaptradeCallback ctx upstream now q db).2) ↔
      Covered authorizations row := by
  rw [snaptradeCallback_reaches h]
  cases hpick : pickNewestAuthorization ctx authorizations row.snaptradeAuthorizationId with
  | some auth =>
    -- Another authorization is listed, and the page comes after its write.
    obtain ⟨hauth, hcandidate⟩ := pickNewestAuthorization_mem hpick
    refine iff_of_true (completeConnection_linked h.found hauth) ?_
    cases hstored : row.snaptradeAuthorizationId with
    | none => exact Or.inl hstored
    | some e =>
      refine Or.inr (Or.inl ⟨auth, hauth, ?_⟩)
      rw [hstored, isCandidate, decide_eq_true_eq] at hcandidate
      rw [hstored, Ne, Option.some.injEq]
      exact fun heq => hcandidate heq.symm
  | none =>
    cases hstored : row.snaptradeAuthorizationId with
    | none =>
      refine iff_of_true ?_ (Or.inl hstored)
      intro hpage
      cases hpage
    | some e =>
      have hall := (pick_eq_none_iff_of_linked hstored).mp hpick
      dsimp only
      rw [if_pos (Option.isSome_some (a := e))]
      constructor
      · -- The page is shown and nothing was written.
        intro htruth
        obtain ⟨row', hrow', hlinked⟩ := htruth rfl
        cases h.found.symm.trans hrow'
        exact Or.inr (Or.inr hlinked)
      · rintro (hnone | ⟨a, ha, hne⟩ | hlinked) _
        · cases hstored.symm.trans hnone
        · exact absurd (hall a ha) hne
        · exact ⟨row, h.found, hlinked⟩

/-- The setting is determined by the request and the state. -/
theorem Reaches.unique {user' : Uuid} {authorizations' : List StAuthorization} {row' : Row}
    (h : Reaches ctx upstream q user authorizations row db)
    (h' : Reaches ctx upstream q user' authorizations' row' db) :
    user' = user ∧ authorizations' = authorizations ∧ row' = row := by
  obtain ⟨⟨token, claims, htoken, hverify, rfl⟩, hfound, -, secret, hsecret, hlist⟩ := h
  obtain ⟨⟨token', claims', htoken', hverify', rfl⟩, hfound', -, secret', hsecret', hlist'⟩ := h'
  cases htoken.symm.trans htoken'
  cases hverify.symm.trans hverify'
  cases hfound.symm.trans hfound'
  cases hsecret.symm.trans hsecret'
  cases hlist.symm.trans hlist'
  exact ⟨rfl, rfl, rfl⟩

/-- After the success page the row of the user is active, enabled and linked to
an authorization of the list. -/
def Truthful (ctx : SnaptradeContext) (upstream : ListAuthorizations) (now : Timestamp)
    (q : CallbackQuery) (db : BrokerDb) : Prop :=
  (snaptradeCallback ctx upstream now q db).1 = .ok .success →
    ∃ user authorizations row, Reaches ctx upstream q user authorizations row db ∧
      Linked authorizations user (snaptradeCallback ctx upstream now q db).2

/-- The page is truthful exactly when the row that the callback finds is
covered by the list. -/
theorem success_truthful_iff (ctx : SnaptradeContext) (upstream : ListAuthorizations)
    (now : Timestamp) (q : CallbackQuery) (db : BrokerDb) :
    Truthful ctx upstream now q db ↔ ∀ user authorizations row,
      Reaches ctx upstream q user authorizations row db → Covered authorizations row := by
  constructor
  · intro htruth user authorizations row h
    refine (linked_iff_covered h now).mp ?_
    intro hpage
    obtain ⟨user', authorizations', row', h', hlinked⟩ := htruth hpage
    obtain ⟨rfl, rfl, rfl⟩ := h.unique h'
    exact hlinked
  · intro hcovered hpage
    obtain ⟨user, authorizations, row, h⟩ := reaches_of_success hpage
    exact ⟨user, authorizations, row, h,
      (linked_iff_covered h now).mpr (hcovered user authorizations row h) hpage⟩

end

/-! ### A disconnected row -/

/-- The service of one user. -/
def aliceContext : BrokerContext where
  toSnaptradeContext := callbackContext
  encrypt secret := if secret = "secret" then some aliceBlob else none
  encodeState claims :=
    if claims.sub = alice ∧ claims.nonce = ⟨2⟩ ∧ claims.exp = 600 ∧ claims.iat = 0 then
      some aliceToken
    else none
  redirectWithState state := some ("https://connect.example/callback?state=" ++ state)

/-- SnapTrade registers the user that is asked for, and lists `authorizations`. -/
def aliceReply (authorizations : List StAuthorization) : (c : Call) → Except SnaptradeError c.Reply
  | .registerUser userId => .ok ⟨userId, "secret"⟩
  | .loginUser _ _ _ => .ok ⟨"https://app.snaptrade.com/snapTrade/redeemToken?token=1"⟩
  | .listAuthorizations _ _ => .ok authorizations
  | .listAccounts _ _ => .ok []
  | .accountHoldings _ _ _ => .ok .null
  | .accountActivities _ _ _ _ => .ok .null
  | .refreshAuthorization _ _ _ => .ok .null
  | .removeAuthorization _ _ _ => .ok .null

/-- Steps of the job `i` while SnapTrade lists `authorizations`. -/
def steps (n i : Nat) (authorizations : List StAuthorization) (now : Timestamp) :
    List (Action brokerage Request) :=
  List.replicate n (.advance i (calmInput (aliceReply authorizations) now ⟨2⟩))

def questrade : StAuthorization := linked "A" "2024-01-01T00:00:00Z" "questrade" "Questrade"

/-- The user logs in and links Questrade. -/
def linkQuestrade : List (Action brokerage Request) :=
  (.spawn (.loginPortal alice) :: steps 9 0 [] 0) ++
    (.spawn (.callback callbackQuery) :: steps 4 1 [questrade] 5)

/-- The user links Questrade and disconnects it. -/
def disconnect : List (Action brokerage Request) :=
  linkQuestrade ++ (.spawn (.deleteConnection alice "A") :: steps 4 2 [] 6)

/-- The row that is left of it. -/
def disconnectedRow : Row where
  id := ⟨2⟩
  userId := alice
  snaptradeUserId := "00000000-0000-0000-0000-000000000001"
  snaptradeUserSecretEncrypted := aliceBlob
  snaptradeAuthorizationId := some "A"
  institutionName := some "Questrade"
  isActive := false
  createdAt := 0
  updatedAt := 6
  connectionType := "snaptrade"
  brokerSlug := some "questrade"
  disabled := true

theorem disconnect_rows :
    (run (brokerNext aliceContext) brokerInit disconnect).map (·.state.connections.rows)
      = some [disconnectedRow] := by decide +kernel

/-- SnapTrade has nothing left for the user. -/
def listNone : ListAuthorizations := fun _ _ => .ok []

/-- The callback of the same redirect after the disconnect: SnapTrade lists
nothing, the row is inactive and disabled, and the page says that the broker
is linked. -/
theorem disconnected_success :
    ∃ s, run (brokerNext aliceContext) brokerInit disconnect = some s ∧
      ¬ Truthful callbackContext listNone 7 callbackQuery s.state := by
  obtain ⟨s, hrun, hrows⟩ := Option.map_eq_some_iff.mp disconnect_rows
  have hfound : anyRowFor s.state.connections alice = some disconnectedRow := by
    rw [anyRowFor, hrows]
    decide
  have hreach : Reaches callbackContext listNone callbackQuery alice [] disconnectedRow s.state :=
    { state := ⟨aliceToken, aliceClaims, rfl, by simp [verifyState, callbackContext], rfl⟩
      found := hfound
      userId := by
        intro returned h
        cases h
        rfl
      listed := ⟨"secret", by decide, rfl⟩ }
  refine ⟨s, hrun, ?_⟩
  intro htruth
  have hpage : (snaptradeCallback callbackContext listNone 7 callbackQuery s.state).1
      = .ok .success := by
    rw [snaptradeCallback_reaches hreach]
    rfl
  obtain ⟨user, authorizations, row, h, -, -, -, -, a, ha, -⟩ := htruth hpage
  obtain ⟨-, rfl, -⟩ := hreach.unique h
  cases ha

end MizanConnect.Proofs.Snaptrade
