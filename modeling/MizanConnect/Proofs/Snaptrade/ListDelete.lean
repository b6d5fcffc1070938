import MizanConnect.Proofs.Snaptrade.Lifecycle

/-!
# `MizanConnect.Proofs.Snaptrade.ListDelete`: listing and disconnecting

`list_connections` answers with the authorizations that SnapTrade has for the
user of the active row. `refresh_connection` and `delete_connection` look an id
up among the local rows, which have one authorization each. So the two agree
exactly when every listed id is the one of the active row: `agrees_iff`.

SnapTrade is a state here: a list for each of its users, from which
`DELETE /authorizations/:id` takes one id.
-/

set_option autoImplicit false

namespace MizanConnect.Proofs.Snaptrade

open MizanConnect.Snaptrade
open MizanConnect.Snaptrade.Repository
open MizanConnect.Snaptrade.BrokerConnections (Row schema isSnaptrade isActiveSnaptrade)
open Concurrent (Action Program result result_bind_run)
open Transition (Along run)
open Sql (Table)

/-! ### SnapTrade -/

/-- The authorizations of each SnapTrade user. -/
abbrev Authorizations := String → List StAuthorization

/-- The lists after `DELETE /authorizations/:id` of a user. -/
def Authorizations.without (l : Authorizations) (userId authorizationId : String) :
    Authorizations :=
  fun u => if u = userId then (l u).filter (·.id ≠ authorizationId) else l u

/-- The environment of one request: SnapTrade keeps the lists and refuses
nothing. What it replies to the other calls, and what happens to the statements,
comes from `replies` and `inputs`. -/
def snapTrade (replies : (c : Call) → c.Reply) (inputs : (o : Op) → brokerage.In o)
    (l : Authorizations) : (o : Op) → brokerage.In o × Authorizations
  | .call (.listAuthorizations userId _) =>
    (Except.ok (ε := SnaptradeError) (l userId), l)
  | .call (.removeAuthorization userId secret authorizationId) =>
    (Except.ok (ε := SnaptradeError) (replies (.removeAuthorization userId secret authorizationId)),
      l.without userId authorizationId)
  | .call c => (Except.ok (ε := SnaptradeError) (replies c), l)
  | o => (inputs o, l)

section
variable (ctx : BrokerContext) (replies : (c : Call) → c.Reply)
  (inputs : (o : Op) → brokerage.In o) (userId : Uuid) (l : Authorizations) (db : BrokerDb)

/-- `list_connections` alone. -/
def listing : Except AppError (List BrokerConnectionDto) × Authorizations × BrokerDb :=
  result brokerage (snapTrade replies inputs) (listConnections ctx userId).run l db

/-- `refresh_connection` alone. -/
def refreshing (authorizationId : String) : Except AppError Unit × Authorizations × BrokerDb :=
  result brokerage (snapTrade replies inputs)
    (refreshConnection ctx userId authorizationId).run l db

/-- `delete_connection` alone. -/
def deleting (authorizationId : String) : Except AppError Unit × Authorizations × BrokerDb :=
  result brokerage (snapTrade replies inputs)
    (deleteConnection ctx userId authorizationId).run l db

end

section
variable {ctx : BrokerContext} {replies : (c : Call) → c.Reply}
  {inputs : (o : Op) → brokerage.In o} {userId : Uuid} {l : Authorizations} {db : BrokerDb}

/-- What `list_connections` answers. It changes nothing. -/
theorem listing_eq :
    listing ctx replies inputs userId l db =
      (match Attempt.query (inputs (.fetchActiveForUser userId))
          (fetchActiveForUser db.connections userId) with
      | .error e => .error e
      | .ok none => .ok []
      | .ok (some row) =>
        (decryptSecret ctx.toSnaptradeContext row.snaptradeUserSecretEncrypted).map fun _ =>
          (l row.snaptradeUserId).map mapAuthorization, l, db) := by
  unfold listing listConnections
  rw [result_bind_run]
  have hfetch : result brokerage (snapTrade replies inputs)
      (Handler.fetchActiveForUser userId).run l db
      = (Attempt.query (inputs (.fetchActiveForUser userId))
          (fetchActiveForUser db.connections userId), l, db) := rfl
  rw [hfetch]
  cases Attempt.query (inputs (.fetchActiveForUser userId))
      (fetchActiveForUser db.connections userId) with
  | error e => rfl
  | ok found =>
    cases found with
    | none => rfl
    | some row =>
      dsimp only
      rw [result_withSecret]
      cases decryptSecret ctx.toSnaptradeContext row.snaptradeUserSecretEncrypted with
      | error e => rfl
      | ok secret => rfl

/-- The row of an authorization id, or a 404. -/
theorem result_requireConnection_snapTrade (authorizationId : String) :
    result brokerage (snapTrade replies inputs) (requireConnection userId authorizationId).run l db
      = (match Attempt.query (inputs (.fetchByAuthorizationIdForUser userId authorizationId))
          (fetchByAuthorizationIdForUser db.connections userId authorizationId) with
      | .error e => .error e
      | .ok none => .error (.notFound "connection not found")
      | .ok (some row) => .ok row, l, db) :=
  result_requireConnection (snapTrade replies inputs) userId authorizationId l db

/-- The lists after the upstream half of a disconnect. -/
def removed (l : Authorizations) (row : StoredConnection) : Authorizations :=
  if row.disabled then l
  else match row.snaptradeAuthorizationId with
    | none => l
    | some authId => l.without row.snaptradeUserId authId

/-- The upstream half of a disconnect fails when the secret does not open. -/
theorem result_removeUpstream (ctx : BrokerContext) (replies : (c : Call) → c.Reply)
    (inputs : (o : Op) → brokerage.In o) (l : Authorizations) (db : BrokerDb)
    (row : StoredConnection) :
    result brokerage (snapTrade replies inputs) (removeUpstream ctx row).run l db =
        (.ok (), removed l row, db) ∨
      ∃ e, decryptSecret ctx.toSnaptradeContext row.snaptradeUserSecretEncrypted = .error e ∧
        row.disabled = false ∧
        result brokerage (snapTrade replies inputs) (removeUpstream ctx row).run l db
          = (.error e, l, db) := by
  unfold removeUpstream removed
  cases hdisabled : row.disabled with
  | true => exact Or.inl rfl
  | false =>
    cases hauth : row.snaptradeAuthorizationId with
    | none => exact Or.inl rfl
    | some authId =>
      simp only [Bool.false_eq_true, if_false]
      rw [result_withSecret]
      cases hsecret : decryptSecret ctx.toSnaptradeContext row.snaptradeUserSecretEncrypted with
      | ok secret => exact Or.inl rfl
      | error e => exact Or.inr ⟨e, rfl, trivial, rfl⟩

/-- The table after `soft_delete`. -/
abbrev softDeleted (inputs : (o : Op) → brokerage.In o) (userId connectionId : Uuid)
    (db : BrokerDb) : Except AppError Nat × BrokerDb :=
  db.write (inputs (.softDelete userId connectionId))
    fun t now _ => softDelete t userId connectionId now

/-- The local half of a disconnect. -/
theorem result_softDelete_snapTrade (connectionId : Uuid) (event : AuditEvent) :
    ∃ db', db'.connections = (softDeleted inputs userId connectionId db).2.connections ∧
      result brokerage (snapTrade replies inputs) (do
          let _ ← Handler.softDelete userId connectionId
          Handler.recordEvent event : Handler Unit).run l db
        = ((softDeleted inputs userId connectionId db).1.map fun _ => (), l, db') := by
  have hwrite : snapTrade replies inputs l (.softDelete userId connectionId)
    = (inputs (.softDelete userId connectionId), l) := rfl
  have hrecord : snapTrade replies inputs l (.recordEvent event)
    = (inputs (.recordEvent event), l) := rfl
  rw [result_softDelete, hwrite, hrecord]
  dsimp only [softDeleted]
  obtain ⟨answer, db'⟩ := db.write (inputs (.softDelete userId connectionId))
    fun t now _ => softDelete t userId connectionId now
  cases answer with
  | error e => exact ⟨db', rfl, rfl⟩
  | ok n =>
    refine ⟨_, ?_, rfl⟩
    cases inputs (.recordEvent event) with
    | lost => rfl
    | run now newId acknowledged => rfl

/-- What `delete_connection` does to an id that is looked up: it fails before
the write, or writes. -/
theorem deleting_found (ctx : BrokerContext) (replies : (c : Call) → c.Reply)
    (l : Authorizations) {authorizationId : String} {row : StoredConnection}
    (hquery : Attempt.query (inputs (.fetchByAuthorizationIdForUser userId authorizationId))
      (fetchByAuthorizationIdForUser db.connections userId authorizationId) = .ok (some row)) :
    (∃ db', db'.connections = (softDeleted inputs userId row.id db).2.connections ∧
      deleting ctx replies inputs userId l db authorizationId
        = ((softDeleted inputs userId row.id db).1.map fun _ => (), removed l row, db')) ∨
      ∃ e, decryptSecret ctx.toSnaptradeContext row.snaptradeUserSecretEncrypted = .error e ∧
        row.disabled = false ∧
        deleting ctx replies inputs userId l db authorizationId = (.error e, l, db) := by
  unfold deleting deleteConnection
  rw [result_bind_run, result_requireConnection_snapTrade, hquery]
  dsimp only
  rw [result_bind_run]
  rcases result_removeUpstream ctx replies inputs l db row with
    hremoved | ⟨e, hsecret, hdisabled, hfailed⟩
  · rw [hremoved]
    exact Or.inl (result_softDelete_snapTrade row.id _)
  · rw [hfailed]
    exact Or.inr ⟨e, hsecret, hdisabled, rfl⟩

/-- What `refresh_connection` does to an id that is looked up. -/
theorem refreshing_found {authorizationId authId : String} {row : StoredConnection}
    (hquery : Attempt.query (inputs (.fetchByAuthorizationIdForUser userId authorizationId))
      (fetchByAuthorizationIdForUser db.connections userId authorizationId) = .ok (some row))
    (hauth : row.snaptradeAuthorizationId = some authId) :
    (refreshing ctx replies inputs userId l db authorizationId).1
      = (decryptSecret ctx.toSnaptradeContext row.snaptradeUserSecretEncrypted).map
          fun _ => () := by
  unfold refreshing refreshConnection
  rw [result_bind_run, result_requireConnection_snapTrade, hquery]
  dsimp only
  rw [hauth]
  show (result brokerage (snapTrade replies inputs) (withSecret ctx row _).run l db).1 = _
  rw [result_withSecret]
  cases decryptSecret ctx.toSnaptradeContext row.snaptradeUserSecretEncrypted with
  | error e => rfl
  | ok secret => rfl

end

/-! ### Rows and statements -/

/-- The active row of a user is the only one. -/
theorem activeRowFor_eq_some_iff {t : Table schema} {userId : Uuid} {row : Row} :
    activeRowFor t userId = some row ↔
      row ∈ t.rows ∧ snaptradeFor userId row = true ∧ row.isActive = true := by
  have hof : ∀ x, activeRowFor t userId = some x →
      x ∈ t.rows ∧ snaptradeFor userId x = true ∧ x.isActive = true := by
    intro x hx
    have hsel := List.find?_some hx
    rw [Bool.and_eq_true] at hsel
    exact ⟨List.mem_of_find?_eq_some hx, hsel⟩
  constructor
  · exact hof row
  · rintro ⟨hrow, hfor, hactive⟩
    cases hfind : activeRowFor t userId with
    | none =>
      refine absurd (List.find?_eq_none.mp hfind row hrow) ?_
      simp [hfor, hactive]
    | some x =>
      obtain ⟨hx, hxfor, hxactive⟩ := hof x hfind
      -- Two active rows of one user clash on `uq_broker_conn_user_snaptrade`.
      refine congrArg some (t.eq_of_clash hx hrow ?_)
      simp only [snaptradeFor, Bool.and_eq_true, decide_eq_true_eq] at hfor hxfor
      simp [schema, BrokerConnections.clash, Sql.uniqueOn, isActiveSnaptrade, hfor, hxfor,
        hactive, hxactive]

/-- What `soft_delete` leaves of the active row of a user: it is still found
exactly when another row was deleted. -/
theorem activeRowFor_softDelete {t t' : Table schema} {userId connectionId : Uuid} {row : Row}
    {now : Timestamp} (hrow : activeRowFor t userId = some row)
    (hrows : t'.rows = t.rows.map fun r =>
      if ownedBy userId connectionId r then deletedRow now r else r) :
    activeRowFor t' userId = if row.id = connectionId then none else some row := by
  obtain ⟨hmem, hfor, hactive⟩ := activeRowFor_eq_some_iff.mp hrow
  by_cases hid : row.id = connectionId
  · rw [if_pos hid]
    cases hfind : activeRowFor t' userId with
    | none => rfl
    | some y =>
      obtain ⟨hy, hyfor, hyactive⟩ := activeRowFor_eq_some_iff.mp hfind
      rw [hrows] at hy
      obtain ⟨x, hx, rfl⟩ := List.mem_map.mp hy
      by_cases howned : ownedBy userId connectionId x = true
      · rw [if_pos howned] at hyactive
        cases hyactive
      · rw [if_neg howned] at hyfor hyactive
        cases hrow.symm.trans (activeRowFor_eq_some_iff.mpr ⟨hx, hyfor, hyactive⟩)
        exact absurd (by simp [ownedBy, hid, hfor]) howned
  · rw [if_neg hid, activeRowFor_eq_some_iff]
    refine ⟨?_, hfor, hactive⟩
    rw [hrows, List.mem_map]
    refine ⟨row, hmem, if_neg ?_⟩
    simp [ownedBy, hid]

/-- `soft_delete` breaks no constraint. -/
theorem softDelete_ok (t : Table schema) (userId connectionId : Uuid) (now : Timestamp) :
    ∃ t' n, softDelete t userId connectionId now = .ok (t', n) := by
  suffices ∃ t', t.updateWhere (ownedBy userId connectionId) (deletedRow now) = .ok t' by
    obtain ⟨t', ht'⟩ := this
    exact ⟨t', _, by rw [softDelete, ht']; rfl⟩
  by_cases hfound : ∃ x ∈ t.rows, ownedBy userId connectionId x = true
  · obtain ⟨x, hx, hx'⟩ := hfound
    have howned : ∀ r ∈ t.rows, ownedBy userId connectionId r = decide (r.id = x.id) := by
      intro r hr
      have hxid : x.id = connectionId := by
        simp only [ownedBy, Bool.and_eq_true, decide_eq_true_eq] at hx'
        exact hx'.1
      by_cases hid : r.id = x.id
      · cases t.eq_of_key hr hx hid
        simp [hx']
      · simp [ownedBy, hid, ← hxid]
    have hupdated : t.updated (ownedBy userId connectionId) (deletedRow now)
        = [deletedRow now x] := by
      rw [← t.updated_key hx, Table.updated, Table.updated, List.filter_congr howned]
      rfl
    rw [Table.updateWhere, hupdated]
    refine t.write_version_ok hx rfl rfl ?_
    -- The deleted version has the SnapTrade user id of the row and is not active.
    intro r hclash
    simp only [schema, BrokerConnections.clash, Sql.uniqueOn, isActiveSnaptrade, isSnaptrade,
      deletedRow] at hclash ⊢
    simp_all
  · refine ⟨t, ?_⟩
    have hnone : t.updated (ownedBy userId connectionId) (deletedRow now) = [] := by
      rw [Table.updated, List.map_eq_nil_iff, List.filter_eq_nil_iff]
      exact fun x hx hx' => hfound ⟨x, hx, hx'⟩
    rw [Table.updateWhere, hnone, Table.write_nil]

/-! ### Errors of statements -/

/-- The answer is no 404. -/
def NotMissing {α : Type} (answer : Except AppError α) : Prop :=
  ∀ e, answer = .error e → e.code ≠ .notFound

theorem notMissing_ok {α : Type} (a : α) : NotMissing (.ok a : Except AppError α) := by
  intro e h
  cases h

/-- A statement that fails is no 404. -/
theorem notMissing_write {σ α : Type} (attempt : Attempt) (state : σ)
    (statement : Timestamp → Uuid → Except Sql.Violation (σ × α)) :
    NotMissing (attempt.write state statement).1 := by
  intro e h
  cases attempt with
  | lost =>
    cases h
    decide
  | run now newId acknowledged =>
    cases hstatement : statement now newId with
    | error v =>
      simp only [Attempt.write, hstatement, Except.error.injEq] at h
      rw [← h]
      cases v with
      | unique => simp [AppError.ofDb, AppError.conflict]
      | _ => simp [AppError.ofDb, AppError.internal]
    | ok out =>
      cases acknowledged with
      | true => simp [Attempt.write, hstatement] at h
      | false =>
        simp only [Attempt.write, hstatement, Bool.false_eq_true, if_false,
          Except.error.injEq] at h
        rw [← h]
        decide

theorem query_error {α : Type} {attempt : Attempt} {answer : α} {e : AppError}
    (h : attempt.query answer = .error e) : e = connectionError := by
  unfold Attempt.query at h
  cases attempt with
  | lost =>
    cases h
    rfl
  | run now newId acknowledged =>
    cases acknowledged with
    | true => cases h
    | false =>
      cases h
      rfl

theorem notMissing_decryptSecret (c : SnaptradeContext) (blob : List UInt8) :
    NotMissing (decryptSecret c blob) := by
  unfold decryptSecret
  cases c.decrypt blob with
  | none =>
    intro e h
    cases h
    decide
  | some secret => exact notMissing_ok secret

/-- A failure of a part is the failure of the whole. -/
theorem notMissing_map {α β : Type} {x : Except AppError α} {f : α → β} (h : NotMissing x) :
    NotMissing (x.map f) := by
  cases x with
  | error e =>
    intro e' he'
    cases he'
    exact h e rfl
  | ok a => exact notMissing_ok (f a)

/-! ### Listing and disconnecting -/

section
variable (ctx : BrokerContext) (replies : (c : Call) → c.Reply) (userId : Uuid)
  (l : Authorizations) (db : BrokerDb)

/-- Every listed id is accepted by the two requests that take one, and after a
disconnect the list is the previous one without the id. The statements of each
request may fail on their own. -/
structure Agrees : Prop where
  accepted : ∀ inputs dtos, (listing ctx replies inputs userId l db).1 = .ok dtos →
    ∀ d ∈ dtos, ∀ inputs',
      NotMissing (deleting ctx replies inputs' userId l db d.id).1 ∧
        NotMissing (refreshing ctx replies inputs' userId l db d.id).1
  removed : ∀ inputs dtos, (listing ctx replies inputs userId l db).1 = .ok dtos →
    ∀ d ∈ dtos, ∀ inputs' l' db',
      deleting ctx replies inputs' userId l db d.id = (.ok (), l', db') →
      ∀ inputs'' dtos', (listing ctx replies inputs'' userId l' db').1 = .ok dtos' →
        dtos' = dtos.filter (·.id ≠ d.id)

/-- Every id that SnapTrade has for the active row is the one of that row. -/
def Listable : Prop :=
  ∀ row secret, activeRowFor db.connections userId = some row →
    ctx.decrypt row.snaptradeUserSecretEncrypted = some secret →
    ∀ a ∈ l row.snaptradeUserId, authorizationRowFor db.connections userId a.id = some row

end

section
variable {ctx : BrokerContext} {replies : (c : Call) → c.Reply}
  {inputs : (o : Op) → brokerage.In o} {userId : Uuid} {l : Authorizations} {db : BrokerDb}

/-- An answered list is empty, or what SnapTrade has for the active row. -/
theorem listing_ok {dtos : List BrokerConnectionDto}
    (h : (listing ctx replies inputs userId l db).1 = .ok dtos) :
    dtos = [] ∨ ∃ row secret, activeRowFor db.connections userId = some row ∧
      ctx.decrypt row.snaptradeUserSecretEncrypted = some secret ∧
      dtos = (l row.snaptradeUserId).map mapAuthorization := by
  rw [listing_eq] at h
  cases hquery : Attempt.query (inputs (.fetchActiveForUser userId))
      (fetchActiveForUser db.connections userId) with
  | error e => simp [hquery] at h
  | ok found =>
    have hfound := Attempt.query_eq_ok hquery
    cases found with
    | none =>
      simp only [hquery, Except.ok.injEq] at h
      exact Or.inl h.symm
    | some stored =>
      obtain ⟨row, hrow, rfl⟩ := Option.map_eq_some_iff.mp hfound.symm
      simp only [hquery] at h
      obtain ⟨secret, hsecret, hdtos⟩ := map_eq_ok h
      exact Or.inr ⟨row, secret, hrow, decryptSecret_ok hsecret, hdtos.symm⟩

/-- With every statement answered, the list of an active row is answered. -/
theorem listing_calm (ctx : BrokerContext) (replies : (c : Call) → c.Reply)
    (l : Authorizations) {row : Row} {secret : String} (now : Timestamp) (newId : Uuid)
    (reply : (c : Call) → Except SnaptradeError c.Reply)
    (hrow : activeRowFor db.connections userId = some row)
    (hsecret : ctx.decrypt row.snaptradeUserSecretEncrypted = some secret) :
    (listing ctx replies (calmInput reply now newId) userId l db).1
      = .ok ((l row.snaptradeUserId).map mapAuthorization) := by
  have hfetch : fetchActiveForUser db.connections userId = some (StoredConnection.ofRow row) := by
    rw [fetchActiveForUser, hrow]
    rfl
  rw [listing_eq]
  simp only [calmInput, Attempt.query, hfetch, StoredConnection.ofRow, decryptSecret, hsecret,
    Except.map]

/-- A disconnect that succeeds has written the row of its lookup. -/
theorem deleting_ok {authorizationId : String} {l' : Authorizations} {db' : BrokerDb}
    (h : deleting ctx replies inputs userId l db authorizationId = (.ok (), l', db')) :
    ∃ row now, authorizationRowFor db.connections userId authorizationId = some row ∧
      db'.connections.rows = db.connections.rows.map fun r =>
        if ownedBy userId row.id r then deletedRow now r else r := by
  cases hquery : Attempt.query (inputs (.fetchByAuthorizationIdForUser userId authorizationId))
      (fetchByAuthorizationIdForUser db.connections userId authorizationId) with
  | error e =>
    unfold deleting deleteConnection at h
    rw [result_bind_run, result_requireConnection_snapTrade, hquery] at h
    cases h
  | ok found =>
    have hfound := Attempt.query_eq_ok hquery
    cases found with
    | none =>
      unfold deleting deleteConnection at h
      rw [result_bind_run, result_requireConnection_snapTrade, hquery] at h
      cases h
    | some stored =>
      obtain ⟨row, hrow, rfl⟩ := Option.map_eq_some_iff.mp hfound.symm
      rcases deleting_found ctx replies l hquery with
        ⟨db₁, hconn, heq⟩ | ⟨e, -, -, heq⟩
      · rw [heq] at h
        obtain ⟨n, hn, -⟩ := map_eq_ok (congrArg Prod.fst h)
        have hdb : db₁ = db' := congrArg (fun x => x.2.2) h
        rcases Attempt.write_cases (inputs (.softDelete userId row.id)) db.connections
            (fun now _ => softDelete db.connections userId row.id now) with
          ⟨-, e, herror⟩ | ⟨now, newId, acknowledged, answer, -, hrun, -⟩
        · exact nomatch herror.symm.trans hn
        · refine ⟨row, now, hrow, ?_⟩
          rw [← hdb, hconn]
          exact softDelete_rows hrun
      · rw [heq] at h
        cases h

/-- The lookup of an id as the handlers make it. -/
theorem fetchByAuthorizationId_eq {row : Row} {authorizationId : String}
    (hrow : authorizationRowFor db.connections userId authorizationId = some row) :
    fetchByAuthorizationIdForUser db.connections userId authorizationId
      = some (StoredConnection.ofRow row) := by
  rw [fetchByAuthorizationIdForUser, hrow]
  rfl

/-- The row of a lookup has the id. -/
theorem authorizationRowFor_mem {t : Table schema} {row : Row} {authorizationId : String}
    (hrow : authorizationRowFor t userId authorizationId = some row) :
    row ∈ t.rows ∧ row.snaptradeAuthorizationId = some authorizationId ∧
      snaptradeFor userId row = true := by
  have hsel := List.find?_some hrow
  simp only [authorizedFor, Bool.and_eq_true, decide_eq_true_eq] at hsel
  exact ⟨List.mem_of_find?_eq_some hrow, hsel⟩

/-- An id that is looked up is accepted. -/
theorem accepted_of_row {row : Row} {authorizationId : String}
    (hrow : authorizationRowFor db.connections userId authorizationId = some row) :
    NotMissing (deleting ctx replies inputs userId l db authorizationId).1 ∧
      NotMissing (refreshing ctx replies inputs userId l db authorizationId).1 := by
  obtain ⟨-, hauth, -⟩ := authorizationRowFor_mem hrow
  have hfetch := fetchByAuthorizationId_eq hrow
  cases hquery : Attempt.query (inputs (.fetchByAuthorizationIdForUser userId authorizationId))
      (fetchByAuthorizationIdForUser db.connections userId authorizationId) with
  | error e =>
    have herror : ∀ e', e = e' → e'.code ≠ .notFound := by
      intro e' he'
      rw [← he', query_error hquery]
      decide
    constructor
    · intro e' he'
      unfold deleting deleteConnection at he'
      rw [result_bind_run, result_requireConnection_snapTrade, hquery] at he'
      exact herror e' (Except.error.inj he')
    · intro e' he'
      unfold refreshing refreshConnection at he'
      rw [result_bind_run, result_requireConnection_snapTrade, hquery] at he'
      exact herror e' (Except.error.inj he')
  | ok found =>
    obtain rfl : found = some (StoredConnection.ofRow row) :=
      (Attempt.query_eq_ok hquery).trans hfetch
    constructor
    · rcases deleting_found ctx replies l hquery with
        ⟨db', -, heq⟩ | ⟨e, hsecret, -, heq⟩
      · rw [heq]
        exact notMissing_map (notMissing_write (inputs (.softDelete userId row.id)) db.connections
          fun now _ => softDelete db.connections userId row.id now)
      · rw [heq]
        have hmissing := notMissing_decryptSecret ctx.toSnaptradeContext
          (StoredConnection.ofRow row).snaptradeUserSecretEncrypted
        rw [hsecret] at hmissing
        intro e' he'
        exact hmissing e' (congrArg Except.error (Except.error.inj he'))
    · rw [refreshing_found hquery hauth]
      exact notMissing_map (notMissing_decryptSecret _ _)

/-- With every statement answered, an id that no row has is a 404. -/
theorem missing_of_none {authorizationId : String} (now : Timestamp) (newId : Uuid)
    (reply : (c : Call) → Except SnaptradeError c.Reply)
    (hnone : authorizationRowFor db.connections userId authorizationId = none) :
    ¬ NotMissing (deleting ctx replies (calmInput reply now newId) userId l db
      authorizationId).1 := by
  have hfetch : fetchByAuthorizationIdForUser db.connections userId authorizationId = none := by
    rw [fetchByAuthorizationIdForUser, hnone]
    rfl
  intro h
  refine h (.notFound "connection not found") ?_ rfl
  unfold deleting deleteConnection
  rw [result_bind_run, result_requireConnection_snapTrade]
  simp only [calmInput, Attempt.query, hfetch]

/-- With every statement answered, a disabled row is deleted again, and
SnapTrade is left alone. -/
theorem deleting_disabled (ctx : BrokerContext) (replies : (c : Call) → c.Reply)
    (l : Authorizations) {row : Row} {authorizationId : String} (now : Timestamp) (newId : Uuid)
    (reply : (c : Call) → Except SnaptradeError c.Reply)
    (hrow : authorizationRowFor db.connections userId authorizationId = some row)
    (hdisabled : row.disabled = true) :
    ∃ db', deleting ctx replies (calmInput reply now newId) userId l db authorizationId
      = (.ok (), l, db') := by
  have hquery : Attempt.query (calmInput reply now newId
      (.fetchByAuthorizationIdForUser userId authorizationId))
      (fetchByAuthorizationIdForUser db.connections userId authorizationId)
      = .ok (some (StoredConnection.ofRow row)) := by
    rw [fetchByAuthorizationId_eq hrow]
    rfl
  rcases deleting_found ctx replies l hquery with
    ⟨db', -, heq⟩ | ⟨e, -, henabled, -⟩
  · obtain ⟨t', n, hdelete⟩ := softDelete_ok db.connections userId row.id now
    have hwrite : (softDeleted (calmInput reply now newId) userId row.id db).1 = .ok n := by
      simp [softDeleted, BrokerDb.write, calmInput, Attempt.write, hdelete]
    refine ⟨db', ?_⟩
    rw [heq, show (StoredConnection.ofRow row).id = row.id from rfl, hwrite, removed,
      if_pos (show (StoredConnection.ofRow row).disabled = true from hdisabled)]
    rfl
  · cases hdisabled.symm.trans henabled

end

/-- The requests agree as soon as every listed id is that of the active row. -/
theorem agrees_of_listable {ctx : BrokerContext} {replies : (c : Call) → c.Reply} {userId : Uuid}
    {l : Authorizations} {db : BrokerDb} (h : Listable ctx userId l db) :
    Agrees ctx replies userId l db where
  accepted inputs dtos hdtos d hd inputs' := by
    rcases listing_ok hdtos with rfl | ⟨row, secret, hrow, hsecret, rfl⟩
    · cases hd
    · obtain ⟨a, ha, rfl⟩ := List.mem_map.mp hd
      exact accepted_of_row (h row secret hrow hsecret a ha)
  removed inputs dtos hdtos d hd inputs' l' db' hdelete inputs'' dtos' hdtos' := by
    rcases listing_ok hdtos with rfl | ⟨row, secret, hrow, hsecret, rfl⟩
    · cases hd
    · obtain ⟨a, ha, rfl⟩ := List.mem_map.mp hd
      have hlookup := h row secret hrow hsecret
      obtain ⟨x, now, hx, hrows⟩ := deleting_ok hdelete
      cases (hlookup a ha).symm.trans hx
      -- The active row is gone, so the next list is empty.
      have hnone : activeRowFor db'.connections userId = none := by
        rw [activeRowFor_softDelete hrow hrows, if_pos rfl]
      have hempty : dtos' = [] := by
        rcases listing_ok hdtos' with hempty | ⟨y, -, hy, -⟩
        · exact hempty
        · exact nomatch hnone.symm.trans hy
      -- And the previous list had no other id.
      rw [hempty, eq_comm, List.filter_eq_nil_iff]
      intro d hd
      obtain ⟨b, hb, rfl⟩ := List.mem_map.mp hd
      obtain ⟨-, ha', -⟩ := authorizationRowFor_mem (hlookup a ha)
      obtain ⟨-, hb', -⟩ := authorizationRowFor_mem (hlookup b hb)
      have hid : b.id = a.id := Option.some.inj (hb'.symm.trans ha')
      simp [mapAuthorization, hid]

/-- In every reachable state the requests agree exactly when every listed id is
that of the active row. -/
theorem agrees_iff (ctx : BrokerContext) (replies : (c : Call) → c.Reply) (userId : Uuid)
    (l : Authorizations) {s : BrokerSys} {as : List (Action brokerage Request)}
    (hs : run (brokerNext ctx) brokerInit as = some s) :
    Agrees ctx replies userId l s.state ↔ Listable ctx userId l s.state := by
  refine ⟨?_, agrees_of_listable⟩
  intro h row secret hrow hsecret a ha
  let reply : (c : Call) → Except SnaptradeError c.Reply := fun _ => .error .parse
  have hlist := listing_calm ctx replies l 0 ⟨0⟩ reply hrow hsecret
  have hd : mapAuthorization a ∈ (l row.snaptradeUserId).map mapAuthorization :=
    List.mem_map_of_mem ha
  cases hlookup : authorizationRowFor s.state.connections userId a.id with
  | none =>
    exact absurd (h.accepted _ _ hlist _ hd _).1 (missing_of_none 0 ⟨0⟩ reply hlookup)
  | some x =>
    by_contra hne
    obtain ⟨hx, hxauth, hxfor⟩ := authorizationRowFor_mem hlookup
    -- The lookup finds a row that is not active, so it is disabled.
    have hxinactive : x.isActive ≠ true := by
      intro hactive
      cases hrow.symm.trans (activeRowFor_eq_some_iff.mpr ⟨hx, hxfor, hactive⟩)
      exact hne rfl
    have hdisabled : x.disabled = true :=
      ((inStage_run hs x hx).linked (by rw [hxauth]; rfl)).resolve_left hxinactive
    obtain ⟨db', hdelete⟩ := deleting_disabled ctx replies l 0 ⟨0⟩
      reply hlookup hdisabled
    -- Its disconnect leaves the active row, and SnapTrade still lists the id.
    obtain ⟨y, now, hy, hrows⟩ := deleting_ok hdelete
    cases hlookup.symm.trans hy
    have hstill : activeRowFor db'.connections userId = some row := by
      rw [activeRowFor_softDelete hrow hrows, if_neg]
      intro hid
      obtain ⟨hmem, -, -⟩ := activeRowFor_eq_some_iff.mp hrow
      exact hne (congrArg some (s.state.connections.eq_of_key hx hmem hid.symm))
    have hagain := listing_calm ctx replies l 0 ⟨0⟩ reply hstill
      hsecret
    have hsame := h.removed _ _ hlist _ hd _ _ _ hdelete _ _ hagain
    rw [hsame] at hd
    simpa using (List.mem_filter.mp hd).2

/-! ### Two brokerages -/

/-- The replies of SnapTrade to alice, other than her list. -/
def aliceReplies : (c : Call) → c.Reply
  | .registerUser userId => ⟨userId, "secret"⟩
  | .loginUser _ _ _ => ⟨"https://app.snaptrade.com/snapTrade/redeemToken?token=1"⟩
  | .listAuthorizations _ _ => []
  | .listAccounts _ _ => []
  | .accountHoldings _ _ _ => .null
  | .accountActivities _ _ _ _ => .null
  | .refreshAuthorization _ _ _ => .null
  | .removeAuthorization _ _ _ => .null

/-- The list of alice, and nothing for anyone else. -/
def aliceList (authorizations : List StAuthorization) : Authorizations :=
  fun userId => if userId = "00000000-0000-0000-0000-000000000001" then authorizations else []

/-- The row after alice has linked an authorization. -/
def linkedRow (authorizationId slug name : String) : Row where
  id := ⟨2⟩
  userId := alice
  snaptradeUserId := "00000000-0000-0000-0000-000000000001"
  snaptradeUserSecretEncrypted := aliceBlob
  snaptradeAuthorizationId := some authorizationId
  institutionName := some name
  isActive := true
  createdAt := 0
  updatedAt := 5
  connectionType := "snaptrade"
  brokerSlug := some slug
  disabled := false

theorem linkQuestrade_rows :
    (run (brokerNext aliceContext) brokerInit linkQuestrade).map (·.state.connections.rows)
      = some [linkedRow "A" "questrade" "Questrade"] := by decide +kernel

/-- `agrees_iff` while Questrade is the only authorization: the requests
agree. -/
theorem agrees_iff_questrade :
    ∃ s, run (brokerNext aliceContext) brokerInit linkQuestrade = some s ∧
      Agrees aliceContext aliceReplies alice (aliceList [questrade]) s.state := by
  obtain ⟨s, hs, hrows⟩ := Option.map_eq_some_iff.mp linkQuestrade_rows
  refine ⟨s, hs, (agrees_iff aliceContext aliceReplies alice (aliceList [questrade]) hs).mpr ?_⟩
  intro row secret hrow _ a ha
  rw [activeRowFor, hrows] at hrow
  cases hrow
  obtain rfl : a = questrade := List.mem_singleton.mp ha
  rw [authorizationRowFor, hrows]
  decide

/-- The user has Questrade and Wealthsimple when the callback comes in. -/
def linkBoth : List (Action brokerage Request) :=
  (.spawn (.loginPortal alice) :: steps 9 0 [] 0) ++
    (.spawn (.callback callbackQuery) :: steps 4 1 twoAuthorizations 5)

theorem linkBoth_rows :
    (run (brokerNext aliceContext) brokerInit linkBoth).map (·.state.connections.rows)
      = some [linkedRow "B" "wealthsimple" "Wealthsimple"] := by decide +kernel

/-- The list has both authorizations, and the disconnect of Questrade is a
404. -/
theorem two_brokerages_disagree :
    ∃ s, run (brokerNext aliceContext) brokerInit linkBoth = some s ∧
      ¬ Agrees aliceContext aliceReplies alice (aliceList twoAuthorizations) s.state := by
  obtain ⟨s, hs, hrows⟩ := Option.map_eq_some_iff.mp linkBoth_rows
  refine ⟨s, hs, ?_⟩
  intro h
  have hactive : activeRowFor s.state.connections alice
      = some (linkedRow "B" "wealthsimple" "Wealthsimple") := by
    rw [activeRowFor, hrows]
    decide
  have hnone : authorizationRowFor s.state.connections alice "A" = none := by
    rw [authorizationRowFor, hrows]
    decide
  have hsecret : aliceContext.decrypt (linkedRow "B" "wealthsimple"
      "Wealthsimple").snaptradeUserSecretEncrypted = some "secret" := by decide
  have hlist := listing_calm aliceContext aliceReplies (aliceList twoAuthorizations) 6 ⟨3⟩
    (aliceReply []) hactive hsecret
  have hd : mapAuthorization questrade ∈ (aliceList twoAuthorizations
      (linkedRow "B" "wealthsimple" "Wealthsimple").snaptradeUserId).map mapAuthorization :=
    List.mem_map_of_mem (show questrade ∈ twoAuthorizations from List.mem_cons_self)
  exact missing_of_none 7 ⟨3⟩ (aliceReply []) hnone (h.accepted _ _ hlist _ hd _).1

end MizanConnect.Proofs.Snaptrade
