import MizanConnect.Snaptrade.Handlers

/-!
# `MizanConnect.Proofs.Snaptrade.Operations`: what the brokerage handlers do

`exec_change` says what an operation does to the rows of `broker_connections`,
in four cases. `May` says which operations a request performs: those of its
own user, on rows that a lookup of the user found, with the credentials of such
a row. `Brokered.handle` shows it once for all handlers, under any discipline
whose `may` covers `May`. The lifecycle of a connection and the separation of
tenants are disciplines of this kind.

For a call that runs alone, `result_requireConnection`,
`result_removeAuthorization` and `result_softDelete` say what the parts of a
disconnect return, whatever their operations are answered with.
-/

set_option autoImplicit false

namespace MizanConnect.Proofs.Snaptrade

open MizanConnect.Snaptrade
open MizanConnect.Snaptrade.Repository
open MizanConnect.Snaptrade.BrokerConnections (Row schema isSnaptrade)
open Concurrent (Action Rules Keeps Ensures Program Sys Together next ensures_perform ensures_value
  ensures_error result result_bind
  result_bind_run)
open Sql (Table)

/-- A mapped result is that of its parts. -/
theorem map_eq_ok {ε α β : Type} {x : Except ε α} {f : α → β} {b : β}
    (h : x.map f = .ok b) : ∃ a, x = .ok a ∧ f a = b := by
  cases x with
  | error e => cases h
  | ok a =>
    cases h
    exact ⟨a, rfl, rfl⟩

/-! ### The rows after an operation -/

/-- What an operation does to the rows: nothing, an insert, or an update of the
rows that its WHERE selects. -/
inductive Change (rows : List Row) : Op → List Row → Prop where
  | keep (o : Op) : Change rows o rows
  | inserted (userId : Uuid) (snaptradeUserId : String) (blob : List UInt8) (now : Timestamp)
      (newId : Uuid) (hnew : ∀ r ∈ rows, r.id ≠ newId) :
      Change rows (.insertPending userId snaptradeUserId blob)
        (rows ++ [Repository.pendingRow now newId userId snaptradeUserId blob])
  | completed (connectionId : Uuid) (authorizationId : String) (slug name : Option String)
      (now : Timestamp) :
      Change rows (.markCompleted connectionId authorizationId slug name)
        (rows.map fun r =>
          if r.id = connectionId then completedRow now authorizationId slug name r else r)
  | deleted (userId connectionId : Uuid) (now : Timestamp) :
      Change rows (.softDelete userId connectionId)
        (rows.map fun r => if ownedBy userId connectionId r then deletedRow now r else r)

theorem insertPending_change {t t' : Table schema} {userId newId id : Uuid}
    {snaptradeUserId : String} {blob : List UInt8} {now : Timestamp}
    (h : insertPending t userId snaptradeUserId blob now newId = .ok (t', id)) :
    Change t.rows (.insertPending userId snaptradeUserId blob) t'.rows := by
  obtain ⟨x, hinsert, hx⟩ := map_eq_ok h
  obtain ⟨hrows, hnew⟩ := Table.insert_rows hinsert
  obtain rfl : x = t' := congrArg Prod.fst hx
  rw [hrows]
  exact .inserted userId snaptradeUserId blob now newId hnew

/-- The rows after `mark_completed`. -/
theorem markCompletedStatement_rows {t t' : Table schema} {connectionId newId : Uuid}
    {authorizationId : String} {slug name : Option String} {now : Timestamp} {u : Unit}
    (h : markCompletedStatement connectionId authorizationId slug name t now newId
      = .ok (t', u)) :
    t'.rows = t.rows.map fun r =>
      if r.id = connectionId then completedRow now authorizationId slug name r else r := by
  obtain ⟨x, hwrite, hx⟩ := map_eq_ok h
  obtain rfl : x = t' := congrArg Prod.fst hx
  simpa using Table.write_updated_rows (f := completedRow now authorizationId slug name)
    (fun _ => rfl) hwrite

theorem markCompleted_change {t t' : Table schema} {connectionId newId : Uuid}
    {authorizationId : String} {slug name : Option String} {now : Timestamp} {u : Unit}
    (h : markCompletedStatement connectionId authorizationId slug name t now newId
      = .ok (t', u)) :
    Change t.rows (.markCompleted connectionId authorizationId slug name) t'.rows := by
  rw [markCompletedStatement_rows h]
  exact .completed connectionId authorizationId slug name now

/-- The rows after `soft_delete`. -/
theorem softDelete_rows {t t' : Table schema} {userId connectionId : Uuid} {now : Timestamp}
    {n : Nat} (h : softDelete t userId connectionId now = .ok (t', n)) :
    t'.rows = t.rows.map fun r =>
      if ownedBy userId connectionId r then deletedRow now r else r := by
  obtain ⟨x, hwrite, hx⟩ := map_eq_ok h
  obtain rfl : x = t' := congrArg Prod.fst hx
  exact Table.write_updated_rows (f := deletedRow now) (fun _ => rfl) hwrite

theorem softDelete_change {t t' : Table schema} {userId connectionId : Uuid} {now : Timestamp}
    {n : Nat} (h : softDelete t userId connectionId now = .ok (t', n)) :
    Change t.rows (.softDelete userId connectionId) t'.rows := by
  rw [softDelete_rows h]
  exact .deleted userId connectionId now

/-- A write either leaves the rows or runs its statement. -/
theorem write_change {α : Type} {db : BrokerDb} {o : Op}
    {statement : Table schema → Timestamp → Uuid → Except Sql.Violation (Table schema × α)}
    (hstatement : ∀ now newId t' a, statement db.connections now newId = .ok (t', a) →
      Change db.connections.rows o t'.rows) (attempt : Attempt) :
    Change db.connections.rows o (db.write attempt statement).2.connections.rows := by
  rcases Attempt.write_cases attempt db.connections (statement db.connections) with
    ⟨hsame, -⟩ | ⟨now, newId, acknowledged, a, -, hrun, -⟩
  · show Change _ _ (attempt.write db.connections (statement db.connections)).2.rows
    rw [hsame]
    exact .keep o
  · exact hstatement now newId _ a hrun

/-- Every operation changes the rows in one of the four ways. -/
theorem exec_change (db : BrokerDb) (o : Op) (i : brokerage.In o) :
    Change db.connections.rows o (brokerage.exec db o i).2.connections.rows := by
  cases o with
  | insertPending userId snaptradeUserId blob =>
    exact write_change (fun _ _ _ _ h => insertPending_change h) i
  | markCompleted connectionId authorizationId slug name =>
    exact write_change (fun _ _ _ _ h => markCompleted_change h) i
  | softDelete userId connectionId =>
    exact write_change (fun _ _ _ _ h => softDelete_change h) i
  | recordEvent event =>
    cases i with
    | lost => exact .keep _
    | run now newId acknowledged => exact .keep _
  | checkLimit userId => exact .keep _
  | fetchActiveForUser userId => exact .keep _
  | fetchAnyForUser userId => exact .keep _
  | fetchByAuthorizationIdForUser userId authorizationId => exact .keep _
  | call c => exact .keep _
  | now => exact .keep _
  | newUuid => exact .keep _

/-! ### What stays of a row -/

/-- `y` is a later version of `x`: the same row of the same user, with the same
credentials, and still linked if `x` was. -/
structure Version (x y : Row) : Prop where
  id : y.id = x.id
  userId : y.userId = x.userId
  snaptradeUserId : y.snaptradeUserId = x.snaptradeUserId
  blob : y.snaptradeUserSecretEncrypted = x.snaptradeUserSecretEncrypted
  kind : y.connectionType = x.connectionType
  linked : x.snaptradeAuthorizationId.isSome = true → y.snaptradeAuthorizationId.isSome = true

theorem Version.refl (x : Row) : Version x x := ⟨rfl, rfl, rfl, rfl, rfl, fun h => h⟩

theorem Version.trans {x y z : Row} (h : Version x y) (h' : Version y z) : Version x z where
  id := h'.id.trans h.id
  userId := h'.userId.trans h.userId
  snaptradeUserId := h'.snaptradeUserId.trans h.snaptradeUserId
  blob := h'.blob.trans h.blob
  kind := h'.kind.trans h.kind
  linked hx := h'.linked (h.linked hx)

theorem version_completedRow (now : Timestamp) (authId : String) (slug name : Option String)
    (x : Row) : Version x (completedRow now authId slug name x) :=
  ⟨rfl, rfl, rfl, rfl, rfl, fun _ => rfl⟩

theorem version_deletedRow (now : Timestamp) (x : Row) : Version x (deletedRow now x) :=
  ⟨rfl, rfl, rfl, rfl, rfl, fun h => h⟩

/-- Every row has a later version. -/
def Persist (db db' : BrokerDb) : Prop :=
  ∀ x ∈ db.connections.rows, ∃ y ∈ db'.connections.rows, Version x y

theorem Persist.refl (db : BrokerDb) : Persist db db := fun x hx => ⟨x, hx, .refl x⟩

theorem Persist.trans {a b c : BrokerDb} (h : Persist a b) (h' : Persist b c) :
    Persist a c := by
  intro x hx
  obtain ⟨y, hy, hxy⟩ := h x hx
  obtain ⟨z, hz, hyz⟩ := h' y hy
  exact ⟨z, hz, hxy.trans hyz⟩

/-- No change loses a row. -/
theorem Change.version {rows rows' : List Row} {o : Op} (h : Change rows o rows') :
    ∀ x ∈ rows, ∃ y ∈ rows', Version x y := by
  intro x hx
  cases h with
  | keep => exact ⟨x, hx, .refl x⟩
  | inserted userId snaptradeUserId blob now newId hnew =>
    exact ⟨x, List.mem_append_left _ hx, .refl x⟩
  | completed connectionId authorizationId slug name now =>
    refine ⟨_, List.mem_map_of_mem hx, ?_⟩
    split
    · exact version_completedRow now authorizationId slug name x
    · exact .refl x
  | deleted userId connectionId now =>
    refine ⟨_, List.mem_map_of_mem hx, ?_⟩
    split
    · exact version_deletedRow now x
    · exact .refl x

theorem persist_exec (db : BrokerDb) (o : Op) (i : brokerage.In o) :
    Persist db (brokerage.exec db o i).2 :=
  (exec_change db o i).version

/-! ### What a request may do -/

/-- The user that a request acts for: the authenticated one, or the subject of
a state token that verifies. -/
def requester (ctx : BrokerContext) : Request → Option Uuid
  | .loginPortal userId => some userId
  | .callback q => (q.state.bind ctx.decodeState).map (·.sub)
  | .listConnections userId => some userId
  | .listAccounts userId => some userId
  | .accountHoldings userId _ => some userId
  | .accountActivities userId _ _ => some userId
  | .refreshConnection userId _ => some userId
  | .deleteConnection userId _ => some userId

/-- The pair is that of a row of the user: its secret is what the blob opens
to, or what it was sealed from. -/
def HasCredentials (ctx : BrokerContext) (userId : Uuid) (db : BrokerDb)
    (snaptradeUserId secret : String) : Prop :=
  ∃ x ∈ db.connections.rows, x.userId = userId ∧ x.snaptradeUserId = snaptradeUserId ∧
    (ctx.decrypt x.snaptradeUserSecretEncrypted = some secret ∨
      ctx.encrypt secret = some x.snaptradeUserSecretEncrypted)

/-- The pair stays one of the user. -/
theorem HasCredentials.later {ctx : BrokerContext} {userId : Uuid} {db db' : BrokerDb}
    {snaptradeUserId secret : String} (h : HasCredentials ctx userId db snaptradeUserId secret)
    (hpersist : Persist db db') : HasCredentials ctx userId db' snaptradeUserId secret := by
  obtain ⟨x, hx, huser, hname, hsecret⟩ := h
  obtain ⟨y, hy, hxy⟩ := hpersist x hx
  refine ⟨y, hy, hxy.userId.trans huser, hxy.snaptradeUserId.trans hname, ?_⟩
  -- The later version has the same blob, so it opens to the same secret.
  rw [hxy.blob]
  exact hsecret

/-- What a request may do. `Reg` says which SnapTrade user ids a registration
returns. -/
def May (ctx : BrokerContext) (Reg : Uuid → String → Prop) (r : Request) (db : BrokerDb) :
    Op → Prop
  | .checkLimit userId => requester ctx r = some userId
  | .fetchActiveForUser userId => requester ctx r = some userId
  | .fetchAnyForUser userId => requester ctx r = some userId
  | .fetchByAuthorizationIdForUser userId _ => requester ctx r = some userId
  | .insertPending userId snaptradeUserId _ =>
    requester ctx r = some userId ∧ Reg userId snaptradeUserId
  | .markCompleted connectionId _ _ _ =>
    ∃ x ∈ db.connections.rows, x.id = connectionId ∧ requester ctx r = some x.userId ∧
      isSnaptrade x = true
  | .softDelete userId connectionId =>
    (∃ authorizationId, r = .deleteConnection userId authorizationId) ∧
      ∃ x ∈ db.connections.rows, x.id = connectionId ∧ x.userId = userId ∧
        x.snaptradeAuthorizationId.isSome = true
  | .call c => ∃ userId, requester ctx r = some userId ∧
    ((c = .registerUser userId.toString) ∨
      ∃ snaptradeUserId secret, c.credentials = some (snaptradeUserId, secret) ∧
        HasCredentials ctx userId db snaptradeUserId secret)
  | .recordEvent _ => True
  | .now => True
  | .newUuid => True

/-- A discipline under which the requests may do what they do. -/
structure Brokered (ctx : BrokerContext) (Reg : Uuid → String → Prop)
    (R : Rules brokerage Request) : Prop where
  rely : ∀ db db', R.rely db db' → Persist db db'
  may : ∀ r db o, May ctx Reg r db o → R.may r db o
  reg : ∀ r db userId resp, requester ctx r = some userId →
    R.legal r db (.call (.registerUser userId.toString)) (.ok resp) → Reg userId resp.userId

/-- A lookup of the user has found the row, and it is still there. -/
def Found (db : BrokerDb) (userId : Uuid) (row : StoredConnection) : Prop :=
  ∃ x ∈ db.connections.rows, x.id = row.id ∧ x.userId = userId ∧
    x.snaptradeUserId = row.snaptradeUserId ∧
    x.snaptradeUserSecretEncrypted = row.snaptradeUserSecretEncrypted ∧
    isSnaptrade x = true ∧
    (row.snaptradeAuthorizationId.isSome = true → x.snaptradeAuthorizationId.isSome = true)

theorem Found.later {db db' : BrokerDb} {userId : Uuid} {row : StoredConnection}
    (h : Found db userId row) (hpersist : Persist db db') : Found db' userId row := by
  obtain ⟨x, hx, hid, huser, hname, hblob, hkind, hlinked⟩ := h
  obtain ⟨y, hy, hxy⟩ := hpersist x hx
  refine ⟨y, hy, hxy.id.trans hid, hxy.userId.trans huser, hxy.snaptradeUserId.trans hname,
    hxy.blob.trans hblob, ?_, fun h => hxy.linked (hlinked h)⟩
  rw [isSnaptrade, hxy.kind]
  exact hkind

/-- A row of the user is found. -/
theorem found_of_mem {db : BrokerDb} {userId : Uuid} {x : Row} (hx : x ∈ db.connections.rows)
    (hfor : snaptradeFor userId x = true) : Found db userId (StoredConnection.ofRow x) := by
  obtain ⟨huser, hkind⟩ : x.userId = userId ∧ isSnaptrade x = true := by
    simpa [snaptradeFor] using hfor
  exact ⟨x, hx, rfl, huser, rfl, rfl, hkind, fun h => h⟩

section
variable {ctx : BrokerContext} {Reg : Uuid → String → Prop} {R : Rules brokerage Request}
  {r : Request} {db : BrokerDb} {userId : Uuid} {α β : Type}

/-- One part of a handler and then another. -/
theorem Brokered.bind (hB : Brokered ctx Reg R) {p : Handler α} {f : α → Handler β}
    {P : α → BrokerDb → Prop} {Q : β → BrokerDb → Prop} (h : Ensures R r p db P)
    (hf : ∀ a db', Persist db db' → P a db' → Ensures R r (f a) db' Q) :
    Ensures R r (p >>= f) db Q :=
  Ensures.andThen hB.rely persist_exec Persist.refl (fun _ _ _ => Persist.trans) h hf

/-- A program that has ended with a value. -/
theorem ensures_ok {a : α} {Q : α → BrokerDb → Prop} (h : ∀ db', Q a db') :
    Ensures R r (Program.done (.ok a) : Handler α) db Q :=
  ensures_value fun db' _ _ => h db'

/-- What the lookups answer is found. -/
theorem Brokered.fetchAny (hB : Brokered ctx Reg R) (hu : requester ctx r = some userId) :
    Ensures R r (Handler.fetchAnyForUser userId) db fun out db' =>
      ∀ row, out = some row → Found db' userId row := by
  refine ensures_perform fun db' _ _ => ⟨hB.may r db' _ hu, ?_⟩
  intro i _ db'' hrely _ out hout row hrow
  have hanswer : out = fetchAnyForUser db'.connections userId := Attempt.query_eq_ok hout
  obtain ⟨x, hx, rfl⟩ := Option.map_eq_some_iff.mp (hanswer.symm.trans hrow)
  -- The best of the user's rows is one of them.
  obtain ⟨hmem, hfor⟩ := List.mem_filter.mp (Best.best_mem hx)
  exact (found_of_mem hmem hfor).later (hB.rely _ _ hrely)

theorem Brokered.fetchActive (hB : Brokered ctx Reg R) (hu : requester ctx r = some userId) :
    Ensures R r (Handler.fetchActiveForUser userId) db fun out db' =>
      ∀ row, out = some row → Found db' userId row := by
  refine ensures_perform fun db' _ _ => ⟨hB.may r db' _ hu, ?_⟩
  intro i _ db'' hrely _ out hout row hrow
  have hanswer : out = fetchActiveForUser db'.connections userId := Attempt.query_eq_ok hout
  obtain ⟨x, hx, rfl⟩ := Option.map_eq_some_iff.mp (hanswer.symm.trans hrow)
  have hfor := List.find?_some hx
  rw [Bool.and_eq_true] at hfor
  exact (found_of_mem (List.mem_of_find?_eq_some hx) hfor.1).later (hB.rely _ _ hrely)

theorem Brokered.fetchByAuthorizationId (hB : Brokered ctx Reg R)
    (hu : requester ctx r = some userId) (authorizationId : String) :
    Ensures R r (Handler.fetchByAuthorizationIdForUser userId authorizationId) db
      fun out db' => ∀ row, out = some row →
        Found db' userId row ∧ row.snaptradeAuthorizationId = some authorizationId := by
  refine ensures_perform fun db' _ _ => ⟨hB.may r db' _ hu, ?_⟩
  intro i _ db'' hrely _ out hout row hrow
  have hanswer : out = fetchByAuthorizationIdForUser db'.connections userId authorizationId :=
    Attempt.query_eq_ok hout
  obtain ⟨x, hx, rfl⟩ := Option.map_eq_some_iff.mp (hanswer.symm.trans hrow)
  have hfor := List.find?_some hx
  simp only [authorizedFor, Bool.and_eq_true, decide_eq_true_eq] at hfor
  exact ⟨(found_of_mem (List.mem_of_find?_eq_some hx) hfor.2).later (hB.rely _ _ hrely), hfor.1⟩

/-- The operations that leave nothing to know. -/
theorem Brokered.recordEvent (hB : Brokered ctx Reg R) (event : AuditEvent) :
    Ensures R r (Handler.recordEvent event) db fun _ _ => True :=
  ensures_perform fun db' _ _ => ⟨hB.may r db' _ trivial, fun _ _ => ensures_ok fun _ => trivial⟩

theorem Brokered.now (hB : Brokered ctx Reg R) :
    Ensures R r Handler.now db fun _ _ => True :=
  ensures_perform fun db' _ _ => ⟨hB.may r db' _ trivial, fun _ _ => ensures_ok fun _ => trivial⟩

theorem Brokered.newUuid (hB : Brokered ctx Reg R) :
    Ensures R r Handler.newUuid db fun _ _ => True :=
  ensures_perform fun db' _ _ => ⟨hB.may r db' _ trivial, fun _ _ => ensures_ok fun _ => trivial⟩

/-- A result that is there already. -/
theorem Brokered.ofExcept (hB : Brokered ctx Reg R) {x : Except AppError α}
    {Q : α → BrokerDb → Prop} (h : ∀ a db', Persist db db' → x = .ok a → Q a db') :
    Ensures R r (Handler.ofExcept x) db Q := by
  intro db' hrely _ a ha
  exact h a db' (hB.rely _ _ hrely) ha

theorem Brokered.ofOption (hB : Brokered ctx Reg R) {x : Option α} {e : AppError}
    {Q : α → BrokerDb → Prop} (h : ∀ a db', Persist db db' → x = some a → Q a db') :
    Ensures R r (Handler.ofOption x e) db Q := by
  cases x with
  | none => exact ensures_error
  | some a => exact ensures_value fun db' hrely _ => h a db' (hB.rely _ _ hrely) rfl

/-- A call that the request may make. -/
theorem Brokered.callOr (hB : Brokered ctx Reg R) {c : Call} {onError : Handler Unit}
    {Q : c.Reply → Prop}
    (hmay : ∀ db', Persist db db' → May ctx Reg r db' (.call c))
    (herror : ∀ db', Ensures R r onError db' fun _ _ => True)
    (hreply : ∀ db' reply, R.legal r db' (.call c) (.ok reply) → Q reply) :
    Ensures R r (Handler.callOr c onError) db fun reply _ => Q reply := by
  refine ensures_perform ?_
  intro db' hrely _
  refine ⟨hB.may r db' _ (hmay db' (hB.rely _ _ hrely)), ?_⟩
  intro i hlegal
  show Ensures R r ((fun
    | .ok reply => .done (.ok reply)
    | .error e => onError.run >>= fun _ => Program.done (.error e.toAppError)
    : Except SnaptradeError c.Reply → Program Op Op.Answer (Except AppError c.Reply)) i) db' _
  -- The reply is passed on, and an error ends the handler after `onError`.
  cases i with
  | ok reply => exact ensures_ok fun _ => hreply db' reply hlegal
  | error e => exact Keeps.bind (Keeps.imp (herror db') fun _ _ _ => ensures_error)

theorem Brokered.call (hB : Brokered ctx Reg R) {c : Call} {Q : c.Reply → Prop}
    (hmay : ∀ db', Persist db db' → May ctx Reg r db' (.call c))
    (hreply : ∀ db' reply, R.legal r db' (.call c) (.ok reply) → Q reply) :
    Ensures R r (Handler.call c) db fun reply _ => Q reply :=
  hB.callOr hmay (fun _ => ensures_ok fun _ => trivial) hreply

/-! ### The handlers -/

/-- Nothing is asked of the value. -/
abbrev Runs (R : Rules brokerage Request) (r : Request) (p : Handler α) (db : BrokerDb) : Prop :=
  Ensures R r p db fun _ _ => True

/-- The secret is what the blob opens to. -/
theorem decryptSecret_ok {c : SnaptradeContext} {blob : List UInt8} {secret : String}
    (h : decryptSecret c blob = .ok secret) : c.decrypt blob = some secret := by
  unfold decryptSecret at h
  cases hopen : c.decrypt blob with
  | none => simp [hopen] at h
  | some opened => simpa [hopen] using h

/-- A state token that verifies decodes to its claims. -/
theorem verifyState_ok {c : SnaptradeContext} {token : String} {claims : StateClaims}
    (h : verifyState c token = .ok claims) : c.decodeState token = some claims := by
  unfold verifyState at h
  cases hdecode : c.decodeState token with
  | none => simp [hdecode] at h
  | some decoded => simpa [hdecode] using h

/-- The pair of a row that was found. -/
theorem Found.credentials {row : StoredConnection} {secret : String}
    (h : Found db userId row)
    (hsecret : decryptSecret ctx.toSnaptradeContext row.snaptradeUserSecretEncrypted = .ok secret) :
    HasCredentials ctx userId db row.snaptradeUserId secret := by
  obtain ⟨x, hx, -, huser, hname, hblob, -, -⟩ := h
  refine ⟨x, hx, huser, hname, Or.inl ?_⟩
  rw [hblob]
  exact decryptSecret_ok hsecret

/-- A call with the credentials of a row that was found. -/
theorem may_call {row : StoredConnection} {secret : String} {c : Call}
    (hu : requester ctx r = some userId) (hfound : Found db userId row)
    (hsecret : decryptSecret ctx.toSnaptradeContext row.snaptradeUserSecretEncrypted = .ok secret)
    (hc : c.credentials = some (row.snaptradeUserId, secret)) : May ctx Reg r db (.call c) :=
  ⟨userId, hu, Or.inr ⟨_, _, hc, hfound.credentials hsecret⟩⟩

/-- What follows the secret of a row that was found. -/
theorem Brokered.withSecret (hB : Brokered ctx Reg R) {row : StoredConnection}
    {f : String → Handler α} {Q : α → BrokerDb → Prop} (hfound : Found db userId row)
    (hf : ∀ secret db', decryptSecret ctx.toSnaptradeContext row.snaptradeUserSecretEncrypted
      = .ok secret → Found db' userId row → Ensures R r (f secret) db' Q) :
    Ensures R r (withSecret ctx row f) db Q := by
  refine hB.bind (hB.ofExcept (Q := fun secret _ =>
    decryptSecret ctx.toSnaptradeContext row.snaptradeUserSecretEncrypted = .ok secret)
    fun secret db' _ h => h) ?_
  intro secret db' hpersist hsecret
  exact hf secret db' hsecret (hfound.later hpersist)

/-- A call with the secret of a row that was found. -/
theorem Brokered.callFound (hB : Brokered ctx Reg R) {row : StoredConnection} {secret : String}
    {c : Call} (hu : requester ctx r = some userId) (hfound : Found db userId row)
    (hsecret : decryptSecret ctx.toSnaptradeContext row.snaptradeUserSecretEncrypted = .ok secret)
    (hc : c.credentials = some (row.snaptradeUserId, secret)) :
    Runs R r (Handler.call c) db :=
  hB.call (Q := fun _ => True)
    (fun _ hpersist => may_call hu (hfound.later hpersist) hsecret hc) fun _ _ _ => trivial

theorem Brokered.listConnections (hB : Brokered ctx Reg R) (hu : requester ctx r = some userId) :
    Runs R r (listConnections ctx userId) db := by
  refine hB.bind (hB.fetchActive hu) ?_
  intro out db₁ _ hout
  cases out with
  | none => exact ensures_ok fun _ => trivial
  | some row =>
    refine hB.withSecret (hout row rfl) ?_
    intro secret db₂ hsecret hfound
    exact hB.bind (hB.callFound hu hfound hsecret rfl) fun _ _ _ _ => ensures_ok fun _ => trivial

theorem Brokered.listAccounts (hB : Brokered ctx Reg R) (hu : requester ctx r = some userId) :
    Runs R r (listAccounts ctx userId) db := by
  refine hB.bind (hB.fetchActive hu) ?_
  intro out db₁ _ hout
  cases out with
  | none => exact ensures_ok fun _ => trivial
  | some row =>
    refine hB.withSecret (hout row rfl) ?_
    intro secret db₂ hsecret hfound
    exact hB.bind (hB.callFound hu hfound hsecret rfl) fun _ _ _ _ => ensures_ok fun _ => trivial

/-- The row of an active connection is found. -/
theorem Brokered.requireActive (hB : Brokered ctx Reg R) (hu : requester ctx r = some userId) :
    Ensures R r (requireActive userId) db fun row db' => Found db' userId row := by
  refine hB.bind (hB.fetchActive hu) ?_
  intro out db₁ _ hout
  exact hB.ofOption fun row db₂ hpersist hrow => (hout row hrow).later hpersist

theorem Brokered.accountHoldings (hB : Brokered ctx Reg R) (hu : requester ctx r = some userId)
    (accountId : String) : Runs R r (accountHoldings ctx userId accountId) db := by
  refine hB.bind (hB.requireActive hu) ?_
  intro row db₁ _ hfound
  exact hB.withSecret hfound fun secret db₂ hsecret hfound =>
    hB.callFound hu hfound hsecret rfl

theorem Brokered.accountActivities (hB : Brokered ctx Reg R) (hu : requester ctx r = some userId)
    (accountId : String) (q : ActivitiesQuery) :
    Runs R r (accountActivities ctx userId accountId q) db := by
  refine hB.bind (hB.requireActive hu) ?_
  intro row db₁ _ hfound
  exact hB.withSecret hfound fun secret db₂ hsecret hfound =>
    hB.callFound hu hfound hsecret rfl

/-- The row of an authorization id of the user is found. -/
theorem Brokered.requireConnection (hB : Brokered ctx Reg R)
    (hu : requester ctx r = some userId) (authorizationId : String) :
    Ensures R r (requireConnection userId authorizationId) db fun row db' =>
      Found db' userId row ∧ row.snaptradeAuthorizationId = some authorizationId := by
  refine hB.bind (hB.fetchByAuthorizationId hu authorizationId) ?_
  intro out db₁ _ hout
  exact hB.ofOption fun row db₂ hpersist hrow =>
    ⟨(hout row hrow).1.later hpersist, (hout row hrow).2⟩

theorem Brokered.refreshConnection (hB : Brokered ctx Reg R)
    (hu : requester ctx r = some userId) (authorizationId : String) :
    Runs R r (refreshConnection ctx userId authorizationId) db := by
  refine hB.bind (hB.requireConnection hu authorizationId) ?_
  intro row db₁ _ hfound
  refine hB.bind (hB.ofOption (Q := fun _ db' => Found db' userId row) ?_) ?_
  · intro authId db₂ hpersist _
    exact hfound.1.later hpersist
  · intro authId db₂ _ hfound
    refine hB.withSecret hfound ?_
    intro secret db₃ hsecret hfound
    exact hB.bind (hB.callFound hu hfound hsecret rfl) fun _ _ _ _ => hB.recordEvent _

/-- The upstream half of a disconnect. -/
theorem Brokered.removeUpstream (hB : Brokered ctx Reg R) {row : StoredConnection}
    (hu : requester ctx r = some userId) (hfound : Found db userId row) :
    Runs R r (removeUpstream ctx row) db := by
  unfold Snaptrade.removeUpstream
  -- Nothing is called for a disabled row or one without an authorization. A 404
  -- counts as removed.
  by_cases hdisabled : row.disabled = true
  · rw [if_pos hdisabled]
    exact ensures_ok fun _ => trivial
  · rw [if_neg hdisabled]
    cases hauth : row.snaptradeAuthorizationId with
    | none => exact ensures_ok fun _ => trivial
    | some authId =>
      refine hB.withSecret hfound ?_
      intro secret db₁ hsecret hfound
      refine ensures_perform ?_
      intro db₂ hrely _
      have hmay : May ctx Reg r db₂
          (.call (.removeAuthorization row.snaptradeUserId secret authId)) :=
        may_call hu (hfound.later (hB.rely _ _ hrely)) hsecret rfl
      refine ⟨hB.may r db₂ _ hmay, ?_⟩
      intro i _
      cases i with
      | ok reply => exact ensures_ok fun _ => trivial
      | error e =>
        show Ensures R r (if e = .status 404 then Program.done (.ok ())
          else Program.done (.error e.toAppError) : Handler Unit) db₂ _
        split
        · exact ensures_ok fun _ => trivial
        · exact ensures_error

theorem Brokered.deleteConnection (hB : Brokered ctx Reg R) (authorizationId : String)
    (hr : r = .deleteConnection userId authorizationId) :
    Runs R r (deleteConnection ctx userId authorizationId) db := by
  have hu : requester ctx r = some userId := by
    rw [hr]
    rfl
  refine hB.bind (hB.requireConnection hu authorizationId) ?_
  intro row db₁ _ hrow
  refine hB.bind (hB.removeUpstream hu hrow.1) ?_
  intro _ db₂ hpersist _
  refine hB.bind (P := fun _ _ => True) ?_ fun _ _ _ _ => hB.recordEvent _
  -- The row that the lookup found is still there, and still has an id.
  refine ensures_perform ?_
  intro db₃ hrely _
  obtain ⟨x, hx, hid, huser, -, -, -, hlinked⟩ :=
    hrow.1.later (hpersist.trans (hB.rely _ _ hrely))
  have hmay : May ctx Reg r db₃ (.softDelete userId row.id) :=
    ⟨⟨authorizationId, hr⟩, x, hx, hid, huser, hlinked (by rw [hrow.2]; rfl)⟩
  refine ⟨hB.may r db₃ _ hmay, ?_⟩
  intro i _ db₄ _ _ n _
  trivial

theorem Brokered.issueState (hB : Brokered ctx Reg R) :
    Runs R r (issueState ctx userId) db := by
  refine hB.bind hB.now ?_
  intro time db₁ _ _
  refine hB.bind hB.newUuid ?_
  intro nonce db₂ _ _
  exact hB.ofOption fun _ _ _ _ => trivial

/-- An acknowledged insert leaves the pending row. -/
theorem Brokered.insertPending (hB : Brokered ctx Reg R) {snaptradeUserId secret : String}
    {blob : List UInt8} (hu : requester ctx r = some userId) (hreg : Reg userId snaptradeUserId)
    (hblob : ctx.encrypt secret = some blob) :
    Ensures R r (Handler.insertPending userId snaptradeUserId blob) db fun _ db' =>
      HasCredentials ctx userId db' snaptradeUserId secret := by
  refine ensures_perform ?_
  intro db₁ _ _
  refine ⟨hB.may r db₁ _ ⟨hu, hreg⟩, ?_⟩
  intro i _ db₂ hrely _ id hid
  refine HasCredentials.later ?_ (hB.rely _ _ hrely)
  rcases Attempt.write_cases i db₁.connections
      (Repository.insertPending db₁.connections userId snaptradeUserId blob) with
    ⟨-, e, herror⟩ | ⟨now, newId, acknowledged, answer, -, hrun, -⟩
  · exact nomatch herror.symm.trans hid
  · obtain ⟨t', hinsert, hpair⟩ := map_eq_ok hrun
    obtain ⟨hrows, -⟩ := Table.insert_rows hinsert
    have hstate : t' = (brokerage.exec db₁ (.insertPending userId snaptradeUserId blob)
        i).2.connections := congrArg Prod.fst hpair
    refine ⟨Repository.pendingRow now newId userId snaptradeUserId blob, ?_, rfl, rfl, Or.inr hblob⟩
    rw [← hstate, hrows]
    exact List.mem_append_right _ List.mem_cons_self

/-- A pair that was registered is that of the pending row. -/
theorem Brokered.registerUser (hB : Brokered ctx Reg R) (hu : requester ctx r = some userId) :
    Ensures R r (registerUser ctx userId) db fun pair db' =>
      HasCredentials ctx userId db' pair.1 pair.2 := by
  refine hB.bind (hB.call (c := .registerUser userId.toString)
    (Q := fun reply : StRegisterUserResponse => Reg userId reply.userId)
    (fun _ _ => ⟨userId, hu, Or.inl rfl⟩) fun db' reply hlegal =>
      hB.reg r db' userId reply hu hlegal) ?_
  intro resp db₁ _ hreg
  refine hB.bind (hB.recordEvent _) ?_
  intro _ db₂ _ _
  refine hB.bind (hB.ofOption (Q := fun blob _ => ctx.encrypt resp.userSecret = some blob)
    fun _ _ _ h => h) ?_
  intro blob db₃ _ hblob
  refine hB.bind (hB.insertPending hu hreg hblob) ?_
  intro _ db₄ _ hpair
  exact ensures_value fun db₅ hrely _ => HasCredentials.later hpair (hB.rely _ _ hrely)

/-- The pair of a login is that of a row of the user. -/
theorem Brokered.snaptradeUser (hB : Brokered ctx Reg R) (hu : requester ctx r = some userId)
    (stored : Option StoredConnection)
    (hstored : ∀ row, stored = some row → Found db userId row) :
    Ensures R r (snaptradeUser ctx userId stored) db fun pair db' =>
      HasCredentials ctx userId db' pair.1 pair.2 := by
  cases stored with
  | none => exact hB.registerUser hu
  | some row =>
    refine hB.withSecret (hstored row rfl) ?_
    intro secret db₁ hsecret hfound
    exact ensures_value fun db₂ hrely _ =>
      (hfound.later (hB.rely _ _ hrely)).credentials hsecret

theorem Brokered.requireLoginSlot (hB : Brokered ctx Reg R) (hu : requester ctx r = some userId) :
    Runs R r (requireLoginSlot userId) db := by
  refine ensures_perform ?_
  intro db' _ _
  refine ⟨hB.may r db' _ hu, ?_⟩
  intro i _
  cases i with
  | ok _ => exact ensures_ok fun _ => trivial
  | error seconds => exact ensures_error

theorem Brokered.loginPortal (hB : Brokered ctx Reg R) (hu : requester ctx r = some userId) :
    Runs R r (loginPortal ctx userId) db := by
  refine hB.bind (hB.requireLoginSlot hu) ?_
  intro _ db₁ _ _
  refine hB.bind (hB.fetchAny hu) ?_
  intro stored db₂ _ hstored
  refine hB.bind (hB.snaptradeUser hu stored hstored) ?_
  intro user db₃ hpersist₃ hpair
  refine hB.bind hB.issueState ?_
  intro stateJwt db₄ hpersist₄ _
  refine hB.bind (hB.ofOption (Q := fun _ db' => HasCredentials ctx userId db' user.1 user.2)
    fun redirect db₅ hpersist₅ _ => hpair.later (hpersist₄.trans hpersist₅)) ?_
  intro redirect db₅ _ hpair
  refine hB.bind (hB.call (c := .loginUser user.1 user.2 redirect) (Q := fun _ => True)
    (fun _ hpersist => ⟨userId, hu, Or.inr ⟨_, _, rfl, hpair.later hpersist⟩⟩)
    fun _ _ _ => trivial) ?_
  intro login db₆ _ _
  exact hB.bind hB.now fun _ _ _ _ => ensures_ok fun _ => trivial

/-- A failure of the callback records its event and ends. -/
theorem Brokered.failWith (hB : Brokered ctx Reg R) {user : Option Uuid} {errorCode : String}
    {e : AppError} {Q : α → BrokerDb → Prop} :
    Ensures R r (failWith user errorCode e) db Q :=
  hB.bind (hB.recordEvent _) fun _ _ _ _ => ensures_error

/-- The claims of a callback are those of its state token. -/
theorem Brokered.requireState (hB : Brokered ctx Reg R) (q : CallbackQuery)
    (hr : r = .callback q) :
    Ensures R r (requireState ctx q) db fun claims _ => requester ctx r = some claims.sub := by
  unfold Snaptrade.requireState
  cases htoken : q.state with
  | none => exact hB.failWith
  | some token =>
    dsimp only
    cases hverify : verifyState ctx.toSnaptradeContext token with
    | error e => exact hB.failWith
    | ok claims =>
      refine ensures_ok fun _ => ?_
      have hdecode : ctx.decodeState token = some claims := verifyState_ok hverify
      rw [hr]
      simp [requester, htoken, hdecode]

/-- The row of a callback is found. -/
theorem Brokered.requireRow (hB : Brokered ctx Reg R) (q : CallbackQuery)
    (found : Option StoredConnection) (hfound : ∀ row, found = some row → Found db userId row) :
    Ensures R r (requireRow q userId found) db fun row db' => Found db' userId row := by
  cases found with
  | none => exact hB.failWith
  | some row =>
    show Ensures R r (if q.userId.any fun returned => returned ≠ row.snaptradeUserId then
      Snaptrade.failWith (some userId) "user_id_mismatch" _
      else Handler.ofExcept (.ok row)) db _
    split
    · exact hB.failWith
    · exact ensures_value fun db' hrely _ => (hfound row rfl).later (hB.rely _ _ hrely)

/-- The end of a callback writes to the row that was found. -/
theorem Brokered.finishCallback (hB : Brokered ctx Reg R) {row : StoredConnection}
    (hu : requester ctx r = some userId) (hfound : Found db userId row)
    (picked : Option StAuthorization) :
    Runs R r (finishCallback userId row picked) db := by
  cases picked with
  | none =>
    unfold Snaptrade.finishCallback
    by_cases hlinked : row.snaptradeAuthorizationId.isSome = true
    · simp only [hlinked, if_true]
      exact ensures_ok fun _ => trivial
    · simp only [hlinked]
      exact hB.bind (hB.recordEvent _) fun _ _ _ _ => ensures_ok fun _ => trivial
  | some auth =>
    refine hB.bind (P := fun _ _ => True) ?_ fun _ _ _ _ =>
      hB.bind (hB.recordEvent _) fun _ _ _ _ => ensures_ok fun _ => trivial
    refine ensures_perform ?_
    intro db₁ hrely _
    obtain ⟨x, hx, hid, huser, -, -, hkind, -⟩ := hfound.later (hB.rely _ _ hrely)
    have hmay : May ctx Reg r db₁ (.markCompleted row.id auth.id (auth.brokerage.map (·.slug))
        (auth.brokerage.map fun b => b.displayName.getD b.name)) :=
      ⟨x, hx, hid, huser ▸ hu, hkind⟩
    refine ⟨hB.may r db₁ _ hmay, ?_⟩
    intro i _ db₂ _ _ _ _
    trivial

theorem Brokered.callback (hB : Brokered ctx Reg R) (q : CallbackQuery)
    (hr : r = .callback q) : Runs R r (callback ctx q) db := by
  refine hB.bind (hB.requireState q hr) ?_
  intro claims db₁ _ hu
  refine hB.bind (hB.fetchAny hu) ?_
  intro found db₂ _ hfound
  refine hB.bind (hB.requireRow q found hfound) ?_
  intro row db₃ _ hfound
  refine hB.withSecret hfound ?_
  intro secret db₄ hsecret hfound
  refine hB.bind (P := fun _ db' => Found db' claims.sub row) ?_ ?_
  · refine Keeps.imp (Keeps.track hB.rely persist_exec (fun _ _ _ => Persist.trans)
      (Persist.refl db₄) (hB.callOr (c := .listAuthorizations row.snaptradeUserId secret)
        (Q := fun _ => True)
        (fun _ hpersist => may_call hu (hfound.later hpersist) hsecret rfl)
        (fun _ => hB.recordEvent _) fun _ _ _ => trivial)) ?_
    intro x db' hx a _
    exact hfound.later hx.1
  · intro authorizations db₅ _ hfound
    exact hB.finishCallback hu hfound _

/-- Every handler does what its request may do, whatever the others do. -/
theorem Brokered.handle (hB : Brokered ctx Reg R) (r : Request) (db : BrokerDb) :
    Runs R r (handle ctx r) db := by
  cases r with
  | loginPortal userId => exact (hB.loginPortal rfl).map
  | callback q => exact (hB.callback q rfl).map
  | listConnections userId => exact (hB.listConnections rfl).map
  | listAccounts userId => exact (hB.listAccounts rfl).map
  | accountHoldings userId accountId => exact (hB.accountHoldings rfl accountId).map
  | accountActivities userId accountId q => exact (hB.accountActivities rfl accountId q).map
  | refreshConnection userId authorizationId => exact (hB.refreshConnection rfl authorizationId).map
  | deleteConnection userId authorizationId => exact (hB.deleteConnection authorizationId rfl).map

end

/-! ### A call alone -/

/-- A refused call does what comes before its error. -/
theorem result_callOr {ω : Type} (env : ω → (o : Op) → brokerage.In o × ω) (c : Call)
    (onError : Handler Unit) (w : ω) (db : BrokerDb) :
    result brokerage env (Handler.callOr c onError).run w db =
      match ((env w (.call c)).1 : Except SnaptradeError c.Reply) with
      | .ok a => (.ok a, (env w (.call c)).2, db)
      | .error e => (.error e.toAppError,
          (result brokerage env onError.run (env w (.call c)).2 db).2) := by
  have hcall : result brokerage env (Handler.callOr c onError).run w db
      = result brokerage env (match ((env w (.call c)).1 : Except SnaptradeError c.Reply) with
        | .ok a => .done (.ok a)
        | .error e => onError.run >>= fun _ => Program.done (.error e.toAppError))
          (env w (.call c)).2 db := rfl
  rw [hcall]
  cases ((env w (.call c)).1 : Except SnaptradeError c.Reply) with
  | ok a => rfl
  | error e =>
    dsimp only
    rw [result_bind]
    rfl

/-- A secret that does not open ends the request. -/
theorem result_withSecret {ω α : Type} (env : ω → (o : Op) → brokerage.In o × ω)
    (ctx : BrokerContext) (row : StoredConnection) (f : String → Handler α) (w : ω)
    (db : BrokerDb) :
    result brokerage env (withSecret ctx row f).run w db =
      match decryptSecret ctx.toSnaptradeContext row.snaptradeUserSecretEncrypted with
      | .error e => (.error e, w, db)
      | .ok secret => result brokerage env (f secret).run w db := by
  unfold withSecret
  rw [result_bind_run]
  cases decryptSecret ctx.toSnaptradeContext row.snaptradeUserSecretEncrypted with
  | error e => rfl
  | ok secret => rfl

section
variable {ω : Type} (env : ω → (o : Op) → brokerage.In o × ω)

/-- The row of an authorization id, or a 404. -/
theorem result_requireConnection (userId : Uuid) (authorizationId : String) (w : ω)
    (db : BrokerDb) :
    result brokerage env (requireConnection userId authorizationId).run w db =
      (match Attempt.query (env w (.fetchByAuthorizationIdForUser userId authorizationId)).1
          (fetchByAuthorizationIdForUser db.connections userId authorizationId) with
      | .error e => .error e
      | .ok none => .error (.notFound "connection not found")
      | .ok (some row) => .ok row,
      (env w (.fetchByAuthorizationIdForUser userId authorizationId)).2, db) := by
  unfold requireConnection
  rw [result_bind_run]
  have hfetch : result brokerage env (Handler.fetchByAuthorizationIdForUser userId
      authorizationId).run w db
      = (Attempt.query (env w (.fetchByAuthorizationIdForUser userId authorizationId)).1
          (fetchByAuthorizationIdForUser db.connections userId authorizationId),
        (env w (.fetchByAuthorizationIdForUser userId authorizationId)).2, db) := rfl
  rw [hfetch]
  cases Attempt.query (env w (.fetchByAuthorizationIdForUser userId authorizationId)).1
      (fetchByAuthorizationIdForUser db.connections userId authorizationId) with
  | error e => rfl
  | ok found =>
    cases found with
    | none => rfl
    | some row => rfl

/-- What `remove_authorization` makes of a reply. -/
def removalAnswer (reply : Except SnaptradeError Json) : Except AppError Unit :=
  match reply with
  | .ok _ => .ok ()
  | .error e => if e = .status 404 then .ok () else .error e.toAppError

theorem result_removeAuthorization (userId secret authorizationId : String) (w : ω)
    (db : BrokerDb) :
    result brokerage env (removeAuthorization userId secret authorizationId).run w db =
      (removalAnswer (env w (.call (.removeAuthorization userId secret authorizationId))).1,
        (env w (.call (.removeAuthorization userId secret authorizationId))).2, db) := by
  have hcall : result brokerage env (removeAuthorization userId secret authorizationId).run w db
      = result brokerage env
        (match ((env w (.call (.removeAuthorization userId secret authorizationId))).1 :
            Except SnaptradeError Json) with
        | .ok _ => Program.done (.ok ())
        | .error e => if e = .status 404 then .done (.ok ()) else .done (.error e.toAppError))
        (env w (.call (.removeAuthorization userId secret authorizationId))).2 db := rfl
  rw [hcall]
  cases ((env w (.call (.removeAuthorization userId secret authorizationId))).1 :
      Except SnaptradeError Json) with
  | ok reply => rfl
  | error e =>
    simp only [removalAnswer]
    split
    · rfl
    · rfl

/-- The local half of a disconnect: the event is recorded when the statement is
answered. -/
theorem result_softDelete (userId connectionId : Uuid) (event : AuditEvent) (w : ω)
    (db : BrokerDb) :
    result brokerage env (do
        let _ ← Handler.softDelete userId connectionId
        Handler.recordEvent event : Handler Unit).run w db =
      match db.write (env w (.softDelete userId connectionId)).1
          (fun t now _ => softDelete t userId connectionId now) with
      | (.error e, db') => (.error e, (env w (.softDelete userId connectionId)).2, db')
      | (.ok _, db') =>
        (.ok (), (env (env w (.softDelete userId connectionId)).2 (.recordEvent event)).2,
          (brokerage.exec db' (.recordEvent event)
            (env (env w (.softDelete userId connectionId)).2 (.recordEvent event)).1).2) := by
  rw [result_bind_run]
  have hwrite : result brokerage env (Handler.softDelete userId connectionId).run w db
      = ((db.write (env w (.softDelete userId connectionId)).1
          (fun t now _ => softDelete t userId connectionId now)).1,
        (env w (.softDelete userId connectionId)).2,
        (db.write (env w (.softDelete userId connectionId)).1
          (fun t now _ => softDelete t userId connectionId now)).2) := rfl
  rw [hwrite]
  obtain ⟨answer, db'⟩ := db.write (env w (.softDelete userId connectionId)).1
    (fun t now _ => softDelete t userId connectionId now)
  cases answer with
  | error e => rfl
  | ok n => rfl

end

/-! ### The requests together -/

/-- The state of the service: the tables, and the requests under way. -/
abbrev BrokerSys := Sys BrokerDb Request Op Op.Answer (Except AppError Response)

/-- One step of any request. -/
abbrev brokerNext (ctx : BrokerContext) : BrokerSys → Action brokerage Request → Option BrokerSys :=
  next brokerage fun r => (handle ctx r).run

/-- No connection and no request. -/
def brokerInit : BrokerSys := Sys.init ⟨.empty, []⟩

/-- The handlers keep to the discipline together. -/
theorem Brokered.together {ctx : BrokerContext} {Reg : Uuid → String → Prop}
    {R : Rules brokerage Request} (hB : Brokered ctx Reg R)
    (hguar : ∀ db db', R.guar db db' → R.rely db db') :
    Together R (fun r => (Snaptrade.handle ctx r).run) (fun _ => True) fun _ _ _ => True where
  rely := hguar
  handler r db _ _ := Keeps.imp (hB.handle r db) fun _ _ _ => trivial

end MizanConnect.Proofs.Snaptrade
