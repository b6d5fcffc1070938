import MizanConnect.Proofs.Snaptrade.SuccessPage

/-!
# `MizanConnect.Proofs.Snaptrade.Lifecycle`: the stages of a connection

A row of `broker_connections` is pending, linked or disconnected (`InStage`).
`stage_exec` shows that the operations of the handlers keep this, in any order
and with any of them failing. A row only comes in with the SnapTrade user id
that a registration returned (`Reg`), so when SnapTrade echoes the requested id
the unique index on `snaptrade_user_id` leaves one row for each user.
-/

set_option autoImplicit false

namespace MizanConnect.Proofs.Snaptrade

open MizanConnect.Snaptrade
open MizanConnect.Snaptrade.Repository
open MizanConnect.Snaptrade.BrokerConnections (Row schema isSnaptrade isActiveSnaptrade)
open Concurrent (Action Allowed Program Rules Together good_init good_run)
open Transition (Along run)
open Sql (Table)

/-! ### Stages -/

/-- A SnapTrade row that is pending, linked or disconnected. -/
structure InStage (r : Row) : Prop where
  kind : isSnaptrade r = true
  active : r.isActive = true → r.disabled = false ∧ r.snaptradeAuthorizationId.isSome = true
  disabled : r.disabled = true → r.isActive = false ∧ r.snaptradeAuthorizationId.isSome = true
  linked : r.snaptradeAuthorizationId.isSome = true → r.isActive = true ∨ r.disabled = true

theorem inStage_pendingRow (now : Timestamp) (newId userId : Uuid) (snaptradeUserId : String)
    (blob : List UInt8) :
    InStage (Repository.pendingRow now newId userId snaptradeUserId blob) where
  kind := by simp [isSnaptrade, Repository.pendingRow]
  active h := by cases h
  disabled h := by cases h
  linked h := by cases h

theorem inStage_completedRow {r : Row} (h : InStage r) (now : Timestamp) (authId : String)
    (slug name : Option String) : InStage (completedRow now authId slug name r) where
  kind := h.kind
  active _ := ⟨rfl, rfl⟩
  disabled h := by cases h
  linked _ := Or.inl rfl

/-- A row can be disabled once it has an authorization. -/
theorem inStage_deletedRow {r : Row} (h : InStage r)
    (hlinked : r.snaptradeAuthorizationId.isSome = true) (now : Timestamp) :
    InStage (deletedRow now r) where
  kind := h.kind
  active h := by cases h
  disabled _ := ⟨rfl, hlinked⟩
  linked _ := Or.inr rfl

/-- Every row is in a stage, with a SnapTrade user id that was registered for
its user. -/
def Staged (Reg : Uuid → String → Prop) (db : BrokerDb) : Prop :=
  ∀ r ∈ db.connections.rows, InStage r ∧ Reg r.userId r.snaptradeUserId

/-- The operations of the handlers keep the stages. -/
theorem stage_exec {ctx : BrokerContext} {Reg : Uuid → String → Prop} {r : Request}
    {db : BrokerDb} {o : Op} (i : brokerage.In o) (hdb : Staged Reg db)
    (hmay : May ctx Reg r db o) : Staged Reg (brokerage.exec db o i).2 := by
  have hchange := exec_change db o i
  show ∀ x ∈ (brokerage.exec db o i).2.connections.rows, _
  generalize (brokerage.exec db o i).2.connections.rows = rows' at hchange
  intro x hx
  cases hchange with
  | keep => exact hdb x hx
  | inserted userId snaptradeUserId blob now newId hnew =>
    rcases List.mem_append.mp hx with hx | hx
    · exact hdb x hx
    · rw [List.mem_singleton.mp hx]
      exact ⟨inStage_pendingRow now newId userId snaptradeUserId blob, hmay.2⟩
  | completed connectionId authorizationId slug name now =>
    obtain ⟨y, hy, rfl⟩ := List.mem_map.mp hx
    obtain ⟨hstage, hreg⟩ := hdb y hy
    split
    · exact ⟨inStage_completedRow hstage now authorizationId slug name, hreg⟩
    · exact ⟨hstage, hreg⟩
  | deleted userId connectionId now =>
    obtain ⟨y, hy, rfl⟩ := List.mem_map.mp hx
    obtain ⟨hstage, hreg⟩ := hdb y hy
    split
    · -- The row of the write is the one that the handler has looked up.
      rename_i howned
      obtain ⟨-, z, hz, hid, -, hlinked⟩ := hmay
      have hyid : y.id = connectionId := by
        simp only [ownedBy, Bool.and_eq_true, decide_eq_true_eq] at howned
        exact howned.1
      obtain rfl := db.connections.eq_of_key hz hy (hid.trans hyid.symm)
      exact ⟨inStage_deletedRow hstage hlinked now, hreg⟩
    · exact ⟨hstage, hreg⟩

/-- The discipline that keeps the stages, when the inputs are as `Says`. -/
def stageRules (ctx : BrokerContext) (Reg : Uuid → String → Prop)
    (Says : (o : Op) → brokerage.In o → Prop) : Rules brokerage Request where
  inv := Staged Reg
  rely := Persist
  may := May ctx Reg
  legal _ _ o i := Says o i
  guar := Persist
  refl := Persist.refl
  trans _ _ _ := Persist.trans
  sound _ db o i hdb hmay _ := ⟨stage_exec i hdb hmay, persist_exec db o i⟩

/-- A registration returns an id as in `Reg`. -/
theorem stage_brokered (ctx : BrokerContext) (Reg : Uuid → String → Prop)
    (Says : (o : Op) → brokerage.In o → Prop)
    (hsay : ∀ userId (resp : StRegisterUserResponse),
      Says (.call (.registerUser userId.toString)) (.ok resp) → Reg userId resp.userId) :
    Brokered ctx Reg (stageRules ctx Reg Says) where
  rely _ _ h := h
  may _ _ _ h := h
  reg _ _ userId resp _ h := hsay userId resp h

/-- The rows of every reached state are in a stage, and a run never takes an
authorization id off a row. -/
theorem staged_run {ctx : BrokerContext} (Reg : Uuid → String → Prop)
    (Says : (o : Op) → brokerage.In o → Prop)
    (hsay : ∀ userId (resp : StRegisterUserResponse),
      Says (.call (.registerUser userId.toString)) (.ok resp) → Reg userId resp.userId)
    {s s' : BrokerSys} {as bs : List (Action brokerage Request)}
    (hlegal : Along (brokerNext ctx) (Allowed (stageRules ctx Reg Says) fun _ => True)
      brokerInit (as ++ bs))
    (hs : run (brokerNext ctx) brokerInit as = some s)
    (hs' : run (brokerNext ctx) s bs = some s') :
    Staged Reg s'.state ∧ Persist s.state s'.state := by
  have hT := (stage_brokered ctx Reg Says hsay).together fun _ _ h => h
  obtain ⟨hbefore, hafter⟩ := Transition.along_append hlegal
  have hinit : Staged Reg brokerInit.state := fun r hr => nomatch hr
  obtain ⟨hgood, -⟩ := good_run hT (good_init _ hinit) hbefore hs
  obtain ⟨hgood', hpersist⟩ := good_run hT hgood (hafter s hs) hs'
  exact ⟨hgood'.inv, hpersist⟩

/-- Whatever SnapTrade answers, every row of a reached state is in a stage. -/
theorem inStage_run {ctx : BrokerContext} {s : BrokerSys} {as : List (Action brokerage Request)}
    (hs : run (brokerNext ctx) brokerInit as = some s) :
    ∀ r ∈ s.state.connections.rows, InStage r := by
  have hlegal : Along (brokerNext ctx)
      (Allowed (stageRules ctx (fun _ _ => True) fun _ _ => True) fun _ => True)
      brokerInit (as ++ []) := by
    refine Transition.along_of_forall ?_
    intro a _ s
    cases a with
    | spawn r => trivial
    | advance i input => exact fun _ _ _ _ => trivial
  obtain ⟨hstaged, -⟩ := staged_run _ _ (fun _ _ _ => trivial) hlegal hs rfl
  exact fun r hr => (hstaged r hr).1

/-! ### The lifecycle -/

/-- SnapTrade answers a registration with the id that it was asked for. -/
def EchoReply : (o : Op) → brokerage.In o → Prop
  | .call (.registerUser name), reply => ∀ resp, reply = .ok resp → resp.userId = name
  | _, _ => True

/-- A step in which SnapTrade does so. -/
def Echoes (s : BrokerSys) : Action brokerage Request → Prop
  | .spawn _ => True
  | .advance i input => ∀ r o k, s.jobs[i]? = some ⟨r, Program.perform o k⟩ → EchoReply o (input o)

/-- The SnapTrade user id of a row is the id of its user. -/
def OwnName (userId : Uuid) (snaptradeUserId : String) : Prop := snaptradeUserId = userId.toString

/-- What holds of the connections in every reachable state. -/
structure Lifecycle (t : Table schema) : Prop where
  oneRow : ∀ x ∈ t.rows, ∀ y ∈ t.rows, isSnaptrade x = true → isSnaptrade y = true →
    x.userId = y.userId → x = y
  ownName : ∀ x ∈ t.rows, isSnaptrade x = true → x.snaptradeUserId = x.userId.toString
  active : ∀ x ∈ t.rows, x.isActive = true →
    x.disabled = false ∧ x.snaptradeAuthorizationId.isSome = true
  disabled : ∀ x ∈ t.rows, x.disabled = true →
    x.isActive = false ∧ x.snaptradeAuthorizationId.isSome = true

/-- Two SnapTrade rows with one SnapTrade user id are one row. -/
theorem eq_of_snaptradeUserId (t : Table schema) {x y : Row} (hx : x ∈ t.rows) (hy : y ∈ t.rows)
    (hxs : isSnaptrade x = true) (hys : isSnaptrade y = true)
    (h : x.snaptradeUserId = y.snaptradeUserId) : x = y := by
  refine t.eq_of_clash hx hy ?_
  simp [schema, BrokerConnections.clash, Sql.uniqueOn, hxs, hys, h]

/-- The stages of registered users are a lifecycle. -/
theorem lifecycle_of_staged {db : BrokerDb} (h : Staged OwnName db) :
    Lifecycle db.connections where
  oneRow x hx y hy hxs hys huser := by
    refine eq_of_snaptradeUserId db.connections hx hy hxs hys ?_
    rw [(h x hx).2, (h y hy).2, huser]
  ownName x hx _ := (h x hx).2
  active x hx := (h x hx).1.active
  disabled x hx := (h x hx).1.disabled

/-- With one row for each user `mark_completed` breaks no constraint. -/
theorem markCompleted_ok {db : BrokerDb} (h : Staged OwnName db) (now : Timestamp)
    (connectionId : Uuid) (authId : String) (slug name : Option String) :
    ∃ t', markCompleted db.connections now connectionId authId slug name = .ok t' := by
  by_cases hfound : ∃ x ∈ db.connections.rows, x.id = connectionId
  · obtain ⟨x, hx, rfl⟩ := hfound
    have hkind := (h x hx).1.kind
    rw [markCompleted_eq_write now authId slug name hx, Table.write_singleton_ok_iff
      (w := completedRow now authId slug name x) ⟨x, hx, rfl⟩]
    refine ⟨rfl, ?_⟩
    intro r hr hne
    rw [Bool.eq_false_iff]
    intro hclash
    -- A row in the way would be another row of the same user.
    obtain ⟨huser, -⟩ := (clash_completedRow_iff now authId slug name hx hkind hr hne).mp hclash
    have hsame := (lifecycle_of_staged h).oneRow r hr x hx (h r hr).1.kind hkind huser
    exact hne (show r.id = x.id by rw [hsame])
  · refine ⟨db.connections, ?_⟩
    have hnone : db.connections.updated (fun r => r.id = connectionId)
        (completedRow now authId slug name) = [] := by
      rw [Table.updated, List.map_eq_nil_iff, List.filter_eq_nil_iff]
      intro x hx hid
      exact hfound ⟨x, hx, by simpa using hid⟩
    unfold markCompleted Table.updateWhere
    rw [hnone, Table.write_nil]

/-- When SnapTrade echoes the requested user id, the connections of every
reachable state are in their lifecycle, the rest of the run keeps the
authorization ids of the rows set, and `mark_completed` succeeds. -/
theorem connection_lifecycle (ctx : BrokerContext) {s s' : BrokerSys}
    {as bs : List (Action brokerage Request)}
    (hecho : Along (brokerNext ctx) Echoes brokerInit (as ++ bs))
    (hs : run (brokerNext ctx) brokerInit as = some s)
    (hs' : run (brokerNext ctx) s bs = some s') :
    Lifecycle s'.state.connections ∧
      (∀ x ∈ s.state.connections.rows, x.snaptradeAuthorizationId.isSome = true →
        ∃ y ∈ s'.state.connections.rows, y.id = x.id ∧
          y.snaptradeAuthorizationId.isSome = true) ∧
      ∀ now connectionId authId slug name, ∃ t',
        markCompleted s'.state.connections now connectionId authId slug name = .ok t' := by
  have hlegal : Along (brokerNext ctx)
      (Allowed (stageRules ctx OwnName EchoReply) fun _ => True) brokerInit (as ++ bs) := by
    refine Transition.along_imp ?_ hecho
    intro s a h
    cases a with
    | spawn r => trivial
    | advance i input => exact h
  obtain ⟨hstaged, hpersist⟩ := staged_run OwnName EchoReply
    (fun _ _ h => h _ rfl) hlegal hs hs'
  refine ⟨lifecycle_of_staged hstaged, ?_, markCompleted_ok hstaged⟩
  intro x hx hlinked
  obtain ⟨y, hy, hxy⟩ := hpersist x hx
  exact ⟨y, hy, hxy.id, hxy.linked hlinked⟩

/-- A registration of alice is echoed. -/
theorem echoReply_calm (authorizations : List StAuthorization) (now : Timestamp) (newId : Uuid)
    (o : Op) : EchoReply o (calmInput (aliceReply authorizations) now newId o) := by
  cases o with
  | call c =>
    cases c with
    | registerUser name =>
      intro resp hresp
      cases hresp
      rfl
    | _ => trivial
  | _ => trivial

/-- So are those of her whole run. -/
theorem echoes_disconnect : Along (brokerNext aliceContext) Echoes brokerInit disconnect := by
  refine Transition.along_of_forall ?_
  intro a ha s
  cases a with
  | spawn r => trivial
  | advance i input =>
    intro r o k _
    suffices ∃ authorizations now, input = calmInput (aliceReply authorizations) now ⟨2⟩ by
      obtain ⟨authorizations, now, rfl⟩ := this
      exact echoReply_calm authorizations now ⟨2⟩ o
    simp only [disconnect, linkQuestrade, steps, List.mem_append, List.mem_cons, reduceCtorEq,
      List.mem_replicate, false_or, Action.advance.injEq] at ha
    rcases ha with (⟨-, -, h⟩ | ⟨-, -, h⟩) | ⟨-, -, h⟩
    · exact ⟨_, _, h⟩
    · exact ⟨_, _, h⟩
    · exact ⟨_, _, h⟩

/-- `connection_lifecycle` for a user who links Questrade and disconnects it. -/
theorem connection_lifecycle_disconnect :
    ∃ s s', run (brokerNext aliceContext) brokerInit linkQuestrade = some s ∧
      run (brokerNext aliceContext) s
        (.spawn (.deleteConnection alice "A") :: steps 4 2 [] 6) = some s' ∧
      Lifecycle s'.state.connections := by
  obtain ⟨s', hrun, -⟩ := Option.map_eq_some_iff.mp disconnect_rows
  obtain ⟨s, hs, hs'⟩ := Transition.run_append.mp hrun
  exact ⟨s, s', hs, hs', (connection_lifecycle aliceContext echoes_disconnect hs hs').1⟩

end MizanConnect.Proofs.Snaptrade
