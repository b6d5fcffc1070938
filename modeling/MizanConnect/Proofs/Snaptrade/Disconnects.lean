import MizanConnect.Proofs.Snaptrade.ListDelete

/-!
# `MizanConnect.Proofs.Snaptrade.Disconnects`: disconnecting again and again

`disconnect` is one call of `delete_connection`, in any circumstances: each of
its statements can be lost or lose its answer, the secret can fail to open,
and SnapTrade can remove the authorization, not know it, or refuse. `Effect`
says what a call can do. It fails without a local write, or it disables the
row; so calls for one id converge. They are not silent, because the audit event
is recorded whether or not the row was disabled already (`converges_iff`).
-/

set_option autoImplicit false

namespace MizanConnect.Proofs.Snaptrade.Disconnects

open MizanConnect.Snaptrade
open MizanConnect.Snaptrade.Repository
open MizanConnect.Snaptrade.BrokerConnections (Row schema)
open Concurrent (result result_bind_run)
open Transition (run)
open Sql (Table)

/-! ### Calls -/

/-- SnapTrade: the authorizations of its users, and the requests it has got. -/
structure Upstream where
  lists : Authorizations
  requests : List Call

/-- What SnapTrade does with a removal. A 404 says that the authorization is not
there. After another error it may be gone or not. -/
inductive Removal where
  | success (reply : Json)
  | notFound
  | refused (e : SnaptradeError) (he : e ≠ .status 404) (removes : Bool)

namespace Removal

def reply : Removal → Except SnaptradeError Json
  | .success reply => .ok reply
  | .notFound => .error (.status 404)
  | .refused e _ _ => .error e

/-- Whether the authorization is gone afterwards. -/
def removes : Removal → Bool
  | .success _ => true
  | .notFound => true
  | .refused _ _ removes => removes

/-- Whether `remove_authorization` returns `Ok`. -/
def works : Removal → Bool
  | .success _ => true
  | .notFound => true
  | .refused _ _ _ => false

end Removal

/-- What a call meets: its statements, and SnapTrade. It performs no other
operation. -/
structure Circumstances where
  lookup : Attempt
  removal : Removal
  update : Attempt
  audit : Attempt
  other : (o : Op) → brokerage.In o

/-- SnapTrade after it has got a removal. -/
def Upstream.remove (w : Upstream) (removal : Removal) (userId secret authorizationId : String) :
    Upstream where
  lists := if removal.removes then w.lists.without userId authorizationId else w.lists
  requests := w.requests ++ [.removeAuthorization userId secret authorizationId]

/-- The inputs of a call. -/
def Circumstances.env (c : Circumstances) (w : Upstream) : (o : Op) → brokerage.In o × Upstream
  | .fetchByAuthorizationIdForUser _ _ => (c.lookup, w)
  | .softDelete _ _ => (c.update, w)
  | .recordEvent _ => (c.audit, w)
  | .call (.removeAuthorization userId secret authorizationId) =>
    (c.removal.reply, w.remove c.removal userId secret authorizationId)
  | .call call => (c.other (.call call), { w with requests := w.requests ++ [call] })
  | o => (c.other o, w)

/-- The service: SnapTrade and the tables. -/
structure Service where
  upstream : Upstream
  db : BrokerDb

/-- One call of `delete_connection`. -/
def disconnect (ctx : BrokerContext) (userId : Uuid) (authorizationId : String)
    (c : Circumstances) (s : Service) : Except AppError Unit × Service :=
  let out := result brokerage c.env (deleteConnection ctx userId authorizationId).run s.upstream
    s.db
  (out.1, ⟨out.2.1, out.2.2⟩)

/-- The service after one call after the other. -/
def after (ctx : BrokerContext) (userId : Uuid) (authorizationId : String) (s : Service)
    (calls : List Circumstances) : Service :=
  calls.foldl (fun s c => (disconnect ctx userId authorizationId c s).2) s

/-! ### What a call does -/

/-- The statement takes effect. -/
def executed : Attempt → Bool
  | .lost => false
  | .run _ _ _ => true

/-- The statement takes effect and its answer arrives. -/
def answered : Attempt → Bool
  | .lost => false
  | .run _ _ acknowledged => acknowledged

/-- The call comes as far as its `soft_delete`: the lookup is answered, and a row
that is not disabled has a secret that opens and an authorization that SnapTrade
lets go. -/
def Reaches (ctx : BrokerContext) (row : Row) (c : Circumstances) : Prop :=
  answered c.lookup = true ∧ (row.disabled = true ∨
    ((ctx.decrypt row.snaptradeUserSecretEncrypted).isSome = true ∧ c.removal.works = true))

/-- The call comes to its end. -/
def Succeeds (ctx : BrokerContext) (row : Row) (c : Circumstances) : Prop :=
  Reaches ctx row c ∧ answered c.update = true

/-- The event of a disconnect. -/
def disconnectEvent (userId : Uuid) (authorizationId : String) : AuditEvent :=
  ⟨some userId, "broker.disconnect", .obj [("authorization_id", .str authorizationId)]⟩

/-- What happens to SnapTrade: nothing for a disabled row, and at most the
removal otherwise. -/
structure Follows (row : Row) (authorizationId : String) (w w' : Upstream) : Prop where
  quiet : row.disabled = true → w' = w
  lists : w'.lists = w.lists ∨ w'.lists = w.lists.without row.snaptradeUserId authorizationId

/-- What a call can do with the row of its id: it fails before a local write, or
the row is disabled. -/
inductive Effect (ctx : BrokerContext) (userId : Uuid) (authorizationId : String) (row : Row)
    (c : Circumstances) (s : Service) : Except AppError Unit × Service → Prop where
  | kept (e : AppError) (w : Upstream)
      (hstop : ¬ (Reaches ctx row c ∧ executed c.update = true))
      (hupstream : Follows row authorizationId s.upstream w) :
      Effect ctx userId authorizationId row c s (.error e, ⟨w, s.db⟩)
  | written (w : Upstream) (t : Table schema) (now : Timestamp)
      (hreach : Reaches ctx row c) (hexecuted : executed c.update = true)
      (hupstream : Follows row authorizationId s.upstream w)
      (hremoved : row.disabled = false →
        w.lists = s.upstream.lists.without row.snaptradeUserId authorizationId)
      (hrows : t.rows = s.db.connections.rows.map fun r =>
        if ownedBy userId row.id r then deletedRow now r else r) :
      Effect ctx userId authorizationId row c s
        (if answered c.update then .ok () else .error connectionError,
          ⟨w, t, if answered c.update && executed c.audit then
            s.db.audit ++ [disconnectEvent userId authorizationId] else s.db.audit⟩)

section
variable {ctx : BrokerContext} {userId : Uuid} {authorizationId : String} {row : Row}

/-- A removal that works is answered with `Ok`, and no other is. -/
theorem removalAnswer_reply (removal : Removal) :
    (removal.works = true ∧ removal.removes = true ∧ removalAnswer removal.reply = .ok ()) ∨
      (removal.works = false ∧ ∃ e, removalAnswer removal.reply = .error e) := by
  cases removal with
  | success reply => exact Or.inl ⟨rfl, rfl, rfl⟩
  | notFound => exact Or.inl ⟨rfl, rfl, rfl⟩
  | refused e he removes => exact Or.inr ⟨rfl, e.toAppError, if_neg he⟩

/-- The upstream half of a call. -/
theorem upstream_half (ctx : BrokerContext) (c : Circumstances)
    (hauth : row.snaptradeAuthorizationId = some authorizationId) (w : Upstream) (db : BrokerDb) :
    ∃ answer w', result brokerage c.env (removeUpstream ctx (StoredConnection.ofRow row)).run w db
        = (answer, w', db) ∧ Follows row authorizationId w w' ∧
      ((answer = .ok () ∧ (row.disabled = true ∨
          ((ctx.decrypt row.snaptradeUserSecretEncrypted).isSome = true ∧
            c.removal.works = true)) ∧
          (row.disabled = false →
            w'.lists = w.lists.without row.snaptradeUserId authorizationId)) ∨
        ∃ e, answer = .error e ∧ ¬ (row.disabled = true ∨
          ((ctx.decrypt row.snaptradeUserSecretEncrypted).isSome = true ∧
            c.removal.works = true))) := by
  have hdisabled' : (StoredConnection.ofRow row).disabled = row.disabled := rfl
  have hauth' : (StoredConnection.ofRow row).snaptradeAuthorizationId = some authorizationId :=
    hauth
  unfold removeUpstream
  rw [hdisabled', hauth']
  cases hdisabled : row.disabled with
  | true =>
    refine ⟨.ok (), w, rfl, ⟨fun _ => rfl, Or.inl rfl⟩, Or.inl ⟨rfl, Or.inl rfl, ?_⟩⟩
    intro h
    cases h
  | false =>
    simp only [Bool.false_eq_true, if_false]
    rw [result_withSecret]
    have hblob : (StoredConnection.ofRow row).snaptradeUserSecretEncrypted =
        row.snaptradeUserSecretEncrypted := rfl
    rw [hblob, decryptSecret]
    cases hsecret : ctx.decrypt row.snaptradeUserSecretEncrypted with
    | none =>
      exact ⟨.error (.internal "broker integration error"), w, rfl, ⟨fun _ => rfl, Or.inl rfl⟩,
        Or.inr ⟨_, rfl, by simp⟩⟩
    | some secret =>
      dsimp only
      rw [result_removeAuthorization]
      refine ⟨_, _, rfl, ⟨?_, ?_⟩, ?_⟩
      · intro h
        rw [hdisabled] at h
        cases h
      · show (w.remove c.removal row.snaptradeUserId secret authorizationId).lists = _ ∨ _
        unfold Upstream.remove
        by_cases hremoves : c.removal.removes = true
        · exact Or.inr (if_pos hremoves)
        · exact Or.inl (if_neg hremoves)
      · rcases removalAnswer_reply c.removal with ⟨hworks, hremoves, hanswer⟩ | ⟨hworks, e, hanswer⟩
        · exact Or.inl ⟨hanswer, Or.inr ⟨rfl, hworks⟩, fun _ => if_pos hremoves⟩
        · exact Or.inr ⟨e, hanswer, by simp [hworks]⟩

/-- The first statement of a call. -/
theorem lookup_half (c : Circumstances) {s : Service}
    (hrow : authorizationRowFor s.db.connections userId authorizationId = some row) :
    result brokerage c.env (requireConnection userId authorizationId).run s.upstream s.db =
      (if answered c.lookup then .ok (StoredConnection.ofRow row) else .error connectionError,
        s.upstream, s.db) := by
  have henv : c.env s.upstream (.fetchByAuthorizationIdForUser userId authorizationId) =
    (c.lookup, s.upstream) := rfl
  rw [result_requireConnection, henv, fetchByAuthorizationId_eq hrow]
  cases c.lookup with
  | lost => rfl
  | run now newId acknowledged =>
    cases acknowledged with
    | true => rfl
    | false => rfl

/-- The local half of a call, on the statement's success or its loss. -/
theorem local_half (c : Circumstances) (userId : Uuid) (connectionId : Uuid) (event : AuditEvent)
    (w : Upstream) (db : BrokerDb) :
    (executed c.update = false ∧ ∃ e, result brokerage c.env (do
        let _ ← Handler.softDelete userId connectionId
        Handler.recordEvent event : Handler Unit).run w db = (.error e, w, db)) ∨
    (executed c.update = true ∧ ∃ (t : Table schema) (now : Timestamp),
      t.rows = (db.connections.rows.map fun r =>
        if ownedBy userId connectionId r then deletedRow now r else r) ∧
      result brokerage c.env (do
          let _ ← Handler.softDelete userId connectionId
          Handler.recordEvent event : Handler Unit).run w db =
        (if answered c.update then .ok () else .error connectionError, w,
          ⟨t, if answered c.update && executed c.audit then db.audit ++ [event]
            else db.audit⟩)) := by
  have hwrite : c.env w (.softDelete userId connectionId) = (c.update, w) := rfl
  have hrecord : c.env w (.recordEvent event) = (c.audit, w) := rfl
  rw [result_softDelete, hwrite, hrecord]
  cases hupdate : c.update with
  | lost => exact Or.inl ⟨rfl, connectionError, rfl⟩
  | run now newId acknowledged =>
    obtain ⟨t, n, hdelete⟩ := softDelete_ok db.connections userId connectionId now
    refine Or.inr ⟨rfl, t, now, softDelete_rows hdelete, ?_⟩
    simp only [BrokerDb.write, Attempt.write, hdelete]
    cases acknowledged with
    | false => rfl
    | true =>
      cases haudit : c.audit with
      | lost => rfl
      | run now' newId' acknowledged' => rfl

/-- What a call does. -/
theorem effect (ctx : BrokerContext) (c : Circumstances) {s : Service}
    (hrow : authorizationRowFor s.db.connections userId authorizationId = some row) :
    Effect ctx userId authorizationId row c s (disconnect ctx userId authorizationId c s) := by
  obtain ⟨-, hauth, -⟩ := authorizationRowFor_mem hrow
  unfold disconnect deleteConnection
  rw [result_bind_run, lookup_half c hrow]
  by_cases hlookup : answered c.lookup = true
  · rw [if_pos hlookup]
    dsimp only
    rw [result_bind_run]
    obtain ⟨answer, w, hupstream, hfollows, hcases⟩ :=
      upstream_half ctx c hauth s.upstream s.db
    rw [hupstream]
    rcases hcases with ⟨rfl, hopen, hremoved⟩ | ⟨e, rfl, hstop⟩
    · have hevent : (⟨some userId, "broker.disconnect", .obj [("authorization_id",
          ((StoredConnection.ofRow row).snaptradeAuthorizationId.map Json.str).getD .null)]⟩ :
            AuditEvent) = disconnectEvent userId authorizationId := by
        have hauth' : (StoredConnection.ofRow row).snaptradeAuthorizationId =
          some authorizationId := hauth
        rw [hauth']
        rfl
      dsimp only
      rw [hevent]
      rcases local_half c userId (StoredConnection.ofRow row).id
          (disconnectEvent userId authorizationId) w s.db with
        ⟨hlost, e, hlocal⟩ | ⟨hexecuted, t, now, hrows, hlocal⟩
      · rw [hlocal]
        exact .kept e w (fun h => by simp [hlost] at h) hfollows
      · rw [hlocal]
        exact .written w t now ⟨hlookup, hopen⟩ hexecuted hfollows hremoved hrows
    · exact .kept e w (fun h => hstop h.1.2) hfollows
  · rw [if_neg hlookup]
    exact .kept connectionError s.upstream (fun h => hlookup h.1.1) ⟨fun _ => rfl, Or.inl rfl⟩

theorem executed_of_answered {attempt : Attempt} (h : answered attempt = true) :
    executed attempt = true := by
  cases attempt with
  | lost => cases h
  | run now newId acknowledged => rfl

/-- A call returns `Ok` if and only if nothing has stopped it. -/
theorem ok_iff_succeeds (ctx : BrokerContext) (c : Circumstances) {s : Service}
    (hrow : authorizationRowFor s.db.connections userId authorizationId = some row) :
    (disconnect ctx userId authorizationId c s).1 = .ok () ↔ Succeeds ctx row c := by
  have heffect := effect ctx c hrow
  generalize disconnect ctx userId authorizationId c s = out at heffect
  cases heffect with
  | kept e w hstop hupstream =>
    constructor
    · intro h
      cases h
    · rintro ⟨hreach, hanswered⟩
      exact absurd ⟨hreach, executed_of_answered hanswered⟩ hstop
  | written w t now hreach hexecuted hupstream hremoved hrows =>
    dsimp only
    constructor
    · intro h
      split at h
      · rename_i hanswered
        exact ⟨hreach, hanswered⟩
      · cases h
    · rintro ⟨-, hanswered⟩
      exact if_pos hanswered

/-! ### The row after a call -/

/-- What no call changes, and what none takes back. -/
structure SameLink (row row' : Row) : Prop where
  blob : row'.snaptradeUserSecretEncrypted = row.snaptradeUserSecretEncrypted
  snaptradeUserId : row'.snaptradeUserId = row.snaptradeUserId
  disabled : row.disabled = true → row'.disabled = true

/-- The lookup finds the disabled version of the row. -/
theorem authorizationRowFor_deleted {t t' : Table schema} {now : Timestamp}
    (hrow : authorizationRowFor t userId authorizationId = some row)
    (hrows : t'.rows = t.rows.map fun r =>
      if ownedBy userId row.id r then deletedRow now r else r) :
    authorizationRowFor t' userId authorizationId = some (deletedRow now row) := by
  obtain ⟨-, -, hfor⟩ := authorizationRowFor_mem hrow
  have hsame : (authorizedFor userId authorizationId ∘ fun r =>
      if ownedBy userId row.id r then deletedRow now r else r) =
      authorizedFor userId authorizationId := by
    funext r
    rw [Function.comp_apply]
    split
    · rfl
    · rfl
  have howned : ownedBy userId row.id row = true := by simp [ownedBy, hfor]
  rw [authorizationRowFor] at hrow ⊢
  rw [hrows, List.find?_map, hsame, hrow, Option.map_some, if_pos howned]

/-- After a call the row is as it was, or disabled. -/
theorem row_disconnect (ctx : BrokerContext) (c : Circumstances) {s : Service}
    (hrow : authorizationRowFor s.db.connections userId authorizationId = some row) :
    ∃ row', authorizationRowFor (disconnect ctx userId authorizationId c s).2.db.connections
        userId authorizationId = some row' ∧ SameLink row row' ∧
      (row' = row ∨ (row'.disabled = true ∧ row'.isActive = false)) := by
  have heffect := effect ctx c hrow
  generalize disconnect ctx userId authorizationId c s = out at heffect
  cases heffect with
  | kept e w hstop hupstream => exact ⟨row, hrow, ⟨rfl, rfl, id⟩, Or.inl rfl⟩
  | written w t now hreach hexecuted hupstream hremoved hrows =>
    exact ⟨deletedRow now row, authorizationRowFor_deleted hrow hrows, ⟨rfl, rfl, fun _ => rfl⟩,
      Or.inr ⟨rfl, rfl⟩⟩

/-- A call that returns `Ok` has disabled the row. -/
theorem disabled_of_ok (ctx : BrokerContext) (c : Circumstances) {s : Service}
    (hrow : authorizationRowFor s.db.connections userId authorizationId = some row)
    (hok : (disconnect ctx userId authorizationId c s).1 = .ok ()) :
    ∃ row', authorizationRowFor (disconnect ctx userId authorizationId c s).2.db.connections
        userId authorizationId = some row' ∧ row'.disabled = true ∧ row'.isActive = false := by
  have heffect := effect ctx c hrow
  generalize disconnect ctx userId authorizationId c s = out at heffect hok
  cases heffect with
  | kept e w hstop hupstream => cases hok
  | written w t now hreach hexecuted hupstream hremoved hrows =>
    exact ⟨deletedRow now row, authorizationRowFor_deleted hrow hrows, rfl, rfl⟩

/-- The calls of a run find the row. -/
theorem row_after (ctx : BrokerContext) (calls : List Circumstances) {s : Service}
    (hrow : authorizationRowFor s.db.connections userId authorizationId = some row) :
    ∃ row', authorizationRowFor (after ctx userId authorizationId s calls).db.connections
        userId authorizationId = some row' ∧ SameLink row row' := by
  induction calls generalizing s row with
  | nil => exact ⟨row, hrow, rfl, rfl, id⟩
  | cons c calls ih =>
    obtain ⟨row₁, hrow₁, hlink₁, -⟩ := row_disconnect ctx c hrow
    obtain ⟨row₂, hrow₂, hlink₂⟩ := ih hrow₁
    exact ⟨row₂, hrow₂, hlink₂.blob.trans hlink₁.blob,
      hlink₂.snaptradeUserId.trans hlink₁.snaptradeUserId,
      fun h => hlink₂.disabled (hlink₁.disabled h)⟩

/-! ### SnapTrade after a call -/

/-- SnapTrade does not have the authorization. -/
def Absent (authorizationId : String) (row : Row) (w : Upstream) : Prop :=
  ∀ a ∈ w.lists row.snaptradeUserId, a.id ≠ authorizationId

theorem absent_of_without {w w' : Upstream}
    (h : w'.lists = w.lists.without row.snaptradeUserId authorizationId) :
    Absent authorizationId row w' := by
  intro a ha
  rw [h, Authorizations.without, if_pos rfl] at ha
  simpa using (List.mem_filter.mp ha).2

/-- What is gone stays gone. -/
theorem Follows.absent {w w' : Upstream} (h : Follows row authorizationId w w')
    (habsent : Absent authorizationId row w) : Absent authorizationId row w' := by
  rcases h.lists with hsame | hwithout
  · intro a ha
    rw [hsame] at ha
    exact habsent a ha
  · exact absent_of_without hwithout

/-- SnapTrade hears nothing about a disabled row. -/
theorem upstream_disconnect (ctx : BrokerContext) (c : Circumstances) {s : Service}
    (hrow : authorizationRowFor s.db.connections userId authorizationId = some row)
    (hdisabled : row.disabled = true) :
    (disconnect ctx userId authorizationId c s).2.upstream = s.upstream := by
  have heffect := effect ctx c hrow
  generalize disconnect ctx userId authorizationId c s = out at heffect
  cases heffect with
  | kept e w hstop hupstream => exact hupstream.quiet hdisabled
  | written w t now hreach hexecuted hupstream hremoved hrows => exact hupstream.quiet hdisabled

theorem upstream_after (ctx : BrokerContext) (calls : List Circumstances) {s : Service}
    (hrow : authorizationRowFor s.db.connections userId authorizationId = some row)
    (hdisabled : row.disabled = true) :
    (after ctx userId authorizationId s calls).upstream = s.upstream := by
  induction calls generalizing s row with
  | nil => rfl
  | cons c calls ih =>
    obtain ⟨row', hrow', hlink, -⟩ := row_disconnect ctx c hrow
    exact (ih hrow' (hlink.disabled hdisabled)).trans (upstream_disconnect ctx c hrow hdisabled)

/-- A row that is disabled is gone from SnapTrade. -/
def Settled (userId : Uuid) (authorizationId : String) (s : Service) : Prop :=
  ∀ row, authorizationRowFor s.db.connections userId authorizationId = some row →
    row.disabled = true → Absent authorizationId row s.upstream

/-- A call removes upstream before it disables. -/
theorem settled_disconnect (ctx : BrokerContext) (c : Circumstances) {s : Service}
    (hrow : authorizationRowFor s.db.connections userId authorizationId = some row)
    (hsettled : Settled userId authorizationId s) :
    Settled userId authorizationId (disconnect ctx userId authorizationId c s).2 := by
  have heffect := effect ctx c hrow
  generalize disconnect ctx userId authorizationId c s = out at heffect
  cases heffect with
  | kept e w hstop hupstream =>
    intro row' hrow' hdisabled
    cases hrow.symm.trans hrow'
    exact hupstream.absent (hsettled row hrow hdisabled)
  | written w t now hreach hexecuted hupstream hremoved hrows =>
    intro row' hrow' _
    cases (authorizationRowFor_deleted hrow hrows).symm.trans hrow'
    have habsent : Absent authorizationId row w := by
      by_cases hdisabled : row.disabled = true
      · exact hupstream.absent (hsettled row hrow hdisabled)
      · exact absent_of_without (hremoved (Bool.eq_false_iff.mpr hdisabled))
    exact habsent

theorem settled_after (ctx : BrokerContext) (calls : List Circumstances) {s : Service}
    (hrow : authorizationRowFor s.db.connections userId authorizationId = some row)
    (hsettled : Settled userId authorizationId s) :
    Settled userId authorizationId (after ctx userId authorizationId s calls) := by
  induction calls generalizing s row with
  | nil => exact hsettled
  | cons c calls ih =>
    obtain ⟨row', hrow', -⟩ := row_disconnect ctx c hrow
    exact ih hrow' (settled_disconnect ctx c hrow hsettled)

/-! ### The audit log -/

/-- The rows `broker.disconnect` of the log. -/
def disconnectRows (db : BrokerDb) : List AuditEvent :=
  db.audit.filter fun event => event.eventType = "broker.disconnect"

/-- For a disabled row, a call writes no row if and only if one of its
statements has failed. -/
theorem disconnectRows_disconnect (ctx : BrokerContext) (c : Circumstances) {s : Service}
    (hrow : authorizationRowFor s.db.connections userId authorizationId = some row)
    (hdisabled : row.disabled = true) :
    disconnectRows (disconnect ctx userId authorizationId c s).2.db = disconnectRows s.db ↔
      ¬ (answered c.lookup = true ∧ answered c.update = true ∧ executed c.audit = true) := by
  have heffect := effect ctx c hrow
  generalize disconnect ctx userId authorizationId c s = out at heffect
  cases heffect with
  | kept e w hstop hupstream =>
    refine iff_of_true rfl ?_
    rintro ⟨hlookup, hupdate, -⟩
    exact hstop ⟨⟨hlookup, Or.inl hdisabled⟩, executed_of_answered hupdate⟩
  | written w t now hreach hexecuted hupstream hremoved hrows =>
    by_cases hwrites : (answered c.update && executed c.audit) = true
    · simp only [if_pos hwrites]
      rw [Bool.and_eq_true] at hwrites
      have hevent : (disconnectEvent userId authorizationId).eventType = "broker.disconnect" := rfl
      simp [disconnectRows, List.filter_append, hevent, hreach.1, hwrites.1, hwrites.2]
    · simp only [if_neg hwrites]
      rw [Bool.and_eq_true] at hwrites
      exact iff_of_true rfl fun h => hwrites h.2

end

/-! ### Any number of calls -/

section
variable (ctx : BrokerContext) (userId : Uuid) (authorizationId : String)

/-- The row is disabled and inactive, and SnapTrade does not have the
authorization. -/
def Gone (s : Service) : Prop :=
  ∃ row, authorizationRowFor s.db.connections userId authorizationId = some row ∧
    row.disabled = true ∧ row.isActive = false ∧ Absent authorizationId row s.upstream

/-- Every dependency of a call is there: its statements are answered, the secret
of the row opens, and SnapTrade does not refuse. -/
structure Healthy (s : Service) (c : Circumstances) : Prop where
  lookup : answered c.lookup = true
  update : answered c.update = true
  removal : c.removal.works = true
  secret : ∀ row, authorizationRowFor s.db.connections userId authorizationId = some row →
    (ctx.decrypt row.snaptradeUserSecretEncrypted).isSome = true

/-- Calls for one id converge and are silent: `Ok` means gone, a failure leaves
the row or disables it, from then on a healthy call returns `Ok`, and after an
`Ok` there is no request and no further event. -/
structure Converges (s : Service) (calls : List Circumstances) : Prop where
  ok : ∀ pre c post, calls = pre ++ c :: post →
    (disconnect ctx userId authorizationId c (after ctx userId authorizationId s pre)).1 = .ok () →
    Gone userId authorizationId (after ctx userId authorizationId s (pre ++ [c]))
  failed : ∀ pre c post, calls = pre ++ c :: post →
    (∃ e, (disconnect ctx userId authorizationId c
      (after ctx userId authorizationId s pre)).1 = .error e) →
    (after ctx userId authorizationId s (pre ++ [c])).db.connections =
        (after ctx userId authorizationId s pre).db.connections ∨
      ∃ row, authorizationRowFor
        (after ctx userId authorizationId s (pre ++ [c])).db.connections userId authorizationId =
          some row ∧ row.disabled = true
  retried : ∀ pre c mid post, calls = pre ++ c :: (mid ++ post) →
    (∃ e, (disconnect ctx userId authorizationId c
      (after ctx userId authorizationId s pre)).1 = .error e) →
    ∀ c', Healthy ctx userId authorizationId
        (after ctx userId authorizationId s (pre ++ c :: mid)) c' →
      (disconnect ctx userId authorizationId c'
        (after ctx userId authorizationId s (pre ++ c :: mid))).1 = .ok ()
  silent : ∀ pre c mid d post, calls = pre ++ c :: (mid ++ d :: post) →
    (disconnect ctx userId authorizationId c (after ctx userId authorizationId s pre)).1 = .ok () →
    (after ctx userId authorizationId s (pre ++ c :: (mid ++ [d]))).upstream.requests =
        (after ctx userId authorizationId s (pre ++ c :: mid)).upstream.requests ∧
      disconnectRows (after ctx userId authorizationId s (pre ++ c :: (mid ++ [d]))).db =
        disconnectRows (after ctx userId authorizationId s (pre ++ c :: mid)).db

/-- A row that is disabled already is gone from SnapTrade, unless no call gets
to its end; and once a call has succeeded, every further one fails at a
statement. -/
structure Unrepeated (s : Service) (calls : List Circumstances) : Prop where
  settled : Settled userId authorizationId s ∨
    ∀ c ∈ calls, ¬ (answered c.lookup = true ∧ answered c.update = true)
  once : ∀ pre c mid d post row, calls = pre ++ c :: (mid ++ d :: post) →
    authorizationRowFor (after ctx userId authorizationId s pre).db.connections userId
      authorizationId = some row → Succeeds ctx row c →
    ¬ (answered d.lookup = true ∧ answered d.update = true ∧ executed d.audit = true)

end

section
variable {ctx : BrokerContext} {userId : Uuid} {authorizationId : String} {row : Row}

/-- The state after a call of a run. -/
theorem after_snoc (s : Service) (calls : List Circumstances) (c : Circumstances) :
    after ctx userId authorizationId s (calls ++ [c]) =
      (disconnect ctx userId authorizationId c (after ctx userId authorizationId s calls)).2 := by
  rw [after, List.foldl_append]
  rfl

/-- The same after a first call and some more. -/
theorem after_append (s : Service) (pre post : List Circumstances) :
    after ctx userId authorizationId s (pre ++ post) =
      after ctx userId authorizationId (after ctx userId authorizationId s pre) post :=
  List.foldl_append

/-- After a call that returns `Ok`, every later call finds a disabled row. -/
theorem disabled_after_ok {s : Service} {pre : List Circumstances} {c : Circumstances}
    (mid : List Circumstances)
    (hrow : authorizationRowFor s.db.connections userId authorizationId = some row)
    (hok : (disconnect ctx userId authorizationId c
      (after ctx userId authorizationId s pre)).1 = .ok ()) :
    ∃ row', authorizationRowFor
        (after ctx userId authorizationId s (pre ++ c :: mid)).db.connections userId
          authorizationId = some row' ∧ row'.disabled = true := by
  obtain ⟨row₁, hrow₁, -⟩ := row_after ctx pre hrow
  obtain ⟨row₂, hrow₂, hdisabled, -⟩ := disabled_of_ok ctx c hrow₁ hok
  obtain ⟨row₃, hrow₃, hlink⟩ := row_after ctx mid hrow₂
  rw [after_append]
  exact ⟨row₃, hrow₃, hlink.disabled hdisabled⟩

/-- Calls that are not repeated after a success converge. -/
theorem converges_of_unrepeated {s : Service} {calls : List Circumstances}
    (hrow : authorizationRowFor s.db.connections userId authorizationId = some row)
    (h : Unrepeated ctx userId authorizationId s calls) :
    Converges ctx userId authorizationId s calls where
  ok pre c post hcalls hok := by
    obtain ⟨row₁, hrow₁, -⟩ := row_after ctx pre hrow
    obtain ⟨row₂, hrow₂, hdisabled, hinactive⟩ := disabled_of_ok ctx c hrow₁ hok
    have hsettled : Settled userId authorizationId s := by
      refine h.settled.resolve_right fun hnone => ?_
      obtain ⟨hreach, hupdate⟩ := (ok_iff_succeeds ctx c hrow₁).mp hok
      exact hnone c (by simp [hcalls]) ⟨hreach.1, hupdate⟩
    rw [after_snoc]
    exact ⟨row₂, hrow₂, hdisabled, hinactive,
      settled_disconnect ctx c hrow₁ (settled_after ctx pre hrow hsettled) row₂ hrow₂ hdisabled⟩
  failed pre c post hcalls hfailed := by
    obtain ⟨row₁, hrow₁, -⟩ := row_after ctx pre hrow
    have heffect := effect ctx c hrow₁
    rw [after_snoc]
    generalize disconnect ctx userId authorizationId c
      (after ctx userId authorizationId s pre) = out at heffect
    cases heffect with
    | kept e w hstop hupstream => exact Or.inl rfl
    | written w t now hreach hexecuted hupstream hremoved hrows =>
      exact Or.inr ⟨deletedRow now row₁, authorizationRowFor_deleted hrow₁ hrows, rfl⟩
  retried pre c mid post hcalls hfailed c' hhealthy := by
    obtain ⟨row₁, hrow₁, -⟩ := row_after ctx (pre ++ c :: mid) hrow
    rw [ok_iff_succeeds ctx c' hrow₁]
    exact ⟨⟨hhealthy.lookup, Or.inr ⟨hhealthy.secret row₁ hrow₁, hhealthy.removal⟩⟩,
      hhealthy.update⟩
  silent pre c mid d post hcalls hok := by
    obtain ⟨row₁, hrow₁, -⟩ := row_after ctx pre hrow
    obtain ⟨row₂, hrow₂, hdisabled⟩ := disabled_after_ok mid hrow hok
    have hlast : pre ++ c :: (mid ++ [d]) = (pre ++ c :: mid) ++ [d] := by simp
    rw [hlast, after_snoc]
    exact ⟨congrArg Upstream.requests (upstream_disconnect ctx d hrow₂ hdisabled),
      (disconnectRows_disconnect ctx d hrow₂ hdisabled).mpr
        (h.once pre c mid d post row₁ hcalls hrow₁ ((ok_iff_succeeds ctx c hrow₁).mp hok))⟩

/-- A row that is disabled while SnapTrade has its authorization stays that way,
and a call for it returns `Ok`. -/
theorem settled_of_converges {s : Service} {calls : List Circumstances}
    (hrow : authorizationRowFor s.db.connections userId authorizationId = some row)
    (h : Converges ctx userId authorizationId s calls) :
    Settled userId authorizationId s ∨
      ∀ c ∈ calls, ¬ (answered c.lookup = true ∧ answered c.update = true) := by
  refine or_iff_not_imp_right.mpr fun hsome => ?_
  simp only [not_forall, not_not] at hsome
  obtain ⟨c, hc, hlookup, hupdate⟩ := hsome
  intro row' hrow' hdisabled
  cases hrow.symm.trans hrow'
  obtain ⟨pre, post, hcalls⟩ := List.mem_iff_append.mp hc
  obtain ⟨row₁, hrow₁, hlink₁⟩ := row_after ctx pre hrow
  have hdisabled₁ := hlink₁.disabled hdisabled
  have hok := (ok_iff_succeeds ctx c hrow₁).mpr ⟨⟨hlookup, Or.inl hdisabled₁⟩, hupdate⟩
  obtain ⟨row₂, hrow₂, -, -, habsent⟩ := h.ok pre c post hcalls hok
  -- Nothing has reached SnapTrade, so what is absent now was absent before.
  obtain ⟨row₃, hrow₃, hlink₃⟩ := row_after ctx (pre ++ [c]) hrow
  cases hrow₃.symm.trans hrow₂
  have hsame := upstream_after ctx (pre ++ [c]) hrow hdisabled
  intro a ha
  refine habsent a ?_
  rw [hsame, hlink₃.snaptradeUserId]
  exact ha

/-- Calls for one id converge and are silent if and only if none is repeated
after a success and no disabled row is still linked upstream. -/
theorem converges_iff (ctx : BrokerContext) {userId : Uuid} {authorizationId : String} {row : Row}
    (s : Service) (calls : List Circumstances)
    (hrow : authorizationRowFor s.db.connections userId authorizationId = some row) :
    Converges ctx userId authorizationId s calls ↔
      Unrepeated ctx userId authorizationId s calls := by
  constructor
  · intro h
    refine ⟨settled_of_converges hrow h, ?_⟩
    intro pre c mid d post row₁ hcalls hrow₁ hsucceeds
    have hok := (ok_iff_succeeds ctx c hrow₁).mpr hsucceeds
    obtain ⟨row₂, hrow₂, hdisabled⟩ := disabled_after_ok mid hrow hok
    have hlast : pre ++ c :: (mid ++ [d]) = (pre ++ c :: mid) ++ [d] := by simp
    obtain ⟨-, hrows⟩ := h.silent pre c mid d post hcalls hok
    rw [hlast, after_snoc] at hrows
    exact (disconnectRows_disconnect ctx d hrow₂ hdisabled).mp hrows
  · exact converges_of_unrepeated hrow

end

/-! ### Alice disconnects Questrade -/

/-- Nothing is lost and SnapTrade removes. -/
def calm : Circumstances where
  lookup := .run 7 ⟨3⟩ true
  removal := .success .null
  update := .run 7 ⟨3⟩ true
  audit := .run 7 ⟨3⟩ true
  other := calmInput (aliceReply []) 7 ⟨3⟩

/-- The same, but the answer to the update does not arrive. -/
def unacknowledged : Circumstances := { calm with update := .run 7 ⟨3⟩ false }

/-- The service while Questrade is linked. -/
def aliceService (db : BrokerDb) : Service := ⟨⟨aliceList [questrade], []⟩, db⟩

theorem aliceService_row {db : BrokerDb}
    (hrows : db.connections.rows = [linkedRow "A" "questrade" "Questrade"]) :
    authorizationRowFor (aliceService db).db.connections alice "A" =
      some (linkedRow "A" "questrade" "Questrade") := by
  show authorizationRowFor db.connections alice "A" = _
  rw [authorizationRowFor, hrows]
  decide

/-- A call that disables the row and fails, and then one that goes through. -/
theorem converges_iff_retry :
    ∃ s, run (brokerNext aliceContext) brokerInit linkQuestrade = some s ∧
      Converges aliceContext alice "A" (aliceService s.state) [unacknowledged, calm] := by
  obtain ⟨s, hs, hrows⟩ := Option.map_eq_some_iff.mp linkQuestrade_rows
  have hrow := aliceService_row hrows
  refine ⟨s, hs, (converges_iff aliceContext (aliceService s.state) [unacknowledged, calm]
    hrow).mpr ⟨Or.inl ?_, ?_⟩⟩
  · intro row' hrow' hdisabled
    cases hrow.symm.trans hrow'
    cases hdisabled
  · intro pre c mid d post row' hcalls _ hsucceeds
    have hlength := congrArg List.length hcalls
    simp only [List.length_cons, List.length_append, List.length_nil] at hlength
    obtain rfl : pre = [] := List.eq_nil_of_length_eq_zero (by omega)
    obtain ⟨rfl, -⟩ := List.cons.inj hcalls
    exact absurd hsucceeds.2 (by decide)

/-- Two healthy calls: the second writes an event of its own. -/
theorem repeated_disconnect_recorded :
    ∃ s, run (brokerNext aliceContext) brokerInit linkQuestrade = some s ∧
      authorizationRowFor s.state.connections alice "A" =
        some (linkedRow "A" "questrade" "Questrade") ∧
      ¬ Converges aliceContext alice "A" (aliceService s.state) [calm, calm] := by
  obtain ⟨s, hs, hrows⟩ := Option.map_eq_some_iff.mp linkQuestrade_rows
  have hrow := aliceService_row hrows
  refine ⟨s, hs, hrow, ?_⟩
  intro h
  have hok : (disconnect aliceContext alice "A" calm
      (after aliceContext alice "A" (aliceService s.state) [])).1 = .ok () :=
    (ok_iff_succeeds aliceContext calm hrow).mpr ⟨⟨rfl, Or.inr ⟨by decide, rfl⟩⟩, rfl⟩
  obtain ⟨-, hevents⟩ := h.silent [] calm [] calm [] rfl hok
  obtain ⟨row', hrow', hdisabled, -⟩ := disabled_of_ok aliceContext calm hrow hok
  exact (disconnectRows_disconnect aliceContext calm hrow' hdisabled).mp hevents
    ⟨rfl, rfl, rfl⟩

end MizanConnect.Proofs.Snaptrade.Disconnects
