import MizanConnect.Error
import MizanConnect.Lib.Best
import MizanConnect.Types

/-!
# `MizanConnect.Snaptrade.Repository`: `broker_connections` and the audit log

`src/snaptrade/repository.rs` and the writer of `src/audit/repository.rs`,
over the tables of the migrations 0001 and 0002. The columns that no query
reads or writes (`last_synced_at`, `last_sync_status`, `last_sync_error`,
`account_count`) are left out, and so is the foreign key to `users`.
-/

set_option autoImplicit false

namespace MizanConnect.Snaptrade

open Sql (Schema Table Violation uniqueOn)

/-! ### The tables -/

namespace BrokerConnections

/-- A row of `broker_connections`. -/
structure Row where
  id : Uuid
  userId : Uuid
  snaptradeUserId : String
  snaptradeUserSecretEncrypted : List UInt8
  snaptradeAuthorizationId : Option String
  institutionName : Option String
  isActive : Bool
  createdAt : Timestamp
  updatedAt : Timestamp
  connectionType : String
  brokerSlug : Option String
  disabled : Bool
deriving DecidableEq, Repr

/-- `connection_type = 'snaptrade'`. -/
def isSnaptrade (r : Row) : Bool := r.connectionType = "snaptrade"

/-- `connection_type = 'snaptrade' AND is_active = TRUE`. -/
def isActiveSnaptrade (r : Row) : Bool := isSnaptrade r && r.isActive

/-- `uq_broker_conn_user_snaptrade` and `uq_broker_conn_snaptrade_uid`. -/
def clash (a b : Row) : Bool :=
  uniqueOn (fun r => if isActiveSnaptrade r then some r.userId else none) a b ||
    uniqueOn (fun r => if isSnaptrade r then some r.snaptradeUserId else none) a b

theorem clash_comm (a b : Row) : clash a b = clash b a := by
  unfold clash
  rw [Sql.uniqueOn_comm (fun r => if isActiveSnaptrade r then some r.userId else none) a b,
    Sql.uniqueOn_comm _ a b]

/-- `broker_connections` after the migration 0002. -/
def schema : Schema Row Uuid where
  key := Row.id
  violation _ := none
  clash := clash
  clash_comm := clash_comm

end BrokerConnections

/-- A row of `audit_log` that this module writes (`ip_address` and
`user_agent` stay NULL). -/
structure AuditEvent where
  userId : Option Uuid
  eventType : String
  eventData : Json

/-- The tables of the SnapTrade flow. -/
structure BrokerDb where
  connections : Table BrokerConnections.schema
  audit : List AuditEvent

/-- `audit::record_event`. -/
def BrokerDb.recordEvent (db : BrokerDb) (event : AuditEvent) : BrokerDb :=
  { db with audit := db.audit ++ [event] }

/-! ### The queries -/

namespace Repository

open BrokerConnections (Row schema isSnaptrade isActiveSnaptrade)

/-- `StoredConnection`: the columns the lookups select. -/
structure StoredConnection where
  id : Uuid
  userId : Uuid
  snaptradeUserId : String
  snaptradeUserSecretEncrypted : List UInt8
  snaptradeAuthorizationId : Option String
  brokerSlug : Option String
  institutionName : Option String
  isActive : Bool
  disabled : Bool

/-- The columns of a row that the lookups select. -/
def StoredConnection.ofRow (r : Row) : StoredConnection where
  id := r.id
  userId := r.userId
  snaptradeUserId := r.snaptradeUserId
  snaptradeUserSecretEncrypted := r.snaptradeUserSecretEncrypted
  snaptradeAuthorizationId := r.snaptradeAuthorizationId
  brokerSlug := r.brokerSlug
  institutionName := r.institutionName
  isActive := r.isActive
  disabled := r.disabled

/-- `WHERE user_id = $1 AND connection_type = 'snaptrade'`. -/
def snaptradeFor (userId : Uuid) (r : Row) : Bool := r.userId = userId && isSnaptrade r

/-- `ORDER BY created_at DESC LIMIT 1`. Rows that tie keep the table order. -/
def newest (rows : List Row) : Option Row :=
  Best.best (fun new old => decide (old.createdAt < new.createdAt)) rows

/-- The row that `insert_pending` proposes. -/
def pendingRow (now : Timestamp) (newId userId : Uuid) (snaptradeUserId : String)
    (snaptradeUserSecretEncrypted : List UInt8) : Row where
  id := newId
  userId := userId
  snaptradeUserId := snaptradeUserId
  snaptradeUserSecretEncrypted := snaptradeUserSecretEncrypted
  snaptradeAuthorizationId := none
  institutionName := none
  isActive := false
  createdAt := now
  updatedAt := now
  connectionType := "snaptrade"
  brokerSlug := none
  disabled := false

/-- `insert_pending`. -/
def insertPending (t : Table schema) (userId : Uuid) (snaptradeUserId : String)
    (snaptradeUserSecretEncrypted : List UInt8) (now : Timestamp) (newId : Uuid) :
    Except Violation (Table schema × Uuid) :=
  (t.insert (pendingRow now newId userId snaptradeUserId snaptradeUserSecretEncrypted)).map
    fun t' => (t', newId)

/-- The row that `fetch_active_for_user` finds. -/
def activeRowFor (t : Table schema) (userId : Uuid) : Option Row :=
  t.rows.find? fun r => snaptradeFor userId r && r.isActive

/-- `fetch_active_for_user`. -/
def fetchActiveForUser (t : Table schema) (userId : Uuid) : Option StoredConnection :=
  (activeRowFor t userId).map StoredConnection.ofRow

/-- The row that `fetch_any_for_user` finds. -/
def anyRowFor (t : Table schema) (userId : Uuid) : Option Row :=
  newest (t.rows.filter (snaptradeFor userId))

/-- `fetch_any_for_user`. -/
def fetchAnyForUser (t : Table schema) (userId : Uuid) : Option StoredConnection :=
  (anyRowFor t userId).map StoredConnection.ofRow

/-- `SET` of `mark_completed`. -/
def completedRow (now : Timestamp) (authorizationId : String)
    (brokerSlug institutionName : Option String) (r : Row) : Row :=
  { r with
    snaptradeAuthorizationId := some authorizationId
    brokerSlug := brokerSlug.or r.brokerSlug
    institutionName := institutionName.or r.institutionName
    isActive := true
    disabled := false
    updatedAt := now }

/-- `mark_completed`. -/
def markCompleted (t : Table schema) (now : Timestamp) (connectionId : Uuid)
    (authorizationId : String) (brokerSlug institutionName : Option String) :
    Except Violation (Table schema) :=
  t.updateWhere (fun r => r.id = connectionId)
    (completedRow now authorizationId brokerSlug institutionName)

/-- `SET` of `soft_delete`. -/
def deletedRow (now : Timestamp) (r : Row) : Row :=
  { r with isActive := false, disabled := true, updatedAt := now }

/-- `WHERE id = $1 AND user_id = $2 AND connection_type = 'snaptrade'`. -/
def ownedBy (userId connectionId : Uuid) (r : Row) : Bool :=
  r.id = connectionId && snaptradeFor userId r

/-- `soft_delete`, with the number of rows it affects. -/
def softDelete (t : Table schema) (userId connectionId : Uuid) (now : Timestamp) :
    Except Violation (Table schema × Nat) :=
  (t.updateWhere (ownedBy userId connectionId) (deletedRow now)).map fun t' =>
    (t', (t.rows.filter (ownedBy userId connectionId)).length)

/-- `WHERE snaptrade_authorization_id = $1 AND user_id = $2 AND connection_type
= 'snaptrade'`. -/
def authorizedFor (userId : Uuid) (authorizationId : String) (r : Row) : Bool :=
  r.snaptradeAuthorizationId = some authorizationId && snaptradeFor userId r

/-- The row that `fetch_by_authorization_id_for_user` finds. -/
def authorizationRowFor (t : Table schema) (userId : Uuid) (authorizationId : String) :
    Option Row :=
  t.rows.find? (authorizedFor userId authorizationId)

/-- `fetch_by_authorization_id_for_user`. -/
def fetchByAuthorizationIdForUser (t : Table schema) (userId : Uuid)
    (authorizationId : String) : Option StoredConnection :=
  (authorizationRowFor t userId authorizationId).map StoredConnection.ofRow

end Repository

end MizanConnect.Snaptrade
