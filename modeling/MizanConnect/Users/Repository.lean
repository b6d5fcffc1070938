import MizanConnect.Error
import MizanConnect.Types

/-!
# `MizanConnect.Users.Repository`: the table `users`

`src/users/model.rs` and the statement of `src/users/repository.rs`, over
the table of the migration 0001. The trigger `trg_users_updated_at` sets
`updated_at` on every update.
-/

set_option autoImplicit false

namespace MizanConnect.Users

open Sql (Schema Table Violation uniqueOn)

/-- `User`: a row of `users`. -/
structure User where
  id : Uuid
  supabaseUserId : Uuid
  email : String
  displayName : Option String
  avatarUrl : Option String
  createdAt : Timestamp
  updatedAt : Timestamp
  deletedAt : Option Timestamp
deriving DecidableEq, Repr

/-- `users`: `supabase_user_id` is unique. -/
def users : Schema User Uuid where
  key := User.id
  violation _ := none
  clash := uniqueOn fun u => some u.supabaseUserId
  clash_comm a b := Sql.uniqueOn_comm _ a b

namespace Repository

/-- `WHERE id = $1 AND deleted_at IS NULL`. -/
def isLive (id : Uuid) (u : User) : Bool := u.id = id && u.deletedAt = none

/-- `SET display_name = COALESCE($2, display_name)`. -/
def renamed (now : Timestamp) (displayName : Option String) (u : User) : User :=
  { u with displayName := displayName.or u.displayName, updatedAt := now }

/-- `update_display_name`. -/
def updateDisplayName (t : Table users) (now : Timestamp) (id : Uuid)
    (displayName : Option String) : Except DbError (Table users × User) :=
  fetchOne t (.ok (t.updated (isLive id) (renamed now displayName)))

end Repository

end MizanConnect.Users
