import MizanConnect.Auth.Jwks

/-!
# `MizanConnect.Health`: the readiness endpoint

`ready` of `src/health.rs`, over `JwksCache::snapshot` of `src/auth/jwks.rs`. What
comes of the ping of the database within its two seconds is a parameter.
-/

set_option autoImplicit false

namespace MizanConnect.Health

open Auth (CacheState)

variable {Key : Type}

/-! ### The snapshot of the key cache -/

/-- `STALE_AFTER`, in seconds. -/
def staleAfter : Int := 60 * 60 * 24

/-- `JwksSnapshot`. -/
structure JwksSnapshot where
  keyCount : Nat
  fetchedAt : Option Timestamp
  stale : Bool
  lastError : Option String
deriving DecidableEq, Repr

/-- `JwksCache::snapshot` at `now`. -/
def snapshot (now : Timestamp) (state : CacheState Key) : JwksSnapshot where
  keyCount := state.keys.length
  fetchedAt := state.fetchedAt
  stale := match state.fetchedAt with
    | some t => decide (now - t > staleAfter)
    | none => true
  lastError := state.lastError

/-! ### The answer -/

/-- `ComponentStatus`. -/
structure ComponentStatus where
  healthy : Bool
  detail : Option String
deriving DecidableEq, Repr

/-- `ReadyResponse`. -/
structure ReadyResponse where
  status : String
  db : ComponentStatus
  jwks : ComponentStatus
deriving DecidableEq, Repr

/-- What comes of `SELECT 1`. -/
inductive Ping where
  | answered
  | failed (err : String)
  | elapsed
deriving DecidableEq, Repr

/-- The database component. -/
def dbStatus : Ping → ComponentStatus
  | .answered => ⟨true, none⟩
  | .failed err => ⟨false, some ("query: " ++ err)⟩
  | .elapsed => ⟨false, some "timed out after 2s"⟩

/-- The JWKS component. -/
def jwksStatus (snapshot : JwksSnapshot) : ComponentStatus :=
  if snapshot.keyCount > 0 && !snapshot.stale then ⟨true, none⟩
  else
    ⟨false, snapshot.lastError.or
      (some (if snapshot.keyCount = 0 then "no keys cached" else "cache stale"))⟩

/-- `ready` at `now`: the status code and the body. -/
def ready (ping : Ping) (now : Timestamp) (state : CacheState Key) : Nat × ReadyResponse :=
  let db := dbStatus ping
  let jwks := jwksStatus (snapshot now state)
  let healthy := db.healthy && jwks.healthy
  (if healthy then 200 else 503,
    { status := if healthy then "ready" else "not_ready", db, jwks })

end MizanConnect.Health
