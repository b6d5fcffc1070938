import MizanConnect.Types
import Mathlib.Logic.Function.Basic

/-!
# `MizanConnect.Snaptrade.RateLimit`: the limit on the login portal

`LoginPortalLimiter` of `src/snaptrade/rate_limit.rs`. Instants and durations
are in nanoseconds, the resolution of `OffsetDateTime`. A check and a sweep read
the clock first and then take the mutex for the rest of their work, so the map
sees one call after the other, in the order of the lock. `now` is what the call
has read, and a call that waited for the lock has an older one.
-/

set_option autoImplicit false

namespace MizanConnect.Snaptrade.RateLimit

/-- An instant or a duration, in nanoseconds. -/
abbrev Nanos := Int

/-- `WINDOW`: one hour. -/
def WINDOW : Nanos := 3600 * 1000000000

/-- `MAX_PER_WINDOW`. -/
def MAX_PER_WINDOW : Nat := 10

/-- `LoginPortalLimiter`: the map under the mutex. -/
abbrev LoginPortalLimiter := Uuid → Option (List Nanos)

/-- `LoginPortalLimiter::new`. -/
def LoginPortalLimiter.new : LoginPortalLimiter := fun _ => none

/-- `LoginPortalLimiter::check` at `now`: its verdict, with the time to wait on
a refusal, and the map. -/
def LoginPortalLimiter.check (map : LoginPortalLimiter) (userId : Uuid) (now : Nanos) :
    Except Nanos Unit × LoginPortalLimiter :=
  let cutoff := now - WINDOW
  let slots := (map userId).getD []
  let slots := slots.filter fun t => decide (cutoff < t)
  if MAX_PER_WINDOW ≤ slots.length then
    let oldest := slots.head?.getD now
    let retryAfter := oldest + WINDOW - now
    (.error (max retryAfter 0), Function.update map userId (some slots))
  else (.ok (), Function.update map userId (some (slots ++ [now])))

/-- `LoginPortalLimiter::sweep` at `now`. -/
def LoginPortalLimiter.sweep (map : LoginPortalLimiter) (now : Nanos) : LoginPortalLimiter :=
  let cutoff := now - WINDOW
  fun userId => (map userId).bind fun slots =>
    let slots := slots.filter fun t => decide (cutoff < t)
    if slots.isEmpty then none else some slots

/-! ### Sequences of calls -/

/-- What is called. -/
inductive Request where
  | check (userId : Uuid)
  | sweep
deriving DecidableEq, Repr

/-- A call, and the time that it reads off the clock. -/
structure Call where
  now : Nanos
  request : Request
deriving DecidableEq, Repr

/-- The map after one call. -/
def LoginPortalLimiter.call (map : LoginPortalLimiter) (c : Call) : LoginPortalLimiter :=
  match c.request with
  | .check userId => (map.check userId c.now).2
  | .sweep => map.sweep c.now

/-- The map after the calls, from an empty one. -/
def after (calls : List Call) : LoginPortalLimiter :=
  calls.foldl LoginPortalLimiter.call .new

/-- The call `c`, made on the map, is a check of the user that is let in. -/
def LoginPortalLimiter.admits (map : LoginPortalLimiter) (userId : Uuid) (c : Call) : Bool :=
  match c.request with
  | .check u => u == userId && (map.check userId c.now).1.isOk
  | .sweep => false

/-- The times of the checks of the user that were let in, oldest first, among
calls made from `map` on. -/
def admissionsFrom (userId : Uuid) (map : LoginPortalLimiter) : List Call → List Nanos
  | [] => []
  | c :: calls =>
    (if map.admits userId c then [c.now] else []) ++ admissionsFrom userId (map.call c) calls

/-- The times of the checks of the user that were let in, oldest first. -/
def admissions (userId : Uuid) (calls : List Call) : List Nanos :=
  admissionsFrom userId .new calls

/-- The reply of a check of the user at `now`, after the calls. -/
def reply (calls : List Call) (userId : Uuid) (now : Nanos) : Except Nanos Unit :=
  ((after calls).check userId now).1

end MizanConnect.Snaptrade.RateLimit
