import MizanConnect.Auth.Jwks
import MizanConnect.Lib.Run

/-!
# `MizanConnect.Auth.JwksTasks`: the key cache under its tasks

`refresh` and `find_key` of `src/auth/jwks.rs`, cut at the points where they
take the lock. Between two of them other tasks run: the warm-up, the hourly
refresher and any number of requests share the cache. A refresh holds no lock
while its request is out. `findKey_alone` connects the cut lookup to
`Auth.findKey`.

`Sys.seen` records the replies that refreshes acted on, in order. No task reads
it.
-/

set_option autoImplicit false

namespace MizanConnect.Auth.JwksTasks

variable {Key : Type}

/-- A refresh: before its request, with the reply, or over. -/
inductive RefreshPhase where
  | started
  | fetched (fetch : Fetch)
  | finished (result : Except JwksError Unit)

/-- A lookup: before it looks whether the cache is empty, in its lazy refresh,
before it takes the key, or over. -/
inductive FindPhase (Key : Type) where
  | started
  | refreshing (phase : RefreshPhase)
  | looking
  | finished (answer : Except AppError (DecodingKeyMatch Key))

/-- What is called. -/
inductive Task where
  | refresh
  | findKey (kid : Option String)

/-- A call and where it is. -/
inductive Job (Key : Type) where
  | refresh (phase : RefreshPhase)
  | findKey (kid : Option String) (phase : FindPhase Key)

/-- A new call. -/
def Task.start : Task → Job Key
  | .refresh => .refresh .started
  | .findKey kid => .findKey kid .started

/-- The cache, the calls, and the replies that were acted on. -/
structure Sys (Key : Type) where
  cache : CacheState Key
  jobs : List (Job Key)
  seen : List Fetch

/-- A call comes in, or one goes on. `fetch` is what a request for the document
is answered with. -/
inductive Action where
  | spawn (task : Task)
  | advance (i : Nat) (fetch : Fetch)

/-- What a step leaves: the call, the cache, and the reply it acted on. -/
structure Outcome (α Key : Type) where
  phase : α
  cache : CacheState Key
  acted : List Fetch

/-- The next step of a refresh. -/
def stepRefresh (jwt : Jsonwebtoken Key) (fetch : Fetch) (cache : CacheState Key) :
    RefreshPhase → Option (Outcome RefreshPhase Key)
  | .started => some ⟨.fetched fetch, cache, []⟩
  | .fetched reply =>
    -- The document is parsed, and the lock is taken once for the write.
    let settled := Auth.refresh jwt reply cache
    some ⟨.finished settled.1, settled.2, [reply]⟩
  | .finished _ => none

/-- The end of `find_key`, on the keys under the lock. -/
def answerOf (keys : List (JwkEntry Key)) (kid : Option String) :
    Except AppError (DecodingKeyMatch Key) :=
  match selectEntry keys kid with
  | some entry => .ok { algorithm := entry.algorithm, decodingKey := entry.decodingKey }
  | none => .error (.unauthorized "unknown signing key")

/-- The next step of a lookup. -/
def stepFind (jwt : Jsonwebtoken Key) (fetch : Fetch) (cache : CacheState Key)
    (kid : Option String) : FindPhase Key → Option (Outcome (FindPhase Key) Key)
  | .started => some ⟨if cache.keys.isEmpty then .refreshing .started else .looking, cache, []⟩
  -- A lazy refresh that failed is only logged.
  | .refreshing (.finished _) => some ⟨.looking, cache, []⟩
  | .refreshing phase =>
    (stepRefresh jwt fetch cache phase).map fun out => { out with phase := .refreshing out.phase }
  | .looking => some ⟨.finished (answerOf cache.keys kid), cache, []⟩
  | .finished _ => none

/-- The next step of a call. -/
def stepJob (jwt : Jsonwebtoken Key) (fetch : Fetch) (cache : CacheState Key) :
    Job Key → Option (Outcome (Job Key) Key)
  | .refresh phase =>
    (stepRefresh jwt fetch cache phase).map fun out => { out with phase := .refresh out.phase }
  | .findKey kid phase =>
    (stepFind jwt fetch cache kid phase).map fun out => { out with phase := .findKey kid out.phase }

/-- One step. -/
def next (jwt : Jsonwebtoken Key) (s : Sys Key) : Action → Option (Sys Key)
  | .spawn task => some { s with jobs := s.jobs ++ [task.start] }
  | .advance i fetch => do
    let job ← s.jobs[i]?
    let out ← stepJob jwt fetch s.cache job
    return ⟨out.cache, s.jobs.set i out.phase, s.seen ++ out.acted⟩

/-- `JwksCache::new`. -/
def Sys.init : Sys Key := ⟨.empty, [], []⟩

/-! ### A lookup alone -/

/-- The cut lookup is the one in one piece. -/
theorem findKey_eq (jwt : Jsonwebtoken Key) (fetch : Fetch) (state : CacheState Key)
    (kid : Option String) :
    findKey jwt fetch state kid =
      (answerOf (lookupState jwt fetch state).keys kid, lookupState jwt fetch state) := by
  unfold findKey answerOf
  dsimp only
  cases selectEntry (lookupState jwt fetch state).keys kid with
  | none => rfl
  | some entry => rfl

/-- A lookup that runs alone ends as `Auth.findKey`. -/
theorem findKey_alone (jwt : Jsonwebtoken Key) (fetch : Fetch) (cache : CacheState Key)
    (seen : List Fetch) (kid : Option String) :
    ∃ n seen', Transition.run (next jwt) ⟨cache, [.findKey kid .started], seen⟩
        (List.replicate n (.advance 0 fetch)) =
      some ⟨(findKey jwt fetch cache kid).2,
        [.findKey kid (.finished (findKey jwt fetch cache kid).1)], seen'⟩ := by
  rw [findKey_eq]
  unfold lookupState
  cases hempty : cache.keys.isEmpty with
  | true =>
    -- The check, the request, the write, the end of the refresh, and the key.
    refine ⟨5, seen ++ [] ++ [] ++ [fetch] ++ [] ++ [], ?_⟩
    simp [List.replicate, Transition.run, next, stepJob, stepFind, stepRefresh, hempty]
  | false =>
    refine ⟨2, seen ++ [] ++ [], ?_⟩
    simp [List.replicate, Transition.run, next, stepJob, stepFind, hempty]

end MizanConnect.Auth.JwksTasks
