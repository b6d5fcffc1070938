import MizanConnect.Health
import MizanConnect.Proofs.Auth.JwksSnapshot

/-!
# `MizanConnect.Proofs.Auth.Readiness`: what `/ready` says about the keys

`ready` reads the cache at one moment, between any steps of the warm-up, the hourly
refresher and the lazy fetches. The cache has no more in it than two replies: the
last one with a usable entry and the last one of all (`cacheOf`, `cache_run`). So
`readiness_iff` is a statement about the replies that came in.
-/

set_option autoImplicit false

namespace MizanConnect.Proofs.Auth

open MizanConnect.Auth
open MizanConnect.Auth.JwksTasks
open MizanConnect.Health
open Transition (run)

section
variable {Key : Type}

/-- The last reply that had a usable entry. -/
def lastGoodReply (jwt : Jsonwebtoken Key) (seen : List Fetch) : Option Fetch :=
  (seen.filter fun reply => !(usable jwt reply).isEmpty).getLast?

/-- The error that a reply leaves. -/
def failure (jwt : Jsonwebtoken Key) (reply : Fetch) : Option String :=
  if (usable jwt reply).isEmpty then
    some (match reply.reply with
      | .error text => text
      | .ok _ => "empty JWKS document")
  else none

/-- The cache after the replies. -/
def cacheOf (jwt : Jsonwebtoken Key) (seen : List Fetch) : CacheState Key where
  keys := ((lastGoodReply jwt seen).map (usable jwt)).getD []
  fetchedAt := (lastGoodReply jwt seen).map Fetch.time
  lastError := seen.getLast?.bind (failure jwt)

/-- The last good reply is at most a day old. -/
def Fresh (jwt : Jsonwebtoken Key) (seen : List Fetch) (now : Timestamp) : Prop :=
  ∃ good, lastGoodReply jwt seen = some good ∧ now ≤ good.time + staleAfter

/-- What is amiss with the keys when the last good reply is not fresh: the last error, or
else which of the two it is. -/
def keysDetail (jwt : Jsonwebtoken Key) (seen : List Fetch) : String :=
  (seen.getLast?.bind (failure jwt)).getD
    (if (lastGoodReply jwt seen).isSome then "cache stale" else "no keys cached")

variable {jwt : Jsonwebtoken Key} {seen : List Fetch} {reply : Fetch} {s s' : Sys Key}
  {a : Action} {as : List Action} {now : Timestamp}

theorem lastGoodReply_concat_bad (h : usable jwt reply = []) :
    lastGoodReply jwt (seen ++ [reply]) = lastGoodReply jwt seen := by
  simp [lastGoodReply, h]

theorem lastGoodReply_concat_good (h : usable jwt reply ≠ []) :
    lastGoodReply jwt (seen ++ [reply]) = some reply := by
  simp [lastGoodReply, h]

theorem usable_of_lastGoodReply {good : Fetch} (h : lastGoodReply jwt seen = some good) :
    usable jwt good ≠ [] := by
  have hmem := List.mem_filter.mp (List.mem_of_getLast? h)
  simpa using hmem.2

/-! ### The cache and the replies -/

/-- A refresh brings the cache to the next reply. -/
theorem refresh_cacheOf (jwt : Jsonwebtoken Key) (seen : List Fetch) (reply : Fetch) :
    (refresh jwt reply (cacheOf jwt seen)).2 = cacheOf jwt (seen ++ [reply]) := by
  by_cases hbad : usable jwt reply = []
  · -- Nothing usable: only the error is new.
    have hrest : cacheOf jwt (seen ++ [reply])
        = { cacheOf jwt seen with lastError := failure jwt reply } := by
      simp [cacheOf, lastGoodReply_concat_bad hbad]
    rw [hrest]
    unfold refresh failure
    unfold usable at hbad ⊢
    cases hreply : reply.reply with
    | error text => simp
    | ok document =>
      rw [hreply] at hbad
      simp [hbad]
  · rcases refresh_eq jwt reply (cacheOf jwt seen) with ⟨hnone, -⟩ | ⟨-, heq⟩
    · exact absurd hnone hbad
    · rw [heq]
      simp [cacheOf, lastGoodReply_concat_good hbad, failure, hbad]

/-- A step keeps the cache at the replies that were acted on. -/
theorem cacheOf_next (h : next jwt s a = some s') (hs : s.cache = cacheOf jwt s.seen) :
    s'.cache = cacheOf jwt s'.seen := by
  cases a with
  | spawn task =>
    cases h
    exact hs
  | advance i fetch =>
    obtain ⟨job, out, -, hout, rfl⟩ := next_advance h
    rcases stepJob_cases hout with ⟨hcache, hacted⟩ | ⟨reply, hacted, hcache⟩
    · rw [hcache, hacted, List.append_nil]
      exact hs
    · rw [hcache, hacted, hs]
      exact refresh_cacheOf jwt s.seen reply

/-- The cache of a run is that of its replies. -/
theorem cache_run (hrun : run (next jwt) Sys.init as = some s) : s.cache = cacheOf jwt s.seen :=
  Transition.run_invariant (P := fun s : Sys Key => s.cache = cacheOf jwt s.seen)
    (fun _ _ _ hs _ h => cacheOf_next h hs) rfl (Transition.along_true _ as) hrun

/-- The replies of a run only grow, by what its steps have acted on. -/
theorem seen_run {bs : List Action} (hrun : run (next jwt) s bs = some s') :
    ∃ replies, s'.seen = s.seen ++ replies := by
  refine Transition.run_invariant (P := fun x : Sys Key => ∃ replies, x.seen = s.seen ++ replies)
    ?_ ⟨[], by simp⟩ (Transition.along_true _ bs) hrun
  rintro x a x' ⟨replies, hx⟩ - hnext
  rcases next_cases hnext with ⟨hseen, -⟩ | ⟨reply, hseen, -⟩
  · exact ⟨replies, hseen.trans hx⟩
  · exact ⟨replies ++ [reply], by rw [hseen, hx, List.append_assoc]⟩

/-! ### The two components -/

/-- `JwksCache::snapshot` calls a document stale that is more than a day old. -/
theorem stale_iff (now time : Int) : now - time > staleAfter ↔ ¬ now ≤ time + staleAfter := by
  omega

/-- The keys are healthy when the last good reply is fresh. Otherwise the detail is
the last error, or says which of the two is amiss. -/
theorem jwksStatus_cacheOf (jwt : Jsonwebtoken Key) (seen : List Fetch) (now : Timestamp) :
    (Fresh jwt seen now ∧ jwksStatus (snapshot now (cacheOf jwt seen)) = ⟨true, none⟩) ∨
    (¬ Fresh jwt seen now ∧ jwksStatus (snapshot now (cacheOf jwt seen)) =
      ⟨false, some (keysDetail jwt seen)⟩) := by
  unfold keysDetail
  cases hgood : lastGoodReply jwt seen with
  | none =>
    refine Or.inr ⟨fun ⟨good, hsome, _⟩ => (nomatch hgood.symm.trans hsome), ?_⟩
    simp only [jwksStatus, snapshot, cacheOf, hgood]
    cases seen.getLast?.bind (failure jwt) <;> rfl
  | some good =>
    have hlength : (usable jwt good).length ≠ 0 := fun h =>
      usable_of_lastGoodReply hgood (List.length_eq_zero_iff.mp h)
    by_cases hfresh : now ≤ good.time + staleAfter
    · refine Or.inl ⟨⟨good, hgood, hfresh⟩, ?_⟩
      have hage : ¬ now - good.time > staleAfter := fun h => (stale_iff _ _).mp h hfresh
      simp [jwksStatus, snapshot, cacheOf, hgood, hage, Nat.pos_of_ne_zero hlength]
    · refine Or.inr ⟨?_, ?_⟩
      · rintro ⟨other, hother, hle⟩
        cases hgood.symm.trans hother
        exact hfresh hle
      · have hage : now - good.time > staleAfter := (stale_iff _ _).mpr hfresh
        simp only [jwksStatus, snapshot, cacheOf, hgood, hage, Option.map_some, Option.getD_some,
          Option.isSome_some, hlength]
        cases seen.getLast?.bind (failure jwt) <;> simp

/-- The database is healthy when it has answered. -/
theorem dbStatus_healthy (ping : Ping) : (dbStatus ping).healthy = true ↔ ping = .answered := by
  cases ping <;> simp [dbStatus]

/-- With fresh keys it is the database that decides. -/
theorem ready_fresh (hfresh : Fresh jwt seen now) (ping : Ping) :
    ready ping now (cacheOf jwt seen) =
      (if (dbStatus ping).healthy then 200 else 503,
        ⟨if (dbStatus ping).healthy then "ready" else "not_ready", dbStatus ping,
          ⟨true, none⟩⟩) := by
  rcases jwksStatus_cacheOf jwt seen now with ⟨-, hjwks⟩ | ⟨hold, -⟩
  · simp [ready, hjwks]
  · exact absurd hfresh hold

/-- Without, nothing does. -/
theorem ready_stale (hold : ¬ Fresh jwt seen now) (ping : Ping) :
    ready ping now (cacheOf jwt seen) =
      (503, ⟨"not_ready", dbStatus ping, ⟨false, some (keysDetail jwt seen)⟩⟩) := by
  rcases jwksStatus_cacheOf jwt seen now with ⟨hfresh, -⟩ | ⟨-, hjwks⟩
  · exact absurd hfresh hold
  · simp [ready, hjwks]

/-- Replies without a usable entry leave the last good one. -/
theorem lastGoodReply_append_bad {replies : List Fetch}
    (h : ∀ reply ∈ replies, usable jwt reply = []) :
    lastGoodReply jwt (seen ++ replies) = lastGoodReply jwt seen := by
  have hnone : replies.filter (fun reply => !(usable jwt reply).isEmpty) = [] :=
    List.filter_eq_nil_iff.mpr fun reply hreply => by simp [h reply hreply]
  rw [lastGoodReply, List.filter_append, hnone, List.append_nil, lastGoodReply]

/-! ### The theorem -/

/-- In every state of every run of refreshes and lookups, in any order of their steps
and with any replies, `/ready` answers 200 exactly when the database has answered and
the last document with a usable key is at most a day old, and 503 otherwise. The body
has what came of the ping, and of the keys that they are healthy or else what is amiss
with them. Refreshes that bring no usable key change no more of the answer than that
detail. -/
theorem readiness_iff (jwt : Jsonwebtoken Key) (hrun : run (next jwt) Sys.init as = some s)
    (ping : Ping) (now : Timestamp) :
    ((ready ping now s.cache).1 = 200 ↔ ping = .answered ∧ Fresh jwt s.seen now) ∧
    ((ready ping now s.cache).1 = 200 ∨ (ready ping now s.cache).1 = 503) ∧
    (ready ping now s.cache).2.db = dbStatus ping ∧
    (Fresh jwt s.seen now → (ready ping now s.cache).2.jwks = ⟨true, none⟩) ∧
    (¬ Fresh jwt s.seen now →
      (ready ping now s.cache).2.jwks = ⟨false, some (keysDetail jwt s.seen)⟩) ∧
    ∀ bs s', run (next jwt) s bs = some s' →
      (∀ reply ∈ s'.seen.drop s.seen.length, usable jwt reply = []) →
      (ready ping now s'.cache).1 = (ready ping now s.cache).1 ∧
        ∃ detail, (ready ping now s'.cache).2 = { (ready ping now s.cache).2 with
          jwks := { (ready ping now s.cache).2.jwks with detail } } := by
  rw [cache_run hrun]
  refine ⟨?_, ?_, rfl, ?_, ?_, ?_⟩
  · rw [← dbStatus_healthy]
    by_cases hfresh : Fresh jwt s.seen now
    · rw [ready_fresh hfresh]
      cases (dbStatus ping).healthy <;> simp [hfresh]
    · rw [ready_stale hfresh]
      simp [hfresh]
  · by_cases hfresh : Fresh jwt s.seen now
    · rw [ready_fresh hfresh]
      cases (dbStatus ping).healthy <;> simp
    · rw [ready_stale hfresh]
      exact Or.inr rfl
  · intro hfresh
    rw [ready_fresh hfresh]
  · intro hold
    rw [ready_stale hold]
  · intro bs s' hbs hbad
    obtain ⟨replies, hseen⟩ := seen_run hbs
    rw [hseen, List.drop_left] at hbad
    have hkeys : Fresh jwt s'.seen now ↔ Fresh jwt s.seen now := by
      rw [hseen, Fresh, lastGoodReply_append_bad hbad, Fresh]
    rw [cache_run (Transition.run_append.mpr ⟨s, hrun, hbs⟩)]
    -- The two states agree on whether the keys are fresh.
    by_cases hfresh : Fresh jwt s.seen now
    · rw [ready_fresh hfresh, ready_fresh (hkeys.mpr hfresh)]
      exact ⟨rfl, none, rfl⟩
    · rw [ready_stale hfresh, ready_stale fun h => hfresh (hkeys.mp h)]
      exact ⟨rfl, some (keysDetail jwt s'.seen), rfl⟩

end

/-- `readiness_iff` a day after the good document of `partialRun`, and a second
later. -/
theorem readiness_iff_partial :
    ∃ s, run (next ecLibrary) Sys.init partialRun = some s ∧
      (ready .answered 86400 s.cache).1 = 200 ∧
      (ready .answered 86401 s.cache).1 = 503 ∧
      (ready .answered 86401 s.cache).2.jwks.detail = some "timeout" := by
  obtain ⟨s, hrun, hlast, herror⟩ : ∃ s, run (next ecLibrary) Sys.init partialRun = some s ∧
      lastGoodReply ecLibrary s.seen = some partialDocument ∧
      s.seen.getLast?.bind (failure ecLibrary) = some "timeout" := ⟨_, rfl, rfl, rfl⟩
  have hold : ¬ Fresh ecLibrary s.seen 86401 := by
    rintro ⟨good, hgood, hle⟩
    cases hlast.symm.trans hgood
    exact absurd hle (by decide)
  have hday := readiness_iff ecLibrary hrun .answered 86400
  have hlater := readiness_iff ecLibrary hrun .answered 86401
  refine ⟨s, hrun, hday.1.mpr ⟨rfl, partialDocument, hlast, by decide⟩, ?_, ?_⟩
  · exact hlater.2.1.resolve_left fun h => hold (hlater.1.mp h).2
  · rw [hlater.2.2.2.2.1 hold, keysDetail, herror]
    rfl

end MizanConnect.Proofs.Auth
