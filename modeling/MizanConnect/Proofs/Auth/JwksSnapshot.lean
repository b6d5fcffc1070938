import MizanConnect.Auth.JwksTasks

/-!
# `MizanConnect.Proofs.Auth.JwksSnapshot`: the last good document

The cache holds the usable entries of the last document that had any
(`lastGood`), whatever the tasks did and in which order. One step of a task
leaves the cache alone or acts on one reply (`next_cases`). A reply without a
usable entry only sets `last_error`, and any other replaces the keys
(`refresh_eq`).
-/

set_option autoImplicit false

namespace MizanConnect.Proofs.Auth

open MizanConnect.Auth
open MizanConnect.Auth.JwksTasks
open Transition (run)

variable {Key : Type}

/-- The usable entries of a reply, in the order of its document. A failed
request and an undecodable document have none. -/
def usable (jwt : Jsonwebtoken Key) (fetch : Fetch) : List (JwkEntry Key) :=
  match fetch.reply with
  | .error _ => []
  | .ok document => document.filterMap fun jwk => (jwkToEntry jwt jwk).toOption

/-- The usable entries of the last reply that had any. -/
def lastGood (jwt : Jsonwebtoken Key) (seen : List Fetch) : List (JwkEntry Key) :=
  ((seen.map (usable jwt)).filter fun keys => !keys.isEmpty).getLast?.getD []

theorem lastGood_snoc (jwt : Jsonwebtoken Key) (seen : List Fetch) (fetch : Fetch) :
    lastGood jwt (seen ++ [fetch])
      = if (usable jwt fetch).isEmpty then lastGood jwt seen else usable jwt fetch := by
  unfold lastGood
  rw [List.map_append, List.filter_append, List.map_singleton]
  cases hempty : (usable jwt fetch).isEmpty with
  | true => simp [hempty]
  | false => simp [hempty]

/-! ### One step -/

/-- A reply without a usable entry is an error, and changes `last_error` only.
Any other replaces the keys. -/
theorem refresh_eq (jwt : Jsonwebtoken Key) (fetch : Fetch) (cache : CacheState Key) :
    (usable jwt fetch = [] ∧ ∃ e text,
      refresh jwt fetch cache = (.error e, { cache with lastError := some text })) ∨
    (usable jwt fetch ≠ [] ∧
      refresh jwt fetch cache = (.ok (), ⟨usable jwt fetch, some fetch.time, none⟩)) := by
  unfold refresh usable
  cases fetch.reply with
  | error text => exact Or.inl ⟨rfl, _, _, rfl⟩
  | ok document =>
    dsimp only
    split
    · rename_i hempty
      exact Or.inl ⟨List.isEmpty_iff.mp hempty, _, _, rfl⟩
    · rename_i hsome
      exact Or.inr ⟨fun hnil => hsome (List.isEmpty_iff.mpr hnil), rfl⟩

/-- A refresh acts on its reply when it has one, and on nothing else. -/
theorem stepRefresh_cases {jwt : Jsonwebtoken Key} {fetch : Fetch} {cache : CacheState Key}
    {phase : RefreshPhase} {out : Outcome RefreshPhase Key}
    (h : stepRefresh jwt fetch cache phase = some out) :
    (out.cache = cache ∧ out.acted = []) ∨
      ∃ reply, out.acted = [reply] ∧ out.cache = (refresh jwt reply cache).2 := by
  cases phase with
  | started =>
    cases h
    exact Or.inl ⟨rfl, rfl⟩
  | fetched reply =>
    cases h
    exact Or.inr ⟨reply, rfl, rfl⟩
  | finished result => cases h

/-- A call leaves the cache alone, or acts on one reply. -/
theorem stepJob_cases {jwt : Jsonwebtoken Key} {fetch : Fetch} {cache : CacheState Key}
    {job : Job Key} {out : Outcome (Job Key) Key} (h : stepJob jwt fetch cache job = some out) :
    (out.cache = cache ∧ out.acted = []) ∨
      ∃ reply, out.acted = [reply] ∧ out.cache = (refresh jwt reply cache).2 := by
  cases job with
  | refresh phase =>
    obtain ⟨inner, hinner, rfl⟩ := Option.map_eq_some_iff.mp h
    exact stepRefresh_cases hinner
  | findKey kid phase =>
    obtain ⟨inner, hinner, rfl⟩ := Option.map_eq_some_iff.mp h
    cases phase with
    | started =>
      cases hinner
      exact Or.inl ⟨rfl, rfl⟩
    | refreshing phase =>
      cases phase with
      | finished result =>
        cases hinner
        exact Or.inl ⟨rfl, rfl⟩
      | started =>
        cases hinner
        exact Or.inl ⟨rfl, rfl⟩
      | fetched reply =>
        cases hinner
        exact Or.inr ⟨reply, rfl, rfl⟩
    | looking =>
      cases hinner
      exact Or.inl ⟨rfl, rfl⟩
    | finished answer => cases hinner

/-- A lookup that is over after a step took its key in it. -/
theorem stepJob_finished {jwt : Jsonwebtoken Key} {fetch : Fetch} {cache : CacheState Key}
    {job : Job Key} {out : Outcome (Job Key) Key} {kid : Option String}
    {answer : Except AppError (DecodingKeyMatch Key)}
    (h : stepJob jwt fetch cache job = some out)
    (hout : out.phase = .findKey kid (.finished answer)) : answer = answerOf cache.keys kid := by
  cases job with
  | refresh phase =>
    obtain ⟨inner, -, rfl⟩ := Option.map_eq_some_iff.mp h
    cases hout
  | findKey want phase =>
    obtain ⟨inner, hinner, rfl⟩ := Option.map_eq_some_iff.mp h
    obtain ⟨rfl, hphase⟩ : want = kid ∧ inner.phase = .finished answer := by
      simpa using hout
    cases phase with
    | started =>
      cases hinner
      dsimp only at hphase
      split at hphase <;> cases hphase
    | refreshing phase =>
      cases phase with
      | finished result =>
        cases hinner
        cases hphase
      | started =>
        cases hinner
        cases hphase
      | fetched reply =>
        cases hinner
        cases hphase
    | looking =>
      cases hinner
      cases hphase
      rfl
    | finished answer => cases hinner

section
variable {jwt : Jsonwebtoken Key} {s s' : Sys Key} {a : Action} {as : List Action}

/-- The parts of a step of a call. -/
theorem next_advance {i : Nat} {fetch : Fetch} (h : next jwt s (.advance i fetch) = some s') :
    ∃ job out, s.jobs[i]? = some job ∧ stepJob jwt fetch s.cache job = some out ∧
      s' = ⟨out.cache, s.jobs.set i out.phase, s.seen ++ out.acted⟩ := by
  obtain ⟨job, hjob, h⟩ := Option.bind_eq_some_iff.mp h
  obtain ⟨out, hout, h⟩ := Option.bind_eq_some_iff.mp h
  cases h
  exact ⟨job, out, hjob, hout, rfl⟩

/-- A step leaves the cache alone, fails to refresh it, or stores the usable
entries of one reply. -/
theorem next_cases (h : next jwt s a = some s') :
    (s'.seen = s.seen ∧ s'.cache = s.cache) ∨
    ∃ reply, s'.seen = s.seen ++ [reply] ∧
      ((usable jwt reply = [] ∧ ∃ text, s'.cache = { s.cache with lastError := some text }) ∨
        (usable jwt reply ≠ [] ∧ s'.cache = ⟨usable jwt reply, some reply.time, none⟩)) := by
  cases a with
  | spawn task =>
    cases h
    exact Or.inl ⟨rfl, rfl⟩
  | advance i fetch =>
    obtain ⟨job, out, -, hout, rfl⟩ := next_advance h
    rcases stepJob_cases hout with ⟨hcache, hacted⟩ | ⟨reply, hacted, hcache⟩
    · exact Or.inl ⟨by simp [hacted], hcache⟩
    · refine Or.inr ⟨reply, by simp [hacted], ?_⟩
      rcases refresh_eq jwt reply s.cache with ⟨hnone, e, text, heq⟩ | ⟨hsome, heq⟩
      · exact Or.inl ⟨hnone, text, by rw [hcache, heq]⟩
      · exact Or.inr ⟨hsome, by rw [hcache, heq]⟩

/-- A step keeps the last good document. -/
theorem keys_next (h : next jwt s a = some s') (hs : s.cache.keys = lastGood jwt s.seen) :
    s'.cache.keys = lastGood jwt s'.seen := by
  rcases next_cases h with ⟨hseen, hcache⟩ | ⟨reply, hseen, ⟨hnone, text, hcache⟩ | ⟨hsome, hcache⟩⟩
  · rw [hcache, hseen, hs]
  · rw [hcache, hseen, lastGood_snoc, hnone]
    exact hs
  · rw [hcache, hseen, lastGood_snoc, if_neg (by simpa using hsome)]

/-- A step does not empty the cache. -/
theorem keys_ne_nil_next (h : next jwt s a = some s') (hs : s.cache.keys ≠ []) :
    s'.cache.keys ≠ [] := by
  rcases next_cases h with ⟨-, hcache⟩ | ⟨reply, -, ⟨-, text, hcache⟩ | ⟨hsome, hcache⟩⟩
  · rw [hcache]
    exact hs
  · rw [hcache]
    exact hs
  · rw [hcache]
    exact hsome

end

/-! ### Lookups -/

/-- The answer for a `kid` is the first entry with it, and an error only when
no entry has it. -/
theorem answerOf_some (keys : List (JwkEntry Key)) (want : String) :
    (∃ entry ∈ keys, entry.kid = some want ∧
      answerOf keys (some want) = .ok ⟨entry.algorithm, entry.decodingKey⟩) ∨
    ((∀ entry ∈ keys, entry.kid ≠ some want) ∧
      answerOf keys (some want) = .error (.unauthorized "unknown signing key")) := by
  unfold answerOf selectEntry
  dsimp only
  cases hfind : keys.find? fun entry => entry.kid == some want with
  | none =>
    refine Or.inr ⟨?_, rfl⟩
    intro entry hentry hkid
    exact List.find?_eq_none.mp hfind entry hentry (by simp [hkid])
  | some entry =>
    have hkid := List.find?_some hfind
    exact Or.inl ⟨entry, List.mem_of_find?_eq_some hfind, by simpa using hkid, rfl⟩

/-! ### The theorem -/

/-- In every run of refreshes and lookups, in any order of their steps and with
any replies: the keys are the usable entries of the last document that had any.
Each step leaves the cache alone, sets `last_error` only (on a reply without
usable entries), or stores the usable entries of one reply. Keys that are there
never go away altogether. A lookup for a `kid` that ends has an entry of the
cache with that `kid`, or fails because there is none. -/
theorem keeps_last_good (jwt : Jsonwebtoken Key) (as : List Action) (s : Sys Key)
    (hrun : run (next jwt) Sys.init as = some s) :
    s.cache.keys = lastGood jwt s.seen ∧
    (∀ a s', next jwt s a = some s' →
      (s'.seen = s.seen ∧ s'.cache = s.cache) ∨
      ∃ reply, s'.seen = s.seen ++ [reply] ∧
        ((usable jwt reply = [] ∧ ∃ text, s'.cache = { s.cache with lastError := some text }) ∨
          (usable jwt reply ≠ [] ∧ s'.cache = ⟨usable jwt reply, some reply.time, none⟩))) ∧
    (∀ bs s', run (next jwt) s bs = some s' → s.cache.keys ≠ [] → s'.cache.keys ≠ []) ∧
    (∀ i fetch s' want answer, next jwt s (.advance i fetch) = some s' →
      s'.jobs[i]? = some (.findKey (some want) (.finished answer)) →
      (∃ entry ∈ s.cache.keys, entry.kid = some want ∧
        answer = .ok ⟨entry.algorithm, entry.decodingKey⟩) ∨
      ((∀ entry ∈ s.cache.keys, entry.kid ≠ some want) ∧
        answer = .error (.unauthorized "unknown signing key"))) := by
  refine ⟨?_, fun a s' => next_cases, ?_, ?_⟩
  · exact Transition.run_invariant (P := fun s => s.cache.keys = lastGood jwt s.seen)
      (fun s a s' hs _ h => keys_next h hs) rfl (Transition.along_true _ as) hrun
  · intro bs s' hbs hsome
    exact Transition.run_invariant (P := fun s => s.cache.keys ≠ [])
      (fun s a s' hs _ h => keys_ne_nil_next h hs) hsome (Transition.along_true _ bs) hbs
  · intro i fetch s' want answer hnext hfinished
    obtain ⟨job, out, hjob, hout, rfl⟩ := next_advance hnext
    -- The step put its phase at the place of the call.
    have hlt := (List.getElem?_eq_some_iff.mp hjob).1
    rw [List.getElem?_set_self hlt, Option.some.injEq] at hfinished
    rw [stepJob_finished hout hfinished]
    exact answerOf_some s.cache.keys want

/-- A library that takes every EC key. -/
def ecLibrary : Jsonwebtoken String where
  fromSecret _ := ""
  fromRsaComponents _ _ := .error "InvalidRsaKey"
  fromEcComponents x y := .ok (x ++ y)
  base64UrlDecode _ := .error "InvalidByte"
  decodeHeader _ := none
  decode _ _ _ _ := none

/-- An EC key, and an RSA key without its modulus. -/
def partialDocument : Fetch where
  reply := .ok
    [⟨"RSA", none, some "b", none, some "AQAB", none, none, none, none⟩,
      ⟨"EC", none, some "a", none, none, some "P-256", some "x", some "y", none⟩]
  time := 0

/-- A refresh, a refresh that fails while the first one is out, and a lookup. -/
def partialRun : List Action :=
  [.spawn .refresh, .spawn .refresh, .advance 0 partialDocument, .advance 1 ⟨.error "timeout", 1⟩,
    .advance 0 partialDocument, .advance 1 partialDocument, .spawn (.findKey (some "a")),
    .advance 2 partialDocument, .advance 2 partialDocument]

theorem keeps_last_good_partial :
    ∃ s, run (next ecLibrary) Sys.init partialRun = some s ∧
      s.cache.keys = lastGood ecLibrary s.seen ∧
      s.cache.keys.map (fun entry => (entry.kid, entry.decodingKey)) = [(some "a", "xy")] ∧
      s.cache.lastError = some "timeout" :=
  ⟨_, rfl, (keeps_last_good ecLibrary partialRun _ rfl).1, by decide, rfl⟩

end MizanConnect.Proofs.Auth
