import MizanConnect.Proofs.Server.SecurityHeaders
import Mathlib.Tactic.FieldSimp

/-!
# `MizanConnect.Proofs.Server.RateBound`: how often an address gets through

A run of the server is a list of calls, and `journal` has each with the state it comes
in. For one address the whole stack is the limiter alone (`admissions_eq`): the calls of
the others do not matter to it, and neither do its own calls above the body limit, which
are refused before they are counted. Preflight requests are counted.
-/

set_option autoImplicit false

namespace MizanConnect.Proofs.Server

open MizanConnect.Middleware
open MizanConnect.Server (HeaderValues Quota buildRateLimiterConfig)
open Gcra (Limiter within length_within_le)

section
variable {Ip σ : Type}

/-- Each call of a run with the state it comes in. -/
def journal (app : Service Ip σ) : σ → List (Call Ip) → List (σ × Call Ip)
  | _, [] => []
  | s, call :: calls => (s, call) :: journal app (app s call).1 calls

/-- The call gets to CORS and the routes. -/
def passed (config : Config) (entry : State Ip σ × Call Ip) : Bool :=
  !oversized entry.2 && admitted config entry.1 entry.2

variable [DecidableEq Ip]

/-- The calls of an address that are counted. -/
def counted (ip : Ip) (calls : List (Call Ip)) : List (Call Ip) :=
  calls.filter fun call => call.peer = ip && !oversized call

/-- The instants at which an address gets through. -/
def passedTimes (config : Config) (ip : Ip) (entries : List (State Ip σ × Call Ip)) : List ℚ :=
  (entries.filter fun e => e.2.peer = ip && passed config e).map fun e => e.2.now

/-- The limiter after a call, at any address. -/
theorem limiter_after (http : HeaderValues) (config : Config) (refusals : Refusals)
    (routes : Routes Ip σ) (s : State Ip σ) (call : Call Ip) (ip : Ip) :
    (buildApp http config refusals routes s call).1.limiter ip =
      if call.peer = ip ∧ oversized call = false then
        ((buildRateLimiterConfig config).gcra.arrive (s.limiter ip) call.now).2
      else s.limiter ip := by
  have hspent : spent config s call ip =
      if call.peer = ip then ((buildRateLimiterConfig config).gcra.arrive (s.limiter ip) call.now).2
      else s.limiter ip := by
    unfold spent
    by_cases hpeer : call.peer = ip
    · rw [if_pos hpeer, ← hpeer, Function.update_self]
    · rw [if_neg hpeer, Function.update_of_ne (Ne.symm hpeer)]
  rw [serve_eq]
  unfold answerer
  cases hover : oversized call with
  | true => simp
  | false =>
    cases hadmitted : admitted config s call with
    | false =>
      -- A refusal does not touch the limiter.
      have hsame : call.peer = ip →
          ((buildRateLimiterConfig config).gcra.arrive (s.limiter ip) call.now).2 =
            s.limiter ip := by
        rintro rfl
        rcases Gcra.arrive_cases (l := (buildRateLimiterConfig config).gcra) (s.limiter call.peer)
          call.now with ⟨-, harrive⟩ | ⟨-, harrive⟩
        · unfold admitted at hadmitted
          rw [harrive] at hadmitted
          cases hadmitted
        · rw [harrive]
      by_cases hpeer : call.peer = ip
      · simp [hpeer, hsame hpeer]
      · simp [hpeer]
    | true =>
      by_cases hoptions : call.method = "OPTIONS"
      · simp [hoptions, hspent]
      · simp [hoptions, hspent]

/-- For one address the stack is its limiter, run on the calls that are counted. -/
theorem admissions_eq (http : HeaderValues) (config : Config) (refusals : Refusals)
    (routes : Routes Ip σ) (ip : Ip) (calls : List (Call Ip)) (s : State Ip σ) :
    passedTimes config ip (journal (buildApp http config refusals routes) s calls) =
      (buildRateLimiterConfig config).gcra.admissions (s.limiter ip)
        ((counted ip calls).map fun call => call.now) := by
  induction calls generalizing s with
  | nil => rfl
  | cons call calls ih =>
    have hrest := ih (buildApp http config refusals routes s call).1
    rw [limiter_after] at hrest
    by_cases hcounts : call.peer = ip ∧ oversized call = false
    · obtain ⟨hpeer, hover⟩ := hcounts
      rw [if_pos ⟨hpeer, hover⟩] at hrest
      have hcounted : counted ip (call :: calls) = call :: counted ip calls := by
        simp [counted, hpeer, hover]
      have hpassed : passed config (s, call) =
          ((buildRateLimiterConfig config).gcra.arrive (s.limiter ip) call.now).1 := by
        simp [passed, hover, admitted, hpeer]
      rw [hcounted, List.map_cons, Limiter.admissions, ← hrest, ← hpassed]
      unfold passedTimes
      rw [journal, List.filter_cons]
      cases passed config (s, call) <;> simp [hpeer]
    · rw [if_neg hcounts] at hrest
      have hcounted : counted ip (call :: calls) = counted ip calls := by
        refine List.filter_cons_of_neg fun h => hcounts ?_
        simpa using h
      have hskip : (decide (call.peer = ip) && passed config (s, call)) = false := by
        rw [Bool.eq_false_iff]
        intro h
        simp only [passed, Bool.and_eq_true, decide_eq_true_eq, Bool.not_eq_true'] at h
        exact hcounts ⟨h.1, h.2.1⟩
      rw [hcounted, ← hrest]
      unfold passedTimes
      rw [journal, List.filter_cons, hskip]
      rfl

/-- In every run from every state, in whatever order the calls of many addresses come:
which calls of an address get through is decided by its own calls with an acceptable
declared length, and by nothing else. In any window the handlers and the preflight
answers serve it at most a full bucket, the cell that an idle address has beyond it, and
one more for each period. A call that does not get through leaves the state as it was. -/
theorem rate_bound (http : HeaderValues) (config : Config) (refusals : Refusals)
    (routes : Routes Ip σ) (s : State Ip σ) (calls : List (Call Ip)) (ip : Ip) :
    (∀ (others : List (Call Ip)) (s' : State Ip σ), s'.limiter ip = s.limiter ip →
      counted ip others = counted ip calls →
      passedTimes config ip (journal (buildApp http config refusals routes) s' others) =
        passedTimes config ip (journal (buildApp http config refusals routes) s calls)) ∧
    (∀ a b : ℚ, a ≤ b →
      ((within a b (passedTimes config ip
          (journal (buildApp http config refusals routes) s calls))).length : ℚ) ≤
        (buildRateLimiterConfig config).burst + 1 +
          (b - a) / (buildRateLimiterConfig config).period) ∧
    ∀ entry ∈ journal (buildApp http config refusals routes) s calls,
      passed config entry = false →
        (buildApp http config refusals routes entry.1 entry.2).1 = entry.1 := by
  refine ⟨?_, ?_, ?_⟩
  · intro others s' hlimiter hcounted
    rw [admissions_eq, admissions_eq, hlimiter, hcounted]
  · intro a b hab
    have hperiod : (0 : ℚ) < (buildRateLimiterConfig config).period :=
      Nat.cast_pos.mpr (buildRateLimiterConfig config).period_pos
    rw [admissions_eq]
    have hwindow := length_within_le (l := (buildRateLimiterConfig config).gcra) hab
      ((counted ip calls).map fun call => call.now) (s.limiter ip)
    -- `tau` is the burst in periods, and one more period is the cell of the idle key.
    have hsplit : ((buildRateLimiterConfig config).burst : ℚ) + 1 +
        (b - a) / (buildRateLimiterConfig config).period =
        ((b - a) + (buildRateLimiterConfig config).gcra.tolerance +
          (buildRateLimiterConfig config).gcra.period) /
            (buildRateLimiterConfig config).period := by
      show _ = ((b - a) + (buildRateLimiterConfig config).burst *
        (buildRateLimiterConfig config).period + (buildRateLimiterConfig config).period) /
          (buildRateLimiterConfig config).period
      field_simp
      ring
    rw [hsplit, le_div_iff₀ hperiod]
    exact hwindow
  · intro entry _ hpassed
    rw [serve_eq]
    unfold answerer
    cases hover : oversized entry.2 with
    | true => rfl
    | false =>
      have hadmitted : admitted config entry.1 entry.2 = false := by
        simpa [passed, hover] using hpassed
      rw [hadmitted]
      rfl

/-- The bound is met: with a burst of one, two calls get through at once after an idle
minute. -/
example : (Quota.gcra ⟨1, 1, Nat.one_pos, Nat.one_pos⟩).admissions none [0, 60, 60, 60] =
    [0, 60, 60] := by decide +kernel

end

end MizanConnect.Proofs.Server
