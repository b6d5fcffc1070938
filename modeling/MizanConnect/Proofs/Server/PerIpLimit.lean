import MizanConnect.Server
import Mathlib.Algebra.Order.Archimedean.Basic
import Mathlib.Data.Rat.Floor
import Mathlib.Tactic.NormNum

/-!
# `MizanConnect.Proofs.Server.PerIpLimit`: the rate that is enforced

`build_rate_limiter_config` divides the configured rate by 60 and passes the
result as `per_second`, which takes a period: a higher rate gives a longer
period. The bucket does grow with the rate.

`configured_rate_iff` says for which rates the limiter admits its own rate, and
when a higher rate admits whatever a lower one does. It says so of the bucket that
the builder documents and of the limiter that `governor` makes of the quota, which
has one cell more for an idle key.
-/

set_option autoImplicit false

namespace MizanConnect.Proofs.Server

open MizanConnect.Server
open Gcra (Limiter even admitsAll_even_iff admitsAll_of_tolerance period_le_of_subset)

/-- What a quota stands for: the bucket that the builder documents, or the limiter of
`governor`. -/
def OfQuota (limiter : Quota → Limiter ℚ) : Prop :=
  limiter = Quota.bucket ∨ limiter = Quota.gcra

section
variable {config : Config} {limiter : Quota → Limiter ℚ}

theorem period_of (hlimiter : OfQuota limiter) (q : Quota) :
    (limiter q).period = (q.period : ℚ) := by
  rcases hlimiter with rfl | rfl
  · rfl
  · rfl

/-- Of two quotas with the same period, the one with the larger burst admits whatever
the other admits. -/
theorem admitsAll_of_burst (hlimiter : OfQuota limiter) {q r : Quota}
    (hperiod : r.period = q.period) (hburst : q.burst ≤ r.burst) {ts : List ℚ}
    (h : (limiter q).admitsAll ts = true) : (limiter r).admitsAll ts = true := by
  have hcells : (q.burst : ℚ) ≤ r.burst := by exact_mod_cast hburst
  have hless : ((q.burst - 1 : Nat) : ℚ) ≤ (r.burst - 1 : Nat) := by
    exact_mod_cast Nat.sub_le_sub_right hburst 1
  have hnonneg : (0 : ℚ) ≤ q.period := Nat.cast_nonneg _
  refine admitsAll_of_tolerance ?_ ?_ ?_ h
  · rw [period_of hlimiter, period_of hlimiter, hperiod]
  -- A new key starts at nothing or a period ahead, whatever the burst.
  · rcases hlimiter with rfl | rfl
    · rfl
    · show (r.period : ℚ) = q.period
      rw [hperiod]
  -- The tolerance is one period less for the bucket, and it grows with the burst in both.
  · rcases hlimiter with rfl | rfl
    · show ((q.burst - 1 : Nat) : ℚ) * q.period ≤ (r.burst - 1 : Nat) * r.period
      rw [hperiod]
      exact mul_le_mul_of_nonneg_right hless hnonneg
    · show (q.burst : ℚ) * q.period ≤ r.burst * r.period
      rw [hperiod]
      exact mul_le_mul_of_nonneg_right hcells hnonneg

/-- The period, in seconds. -/
theorem period_eq (h : 1 ≤ config.rateLimitPerMinute) :
    (buildRateLimiterConfig config).period = max (config.rateLimitPerMinute / 60) 1 := by
  show max (max config.rateLimitPerMinute 1 / 60) 1 = _
  rw [max_eq_left h]

theorem burst_mono {other : Config} (h : config.rateLimitPerMinute ≤ other.rateLimitPerMinute) :
    (buildRateLimiterConfig config).burst ≤ (buildRateLimiterConfig other).burst := by
  show max (max config.rateLimitPerMinute 1 / 4) 1 ≤ max (max other.rateLimitPerMinute 1 / 4) 1
  omega

/-- Requests at the configured rate are at least a period apart up to 60 a
minute, and only up to there: from then on they are less than a second apart,
and no period is less than a second. -/
theorem period_le_spacing_iff (h : 1 ≤ config.rateLimitPerMinute) :
    ((buildRateLimiterConfig config).period : ℚ) ≤ 60 / (config.rateLimitPerMinute : ℚ) ↔
      config.rateLimitPerMinute ≤ 60 := by
  have hpos : (0 : ℚ) < config.rateLimitPerMinute := by exact_mod_cast h
  rw [period_eq h, le_div_iff₀ hpos]
  constructor
  · intro hle
    have hnat : max (config.rateLimitPerMinute / 60) 1 * config.rateLimitPerMinute ≤ 60 := by
      exact_mod_cast hle
    have hone : 1 ≤ max (config.rateLimitPerMinute / 60) 1 := le_max_right _ _
    calc config.rateLimitPerMinute
        = 1 * config.rateLimitPerMinute := (Nat.one_mul _).symm
      _ ≤ max (config.rateLimitPerMinute / 60) 1 * config.rateLimitPerMinute :=
          Nat.mul_le_mul_right _ hone
      _ ≤ 60 := hnat
  · intro hle
    have hperiod : max (config.rateLimitPerMinute / 60) 1 = 1 := by omega
    rw [hperiod]
    have hcast : (config.rateLimitPerMinute : ℚ) ≤ 60 := by exact_mod_cast hle
    simpa using hcast

/-- Evenly spaced requests at the configured rate are all admitted exactly up to 60 a
minute. -/
theorem admitsAll_rate_iff (hlimiter : OfQuota limiter) (h : 1 ≤ config.rateLimitPerMinute) :
    (∀ start n, (limiter (buildRateLimiterConfig config)).admitsAll
        (even start (60 / (config.rateLimitPerMinute : ℚ)) n) = true) ↔
      config.rateLimitPerMinute ≤ 60 := by
  rw [← period_le_spacing_iff h, ← period_of hlimiter]
  constructor
  · intro hall
    exact (admitsAll_even_iff 0).mp (hall 0)
  · intro hperiod start
    exact (admitsAll_even_iff start).mpr hperiod

/-- Every sequence that the limiter of `config` admits in full is admitted in
full by that of `other`. -/
def Includes (limiter : Quota → Limiter ℚ) (config other : Config) : Prop :=
  ∀ ts : List ℚ, ts.Pairwise (· ≤ ·) →
    (limiter (buildRateLimiterConfig config)).admitsAll ts = true →
      (limiter (buildRateLimiterConfig other)).admitsAll ts = true

/-- A higher rate includes a lower one when the periods are the same, and only
then: its period is at least as long. -/
theorem includes_iff_period (hlimiter : OfQuota limiter) {other : Config}
    (h : 1 ≤ config.rateLimitPerMinute)
    (hle : config.rateLimitPerMinute ≤ other.rateLimitPerMinute) :
    Includes limiter config other ↔
      (buildRateLimiterConfig other).period = (buildRateLimiterConfig config).period := by
  constructor
  · intro hincludes
    have hshorter := period_le_of_subset hincludes
    rw [period_of hlimiter, period_of hlimiter, Nat.cast_le] at hshorter
    -- The division by 60 is monotone.
    rw [period_eq h, period_eq (h.trans hle)] at hshorter ⊢
    omega
  · intro hperiod ts _ hadmits
    exact admitsAll_of_burst hlimiter hperiod (burst_mono hle) hadmits

/-- For the bucket that the builder documents and for the limiter of `governor`: it
admits evenly spaced requests at its configured rate exactly up to 60 a minute, and a
higher rate admits all that a lower one admits exactly when the higher one is below 120
or both have the same whole number of requests a second. -/
theorem configured_rate_iff (config : Config) (h : 1 ≤ config.rateLimitPerMinute)
    (limiter : Quota → Limiter ℚ) (hlimiter : OfQuota limiter) :
    ((∀ start n, (limiter (buildRateLimiterConfig config)).admitsAll
        (even start (60 / (config.rateLimitPerMinute : ℚ)) n) = true) ↔
      config.rateLimitPerMinute ≤ 60) ∧
    ∀ other : Config, config.rateLimitPerMinute ≤ other.rateLimitPerMinute →
      (Includes limiter config other ↔ other.rateLimitPerMinute < 120 ∨
        config.rateLimitPerMinute / 60 = other.rateLimitPerMinute / 60) := by
  constructor
  · exact admitsAll_rate_iff hlimiter h
  · intro other hle
    -- Equal periods are equal quotients, or quotients of 0 and 1.
    rw [includes_iff_period hlimiter h hle, period_eq h, period_eq (h.trans hle)]
    omega

end

/-- A configuration with this rate. -/
def atRate (perMinute : Nat) : Config where
  appEnv := .production
  databaseMaxConnections := 10
  supabaseUrl := "https://project.supabase.co"
  supabaseJwtAudience := "authenticated"
  corsAllowedOrigins := []
  rateLimitPerMinute := perMinute
  testJwtSecret := none

theorem configured_rate_iff_sixty :
    1 ≤ (atRate 60).rateLimitPerMinute ∧
      (∀ start n, (buildRateLimiterConfig (atRate 60)).bucket.admitsAll
        (even start (60 / ((atRate 60).rateLimitPerMinute : ℚ)) n) = true) ∧
      ∀ start n, (buildRateLimiterConfig (atRate 60)).gcra.admitsAll
        (even start (60 / ((atRate 60).rateLimitPerMinute : ℚ)) n) = true :=
  ⟨by decide,
    (configured_rate_iff (atRate 60) (by decide) Quota.bucket (Or.inl rfl)).1.mpr (by decide),
    (configured_rate_iff (atRate 60) (by decide) Quota.gcra (Or.inr rfl)).1.mpr (by decide)⟩

/-- The default of 100 requests a minute is not admitted, and 120 requests a minute
admit less than 60 do. -/
theorem refused_of_quota {limiter : Quota → Limiter ℚ} (hlimiter : OfQuota limiter) :
    (¬ ∀ start n, (limiter (buildRateLimiterConfig (atRate 100))).admitsAll
        (even start (60 / ((atRate 100).rateLimitPerMinute : ℚ)) n) = true) ∧
      ¬ Includes limiter (atRate 60) (atRate 120) := by
  constructor
  · intro h
    have hle := (admitsAll_rate_iff hlimiter (by decide)).mp h
    exact absurd hle (by decide)
  · intro h
    have hperiod := (includes_iff_period hlimiter (by decide) (by decide)).mp h
    exact absurd hperiod (by decide)

/-- The default of 100 requests a minute admits one a second, and 120 requests
a minute admit one every other second, fewer than 60 do. -/
theorem default_rate_refused :
    ((¬ ∀ start n, (buildRateLimiterConfig (atRate 100)).bucket.admitsAll
        (even start (60 / ((atRate 100).rateLimitPerMinute : ℚ)) n) = true) ∧
      ¬ Includes Quota.bucket (atRate 60) (atRate 120)) ∧
    (¬ ∀ start n, (buildRateLimiterConfig (atRate 100)).gcra.admitsAll
        (even start (60 / ((atRate 100).rateLimitPerMinute : ℚ)) n) = true) ∧
      ¬ Includes Quota.gcra (atRate 60) (atRate 120) :=
  ⟨refused_of_quota (Or.inl rfl), refused_of_quota (Or.inr rfl)⟩

end MizanConnect.Proofs.Server
