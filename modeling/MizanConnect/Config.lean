import MizanConnect.Error
import MizanConnect.Types

/-!
# `MizanConnect.Config`: the configuration

`src/config.rs`, with the fields that the server, the pool and token
verification read. `RawConfig` is what `figment` extracts from the environment.
-/

set_option autoImplicit false

namespace MizanConnect

/-- `AppEnv`. -/
inductive AppEnv where
  | development
  | staging
  | production
  | test
deriving DecidableEq, Repr

def AppEnv.isProduction (env : AppEnv) : Bool := env == .production

def AppEnv.isTest (env : AppEnv) : Bool := env == .test

/-- `impl FromStr for AppEnv`. -/
def AppEnv.fromStr (s : String) : Except String AppEnv :=
  let name := toAsciiLowercase (trim s)
  if name = "development" ∨ name = "dev" then .ok .development
  else if name = "staging" ∨ name = "stage" then .ok .staging
  else if name = "production" ∨ name = "prod" then .ok .production
  else if name = "test" then .ok .test
  else .error ("unknown APP_ENV value: " ++ name)

/-- `ConfigError`, the variants these fields can raise. -/
inductive ConfigError where
  | missing (var : String)
  | invalid (var reason : String)
  | corsWildcardWithAuth
deriving DecidableEq, Repr

/-- `RawConfig`. -/
structure RawConfig where
  appEnv : Option String
  databaseMaxConnections : Option Nat
  supabaseUrl : String
  supabaseJwtAudience : Option String
  mizanCorsAllowedOrigins : Option String
  rateLimitPerMinute : Option Nat
  mizanTestJwtSecret : Option String

/-- `Config`. The counts are `u32` in the source; nothing here adds to them. -/
structure Config where
  appEnv : AppEnv
  databaseMaxConnections : Nat
  supabaseUrl : String
  supabaseJwtAudience : String
  corsAllowedOrigins : List String
  rateLimitPerMinute : Nat
  testJwtSecret : Option String

/-- `trim_required`. -/
def trimRequired (value var : String) : Except ConfigError String :=
  let trimmed := trim value
  if trimmed.isEmpty then .error (.missing var) else .ok trimmed

/-- `parse_required` with a default, at `AppEnv`. -/
def parseAppEnv (var : String) (raw : Option String) (default : String) :
    Except ConfigError AppEnv :=
  let value := (raw.filter fun s => !(trim s).isEmpty).getD default
  (AppEnv.fromStr value).mapError (.invalid var)

/-- `parse_cors`. -/
def parseCors (raw : Option String) (rejectWildcard : Bool) :
    Except ConfigError (List String) :=
  let raw := raw.getD ""
  let origins := ((splitOnChar ',' raw).map trim).filter fun s => !s.isEmpty
  if rejectWildcard && origins.any (· == "*") then .error .corsWildcardWithAuth
  else .ok origins

/-- `Config::load` on the extracted values. The checks of the other variables are
left out. -/
def Config.load (raw : RawConfig) : Except ConfigError Config := do
  let appEnv ← parseAppEnv "APP_ENV" raw.appEnv "development"
  let supabaseUrl ← trimRequired raw.supabaseUrl "SUPABASE_URL"
  if (stripPrefix? "https://" supabaseUrl).isNone && !appEnv.isTest then
    .error (.invalid "SUPABASE_URL" "must use https:// scheme outside of test env")
  else do
    let corsAllowedOrigins ← parseCors raw.mizanCorsAllowedOrigins (!appEnv.isTest)
    let testJwtSecret :=
      if appEnv.isProduction then none
      else raw.mizanTestJwtSecret.filter fun s => !(trim s).isEmpty
    .ok
      { appEnv
        databaseMaxConnections := max (raw.databaseMaxConnections.getD 10) 1
        supabaseUrl
        supabaseJwtAudience := raw.supabaseJwtAudience.getD "authenticated"
        corsAllowedOrigins
        rateLimitPerMinute := max (raw.rateLimitPerMinute.getD 100) 1
        testJwtSecret }

/-- `Config::supabase_jwt_issuer`. -/
def Config.supabaseJwtIssuer (config : Config) : String :=
  String.ofList (config.supabaseUrl.toList.reverse.dropWhile (· == '/')).reverse ++ "/auth/v1"

/-! ### What a loaded configuration promises -/

/-- The allowlist has trimmed origins only, no empty one, and no wildcard where
it is rejected. -/
theorem parseCors_eq_ok {raw : Option String} {rejectWildcard : Bool} {origins : List String}
    (h : parseCors raw rejectWildcard = .ok origins) :
    (∀ o ∈ origins, o.isEmpty = false ∧ ∃ part ∈ splitOnChar ',' (raw.getD ""), o = trim part) ∧
      (rejectWildcard = true → "*" ∉ origins) := by
  unfold parseCors at h
  dsimp only at h
  split at h
  · exact nomatch h
  · rename_i hwildcard
    cases h
    constructor
    · intro o ho
      obtain ⟨hmem, hne⟩ := List.mem_filter.mp ho
      obtain ⟨part, hpart, rfl⟩ := List.mem_map.mp hmem
      exact ⟨by simpa using hne, part, hpart, rfl⟩
    · intro hreject hmem
      apply hwildcard
      rw [hreject, Bool.true_and, List.any_eq_true]
      exact ⟨"*", hmem, by simp⟩

/-- The allowlist of `.env.example`. -/
example : parseCors (some "http://localhost:1420,http://tauri.localhost") true
    = .ok ["http://localhost:1420", "http://tauri.localhost"] := by decide

/-- A loaded configuration has a pool of at least one connection and a rate of
at least one request, and no test secret in production. -/
theorem Config.load_eq_ok {raw : RawConfig} {config : Config} (h : Config.load raw = .ok config) :
    1 ≤ config.databaseMaxConnections ∧ 1 ≤ config.rateLimitPerMinute ∧
      (config.appEnv.isProduction = true → config.testJwtSecret = none) := by
  unfold Config.load at h
  obtain ⟨appEnv, -, h⟩ := except_bind_eq_ok.mp h
  obtain ⟨supabaseUrl, -, h⟩ := except_bind_eq_ok.mp h
  split at h
  · exact nomatch h
  · obtain ⟨origins, -, h⟩ := except_bind_eq_ok.mp h
    cases h
    refine ⟨Nat.le_max_right _ _, Nat.le_max_right _ _, ?_⟩
    intro hprod
    simp [hprod]

end MizanConnect
