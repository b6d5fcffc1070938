import MizanConnect.Startup

/-!
# `MizanConnect.Proofs.Server.Configuration`: when the configuration loads

`Fault` lists what can be wrong with the environment, each with its error, and says
nothing about the order of the checks: a variable of the wrong type, a variable that is
needed and not set, and the values that the code itself checks (`ValueFault`).
`load_iff` is that the configuration loads exactly when nothing is wrong, and fails
with one of the faults.
-/

set_option autoImplicit false

namespace MizanConnect.Proofs.Server

open MizanConnect.Startup

/-! ### Faults -/

/-- The variables that SnapTrade needs outside of the test environment. -/
def snaptradeVars (raw : Startup.RawConfig) : List (String × Option String) :=
  [("SNAPTRADE_CLIENT_ID", raw.snaptradeClientId),
    ("SNAPTRADE_CONSUMER_KEY", raw.snaptradeConsumerKey),
    ("SNAPTRADE_REDIRECT_URI", raw.snaptradeRedirectUri),
    ("MIZAN_BROKER_SECRET_ENCRYPTION_KEY", raw.mizanBrokerSecretEncryptionKey),
    ("MIZAN_SNAPTRADE_STATE_SECRET", raw.mizanSnaptradeStateSecret)]

/-- The origins of the allowlist. -/
def origins (raw : Startup.RawConfig) : List String :=
  (splitOnChar ',' (raw.mizanCorsAllowedOrigins.getD "")).map trim

/-- The environment of the process. -/
def envOf (raw : Startup.RawConfig) : Except String AppEnv :=
  AppEnv.fromStr ((nonBlank raw.appEnv).getD "development")

/-- What the code finds wrong with the extracted values, and the error for it. -/
inductive ValueFault (decode : Base64Decode) (raw : Startup.RawConfig) :
    Startup.ConfigError → Prop where
  | appEnv {reason : String} (h : envOf raw = .error reason) :
    ValueFault decode raw (.invalid "APP_ENV" reason)
  | logFormat {v reason : String} (hv : nonBlank raw.logFormat = some v)
      (h : LogFormat.fromStr v = .error reason) :
    ValueFault decode raw (.invalid "LOG_FORMAT" reason)
  | databaseUrl (h : (trim raw.databaseUrl).isEmpty = true) :
    ValueFault decode raw (.missing "DATABASE_URL")
  | supabaseUrl (h : (trim raw.supabaseUrl).isEmpty = true) :
    ValueFault decode raw (.missing "SUPABASE_URL")
  | scheme {appEnv : AppEnv} (henv : envOf raw = .ok appEnv) (htest : appEnv ≠ .test)
      (h : stripPrefix? "https://" (trim raw.supabaseUrl) = none) :
    ValueFault decode raw (.invalid "SUPABASE_URL" "must use https:// scheme outside of test env")
  | wildcard {appEnv : AppEnv} (henv : envOf raw = .ok appEnv) (htest : appEnv ≠ .test)
      (h : "*" ∈ origins raw) : ValueFault decode raw .corsWildcardWithAuth
  | snaptrade {appEnv : AppEnv} {var : String} {value : Option String}
      (henv : envOf raw = .ok appEnv) (htest : appEnv ≠ .test)
      (hvar : (var, value) ∈ snaptradeVars raw) (h : trimmed value = none) :
    ValueFault decode raw (.missing var)
  | keyText {s e : String} (hs : trimmed raw.mizanBrokerSecretEncryptionKey = some s)
      (h : decode (trim s) = .error e) :
    ValueFault decode raw (.invalid "MIZAN_BROKER_SECRET_ENCRYPTION_KEY" ("base64 decode: " ++ e))
  | keyLength {s : String} {bytes : List UInt8}
      (hs : trimmed raw.mizanBrokerSecretEncryptionKey = some s)
      (hdecode : decode (trim s) = .ok bytes) (h : bytes.length ≠ 32) :
    ValueFault decode raw (.badEncryptionKeyLength bytes.length)
  | stateText {s e : String} (hs : trimmed raw.mizanSnaptradeStateSecret = some s)
      (h : decode (trim s) = .error e) :
    ValueFault decode raw (.invalid "MIZAN_SNAPTRADE_STATE_SECRET" ("base64 decode: " ++ e))
  | stateLength {s : String} {bytes : List UInt8}
      (hs : trimmed raw.mizanSnaptradeStateSecret = some s)
      (hdecode : decode (trim s) = .ok bytes) (h : bytes.length < 32) :
    ValueFault decode raw (.stateSecretTooShort bytes.length)

/-- The fields of `RawConfig` that are no options. -/
def requiredFields : List String := ["database_url", "supabase_url"]

/-- The values of the variables, also where the extraction fails. -/
def values (dict : Dict) : Startup.RawConfig :=
  Startup.RawConfig.ofDict dict ((dict.text "database_url").getD "")
    ((dict.text "supabase_url").getD "")

/-- What is wrong with the environment, and the error for it. -/
inductive Fault (decode : Base64Decode) (dict : Dict) : Startup.ConfigError → Prop where
  | mistyped {key : String} {type : FieldType} {v : Startup.Value} {e : ExtractError}
      (hfield : (key, type) ∈ fields) (hv : dict key = some v)
      (h : type.check key v = .error e) : Fault decode dict (.figment e)
  | unset {key : String} (hfield : key ∈ requiredFields) (h : dict key = none) :
    Fault decode dict (.figment (.missingField key))
  | value {e : Startup.ConfigError} (h : ValueFault decode (values dict) e) : Fault decode dict e

section
variable {decode : Base64Decode} {raw : Startup.RawConfig} {e : Startup.ConfigError}

/-! ### One check after the other -/

/-- A computation in `Except` that fails, cut at its first step. -/
theorem except_bind_eq_error {ε α β : Type} {x : Except ε α} {f : α → Except ε β} {e : ε} :
    (x >>= f) = .error e ↔ x = .error e ∨ ∃ a, x = .ok a ∧ f a = .error e := by
  cases x with
  | error e' => simp [bind, Except.bind]
  | ok a => simp [bind, Except.bind]

/-- A success is not a failure. -/
theorem ok_ne_error {ε α : Type} {a : α} {e : ε} : (.ok a : Except ε α) ≠ .error e := by
  intro h
  cases h

theorem mapError_eq_error {ε ε' α : Type} {f : ε → ε'} {x : Except ε α} {e : ε'} :
    x.mapError f = .error e ↔ ∃ e', x = .error e' ∧ f e' = e := by
  cases x <;> simp [Except.mapError]

/-- `APP_ENV` parses to the environment, or is at fault. -/
theorem parseAppEnv_eq (raw : Startup.RawConfig) :
    parseAppEnv "APP_ENV" raw.appEnv "development"
      = (envOf raw).mapError (ConfigError.invalid "APP_ENV") := rfl

theorem parseLogFormat_error {default : LogFormat}
    (h : parseLogFormat "LOG_FORMAT" raw.logFormat default = .error e) :
    ValueFault decode raw e := by
  unfold parseLogFormat at h
  split at h
  · rename_i v hv
    obtain ⟨reason, hreason, rfl⟩ := mapError_eq_error.mp h
    exact .logFormat hv hreason
  · cases h

theorem parseLogFormat_ok {default format : LogFormat} {v reason : String}
    (h : parseLogFormat "LOG_FORMAT" raw.logFormat default = .ok format)
    (hv : nonBlank raw.logFormat = some v) : LogFormat.fromStr v ≠ .error reason := by
  intro hbad
  simp [parseLogFormat, hv, hbad, Except.mapError] at h

/-- A required text is there, trimmed. -/
theorem trimRequired_cases (value var : String) :
    ((trim value).isEmpty = true ∧ trimRequired value var = .error (.missing var)) ∨
      ((trim value).isEmpty = false ∧ trimRequired value var = .ok (trim value)) := by
  unfold trimRequired
  dsimp only
  cases (trim value).isEmpty with
  | true => exact Or.inl ⟨rfl, rfl⟩
  | false => exact Or.inr ⟨rfl, rfl⟩

theorem checkScheme_cases (appEnv : AppEnv) (url : String) :
    (appEnv ≠ .test ∧ stripPrefix? "https://" url = none ∧ checkScheme appEnv url
        = .error (.invalid "SUPABASE_URL" "must use https:// scheme outside of test env")) ∨
      ((appEnv = .test ∨ stripPrefix? "https://" url ≠ none) ∧
        checkScheme appEnv url = .ok ()) := by
  unfold checkScheme AppEnv.isTest
  by_cases htest : appEnv = .test
  · simp [htest]
  · cases hscheme : stripPrefix? "https://" url <;> simp [htest]

/-- The empty parts of the allowlist do not matter to the wildcard. -/
theorem parseCors_cases (raw : Startup.RawConfig) (appEnv : AppEnv) :
    (appEnv ≠ .test ∧ "*" ∈ origins raw ∧
      parseCors raw.mizanCorsAllowedOrigins (!appEnv.isTest) = .error .corsWildcardWithAuth) ∨
    ((appEnv = .test ∨ "*" ∉ origins raw) ∧
      ∃ allowed, parseCors raw.mizanCorsAllowedOrigins (!appEnv.isTest) = .ok allowed) := by
  have hany : ((origins raw).filter fun s => !s.isEmpty).any (· == "*") = true ↔
      "*" ∈ origins raw := by
    rw [List.any_eq_true]
    constructor
    · rintro ⟨o, ho, heq⟩
      rw [← eq_of_beq heq]
      exact (List.mem_filter.mp ho).1
    · intro h
      exact ⟨"*", List.mem_filter.mpr ⟨h, by decide⟩, by decide⟩
  unfold parseCors AppEnv.isTest
  unfold origins at hany ⊢
  dsimp only
  by_cases htest : appEnv = .test
  · exact Or.inr ⟨Or.inl htest, by simp [htest]⟩
  · by_cases hstar : "*" ∈ (splitOnChar ',' (raw.mizanCorsAllowedOrigins.getD "")).map trim
    · refine Or.inl ⟨htest, hstar, ?_⟩
      rw [hany.mpr hstar]
      simp [htest]
    · refine Or.inr ⟨Or.inr hstar, ?_⟩
      rw [Bool.eq_false_iff.mpr fun h => hstar (hany.mp h)]
      simp

theorem pickRequired_cases (var : String) (value : Option String) (required : Bool) :
    (trimmed value = none ∧ required = true ∧
        pickRequired var value required = .error (.missing var)) ∨
      ((required = true → trimmed value ≠ none) ∧
        pickRequired var value required = .ok (trimmed value)) := by
  unfold pickRequired
  cases trimmed value with
  | some v => exact Or.inr ⟨fun _ => Option.some_ne_none v, rfl⟩
  | none => cases required <;> simp

theorem encryptionKeyBytes_error
    (h : encryptionKeyBytes decode (trimmed raw.mizanBrokerSecretEncryptionKey) = .error e) :
    ValueFault decode raw e := by
  cases hs : trimmed raw.mizanBrokerSecretEncryptionKey with
  | none =>
    rw [hs] at h
    cases h
  | some s =>
    rw [hs] at h
    rcases except_bind_eq_error.mp h with h | ⟨bytes, hdecode, h⟩
    · obtain ⟨text, htext, rfl⟩ := mapError_eq_error.mp h
      exact .keyText hs htext
    · split at h
      · rename_i hlength
        cases h
        exact .keyLength hs (mapError_eq_ok.mp hdecode) hlength
      · cases h

theorem encryptionKeyBytes_ok {value : Option String} {bytes : List UInt8}
    (h : encryptionKeyBytes decode value = .ok bytes) :
    (value = none ∧ bytes = []) ∨
      ∃ s, value = some s ∧ decode (trim s) = .ok bytes ∧ bytes.length = 32 := by
  cases value with
  | none =>
    cases h
    exact Or.inl ⟨rfl, rfl⟩
  | some s =>
    obtain ⟨bytes', hdecode, h⟩ := except_bind_eq_ok.mp h
    split at h
    · cases h
    · rename_i hlength
      cases h
      exact Or.inr ⟨s, rfl, mapError_eq_ok.mp hdecode, not_not.mp hlength⟩

theorem stateSecretText_error
    (h : stateSecretText decode (trimmed raw.mizanSnaptradeStateSecret) = .error e) :
    ValueFault decode raw e := by
  cases hs : trimmed raw.mizanSnaptradeStateSecret with
  | none =>
    rw [hs] at h
    cases h
  | some s =>
    rw [hs] at h
    rcases except_bind_eq_error.mp h with h | ⟨bytes, hdecode, h⟩
    · obtain ⟨text, htext, rfl⟩ := mapError_eq_error.mp h
      exact .stateText hs htext
    · split at h
      · rename_i hlength
        cases h
        exact .stateLength hs (mapError_eq_ok.mp hdecode) hlength
      · cases h

theorem stateSecretText_ok {value : Option String} {secret : String}
    (h : stateSecretText decode value = .ok secret) :
    (value = none ∧ secret = "") ∨
      ∃ bytes, value = some secret ∧ decode (trim secret) = .ok bytes ∧ 32 ≤ bytes.length := by
  cases value with
  | none =>
    cases h
    exact Or.inl ⟨rfl, rfl⟩
  | some s =>
    obtain ⟨bytes, hdecode, h⟩ := except_bind_eq_ok.mp h
    split at h
    · cases h
    · rename_i hlength
      cases h
      exact Or.inr ⟨bytes, rfl, mapError_eq_ok.mp hdecode, Nat.not_lt.mp hlength⟩

/-! ### SnapTrade -/

/-- A variable that is picked is there, or it is missing outside of the test
environment. -/
theorem pickRequired_error {appEnv : AppEnv} {var : String} {value : Option String}
    (henv : envOf raw = .ok appEnv) (hvar : (var, value) ∈ snaptradeVars raw)
    (h : pickRequired var value (!appEnv.isTest) = .error e) : ValueFault decode raw e := by
  rcases pickRequired_cases var value (!appEnv.isTest) with ⟨hnone, hneeded, heq⟩ | ⟨-, heq⟩
  · cases heq.symm.trans h
    exact .snaptrade henv (by simpa [AppEnv.isTest] using hneeded) hvar hnone
  · cases heq.symm.trans h

theorem pickRequired_ok {appEnv : AppEnv} {var : String} {value picked : Option String}
    (h : pickRequired var value (!appEnv.isTest) = .ok picked) :
    picked = trimmed value ∧ (appEnv ≠ .test → trimmed value ≠ none) := by
  rcases pickRequired_cases var value (!appEnv.isTest) with ⟨-, -, heq⟩ | ⟨hneeded, heq⟩
  · cases heq.symm.trans h
  · cases heq.symm.trans h
    exact ⟨rfl, fun htest => hneeded (by simpa [AppEnv.isTest] using htest)⟩

theorem buildSnaptradeConfig_error {appEnv : AppEnv} (henv : envOf raw = .ok appEnv)
    (h : buildSnaptradeConfig decode raw appEnv = .error e) : ValueFault decode raw e := by
  unfold buildSnaptradeConfig at h
  rcases except_bind_eq_error.mp h with h | ⟨clientId, -, h⟩
  · exact pickRequired_error henv (by simp [snaptradeVars]) h
  rcases except_bind_eq_error.mp h with h | ⟨consumerKey, -, h⟩
  · exact pickRequired_error henv (by simp [snaptradeVars]) h
  rcases except_bind_eq_error.mp h with h | ⟨redirectUri, -, h⟩
  · exact pickRequired_error henv (by simp [snaptradeVars]) h
  rcases except_bind_eq_error.mp h with h | ⟨encKeyB64, hkey, h⟩
  · exact pickRequired_error henv (by simp [snaptradeVars]) h
  rw [(pickRequired_ok hkey).1] at h
  rcases except_bind_eq_error.mp h with h | ⟨bytes, -, h⟩
  · exact encryptionKeyBytes_error h
  rcases except_bind_eq_error.mp h with h | ⟨stateB64, hstate, h⟩
  · exact pickRequired_error henv (by simp [snaptradeVars]) h
  rw [(pickRequired_ok hstate).1] at h
  rcases except_bind_eq_error.mp h with h | ⟨secret, -, h⟩
  · exact stateSecretText_error h
  · cases h

/-- What the SnapTrade block of a loaded configuration holds. -/
structure SnaptradeLoaded (decode : Base64Decode) (raw : Startup.RawConfig) (appEnv : AppEnv)
    (config : SnaptradeConfig) : Prop where
  present : appEnv ≠ .test → ∀ var ∈ snaptradeVars raw, trimmed var.2 ≠ none
  clientId : config.clientId = (trimmed raw.snaptradeClientId).getD ""
  consumerKey : config.consumerKey = (trimmed raw.snaptradeConsumerKey).getD ""
  redirectUri : config.redirectUri = (trimmed raw.snaptradeRedirectUri).getD ""
  key : (trimmed raw.mizanBrokerSecretEncryptionKey = none ∧
      config.brokerSecretEncryptionKey = []) ∨
    ∃ s, trimmed raw.mizanBrokerSecretEncryptionKey = some s ∧
      decode (trim s) = .ok config.brokerSecretEncryptionKey ∧
      config.brokerSecretEncryptionKey.length = 32
  state : (trimmed raw.mizanSnaptradeStateSecret = none ∧ config.stateSecret = "") ∨
    ∃ bytes, trimmed raw.mizanSnaptradeStateSecret = some config.stateSecret ∧
      decode (trim config.stateSecret) = .ok bytes ∧ 32 ≤ bytes.length

theorem buildSnaptradeConfig_ok {appEnv : AppEnv} {config : SnaptradeConfig}
    (h : buildSnaptradeConfig decode raw appEnv = .ok config) :
    SnaptradeLoaded decode raw appEnv config := by
  unfold buildSnaptradeConfig at h
  obtain ⟨clientId, hclientId, h⟩ := except_bind_eq_ok.mp h
  obtain ⟨consumerKey, hconsumerKey, h⟩ := except_bind_eq_ok.mp h
  obtain ⟨redirectUri, hredirectUri, h⟩ := except_bind_eq_ok.mp h
  obtain ⟨encKeyB64, hencKey, h⟩ := except_bind_eq_ok.mp h
  obtain ⟨bytes, hbytes, h⟩ := except_bind_eq_ok.mp h
  obtain ⟨stateB64, hstateB64, h⟩ := except_bind_eq_ok.mp h
  obtain ⟨secret, hsecret, h⟩ := except_bind_eq_ok.mp h
  cases h
  have hkey := encryptionKeyBytes_ok hbytes
  have hstate := stateSecretText_ok hsecret
  rw [(pickRequired_ok hencKey).1] at hkey
  rw [(pickRequired_ok hstateB64).1] at hstate
  exact
    { present := by
        intro htest var hvar
        simp only [snaptradeVars, List.mem_cons, List.not_mem_nil, or_false] at hvar
        rcases hvar with rfl | rfl | rfl | rfl | rfl
        · exact (pickRequired_ok hclientId).2 htest
        · exact (pickRequired_ok hconsumerKey).2 htest
        · exact (pickRequired_ok hredirectUri).2 htest
        · exact (pickRequired_ok hencKey).2 htest
        · exact (pickRequired_ok hstateB64).2 htest
      clientId := by rw [(pickRequired_ok hclientId).1]
      consumerKey := by rw [(pickRequired_ok hconsumerKey).1]
      redirectUri := by rw [(pickRequired_ok hredirectUri).1]
      key := hkey
      state := hstate }

/-! ### The configuration -/

/-- What a loaded configuration holds. -/
structure Loaded (decode : Base64Decode) (raw : Startup.RawConfig) (config : Startup.Config) :
    Prop where
  env : envOf raw = .ok config.appEnv
  logFormat : ∀ v reason, nonBlank raw.logFormat = some v → LogFormat.fromStr v ≠ .error reason
  databaseUrl : (trim raw.databaseUrl).isEmpty = false
  supabaseUrl : (trim raw.supabaseUrl).isEmpty = false
  scheme : config.appEnv = .test ∨ stripPrefix? "https://" (trim raw.supabaseUrl) ≠ none
  wildcard : config.appEnv = .test ∨ "*" ∉ origins raw
  snaptrade : SnaptradeLoaded decode raw config.appEnv config.snaptrade
  served : MizanConnect.Config.load raw.toRawConfig = .ok config.toConfig
  listens : config.appHost = raw.appHost.getD "0.0.0.0" ∧ config.appPort = raw.appPort.getD 8080
  rate : config.rateLimitPerMinute = max (raw.rateLimitPerMinute.getD 100) 1
  billing : config.billing = buildBillingConfig raw

theorem ofRaw_error (h : Startup.Config.ofRaw decode raw = .error e) : ValueFault decode raw e := by
  unfold Startup.Config.ofRaw at h
  rw [parseAppEnv_eq] at h
  rcases except_bind_eq_error.mp h with hfield | ⟨appEnv, hfield, h⟩
  · obtain ⟨e', hparse, rfl⟩ := mapError_eq_error.mp hfield
    obtain ⟨reason, hreason, rfl⟩ := mapError_eq_error.mp hparse
    exact .appEnv hreason
  have henv : envOf raw = .ok appEnv := mapError_eq_ok.mp (mapError_eq_ok.mp hfield)
  rcases except_bind_eq_error.mp h with h | ⟨logFormat, -, h⟩
  · exact parseLogFormat_error h
  rcases except_bind_eq_error.mp h with h | ⟨databaseUrl, -, h⟩
  · rcases trimRequired_cases raw.databaseUrl "DATABASE_URL" with ⟨hempty, heq⟩ | ⟨-, heq⟩
    · rw [heq] at h
      cases h
      exact .databaseUrl hempty
    · rw [heq] at h
      cases h
  rcases trimRequired_cases raw.supabaseUrl "SUPABASE_URL" with ⟨hempty, heq⟩ | ⟨-, heq⟩
  · rw [heq] at h
    cases h
    exact .supabaseUrl hempty
  rw [heq] at h
  obtain ⟨supabaseUrl, hurl, h⟩ := (except_bind_eq_error.mp h).resolve_left ok_ne_error
  cases hurl
  rcases except_bind_eq_error.mp h with h | ⟨_, -, h⟩
  · rcases checkScheme_cases appEnv (trim raw.supabaseUrl) with ⟨htest, hscheme, heq⟩ | ⟨-, heq⟩
    · rw [heq] at h
      cases h
      exact .scheme henv htest hscheme
    · rw [heq] at h
      cases h
  rcases except_bind_eq_error.mp h with h | ⟨allowed, -, h⟩
  · rcases parseCors_cases raw appEnv with ⟨htest, hstar, heq⟩ | ⟨-, allowed, heq⟩
    · rw [heq] at h
      cases h
      exact .wildcard henv htest hstar
    · rw [heq] at h
      cases h
  rcases except_bind_eq_error.mp h with h | ⟨snaptrade, -, h⟩
  · exact buildSnaptradeConfig_error henv h
  · cases h

/-- The fields that the rest of the service reads are those of the smaller
`Config::load`. -/
theorem served_of_checks {appEnv : AppEnv} {allowed : List String} (henv : envOf raw = .ok appEnv)
    (hurl : (trim raw.supabaseUrl).isEmpty = false)
    (hscheme : appEnv = .test ∨ stripPrefix? "https://" (trim raw.supabaseUrl) ≠ none)
    (hcors : parseCors raw.mizanCorsAllowedOrigins (!appEnv.isTest) = .ok allowed) :
    MizanConnect.Config.load raw.toRawConfig = .ok
      { appEnv
        databaseMaxConnections := max (raw.databaseMaxConnections.getD 10) 1
        supabaseUrl := trim raw.supabaseUrl
        supabaseJwtAudience := raw.supabaseJwtAudience.getD "authenticated"
        corsAllowedOrigins := allowed
        rateLimitPerMinute := max (raw.rateLimitPerMinute.getD 100) 1
        testJwtSecret :=
          if appEnv.isProduction then none else nonBlank raw.mizanTestJwtSecret } := by
  have hparse : parseAppEnv "APP_ENV" raw.appEnv "development" = .ok appEnv := by
    rw [parseAppEnv_eq, henv]
    rfl
  have htrim : trimRequired raw.supabaseUrl "SUPABASE_URL" = .ok (trim raw.supabaseUrl) := by
    simp [trimRequired, hurl]
  have hguard : ((stripPrefix? "https://" (trim raw.supabaseUrl)).isNone && !appEnv.isTest)
      = false := by
    rcases hscheme with rfl | hscheme
    · simp [AppEnv.isTest]
    · cases hsome : stripPrefix? "https://" (trim raw.supabaseUrl) with
      | none => exact absurd hsome hscheme
      | some rest => rfl
  unfold MizanConnect.Config.load
  simp only [hparse, htrim, bind, Except.bind]
  rw [hguard, hcors]
  rfl

theorem ofRaw_ok {config : Startup.Config} (h : Startup.Config.ofRaw decode raw = .ok config) :
    Loaded decode raw config := by
  unfold Startup.Config.ofRaw at h
  rw [parseAppEnv_eq] at h
  obtain ⟨appEnv, henv, h⟩ := except_bind_eq_ok.mp h
  obtain ⟨logFormat, hformat, h⟩ := except_bind_eq_ok.mp h
  obtain ⟨databaseUrl, hdatabase, h⟩ := except_bind_eq_ok.mp h
  obtain ⟨supabaseUrl, hsupabase, h⟩ := except_bind_eq_ok.mp h
  obtain ⟨_, hguard, h⟩ := except_bind_eq_ok.mp h
  obtain ⟨allowed, hallowed, h⟩ := except_bind_eq_ok.mp h
  obtain ⟨snaptrade, hsnaptrade, h⟩ := except_bind_eq_ok.mp h
  have henv : envOf raw = .ok appEnv := mapError_eq_ok.mp (mapError_eq_ok.mp henv)
  have hcors := mapError_eq_ok.mp hallowed
  have hdatabase : (trim raw.databaseUrl).isEmpty = false := by
    rcases trimRequired_cases raw.databaseUrl "DATABASE_URL" with ⟨-, heq⟩ | ⟨hfull, -⟩
    · rw [heq] at hdatabase
      cases hdatabase
    · exact hfull
  obtain ⟨hurl, rfl⟩ :
      (trim raw.supabaseUrl).isEmpty = false ∧ trim raw.supabaseUrl = supabaseUrl := by
    rcases trimRequired_cases raw.supabaseUrl "SUPABASE_URL" with ⟨-, heq⟩ | ⟨hfull, heq⟩
    · rw [heq] at hsupabase
      cases hsupabase
    · rw [heq] at hsupabase
      cases hsupabase
      exact ⟨hfull, rfl⟩
  have hscheme : appEnv = .test ∨ stripPrefix? "https://" (trim raw.supabaseUrl) ≠ none := by
    rcases checkScheme_cases appEnv (trim raw.supabaseUrl) with ⟨-, -, heq⟩ | ⟨hscheme, -⟩
    · rw [heq] at hguard
      cases hguard
    · exact hscheme
  have hstar : appEnv = .test ∨ "*" ∉ origins raw := by
    rcases parseCors_cases raw appEnv with ⟨-, -, heq⟩ | ⟨hstar, -⟩
    · rw [heq] at hcors
      cases hcors
    · exact hstar
  cases h
  exact
    { env := henv
      logFormat := fun v reason hv => parseLogFormat_ok hformat hv
      databaseUrl := hdatabase
      supabaseUrl := hurl
      scheme := hscheme
      wildcard := hstar
      snaptrade := buildSnaptradeConfig_ok hsnaptrade
      served := served_of_checks henv hurl hscheme hcors
      listens := ⟨rfl, rfl⟩
      rate := rfl
      billing := rfl }

/-- A configuration that loads has no fault in its values. -/
theorem Loaded.no_valueFault {config : Startup.Config} (h : Loaded decode raw config) :
    ¬ ValueFault decode raw e := by
  intro hfault
  have hsame : ∀ {appEnv}, envOf raw = .ok appEnv → config.appEnv = appEnv := fun henv =>
    Except.ok.inj (h.env.symm.trans henv)
  cases hfault with
  | appEnv hbad => exact ok_ne_error (h.env.symm.trans hbad)
  | logFormat hv hbad => exact h.logFormat _ _ hv hbad
  | databaseUrl hempty => exact Bool.false_ne_true (h.databaseUrl.symm.trans hempty)
  | supabaseUrl hempty => exact Bool.false_ne_true (h.supabaseUrl.symm.trans hempty)
  | scheme henv htest hscheme =>
    rcases h.scheme with hin | hscheme'
    · exact htest ((hsame henv).symm.trans hin)
    · exact hscheme' hscheme
  | wildcard henv htest hstar =>
    rcases h.wildcard with hin | hstar'
    · exact htest ((hsame henv).symm.trans hin)
    · exact hstar' hstar
  | snaptrade henv htest hvar hnone =>
    exact h.snaptrade.present (fun hin => htest ((hsame henv).symm.trans hin)) _ hvar hnone
  | keyText hs hbad =>
    rcases h.snaptrade.key with ⟨hnone, -⟩ | ⟨s, hs', hdecode, -⟩
    · exact Option.some_ne_none _ (hs.symm.trans hnone)
    · cases hs.symm.trans hs'
      exact ok_ne_error (hdecode.symm.trans hbad)
  | keyLength hs hdecode hlength =>
    rcases h.snaptrade.key with ⟨hnone, -⟩ | ⟨s, hs', hdecode', hlength'⟩
    · exact Option.some_ne_none _ (hs.symm.trans hnone)
    · cases hs.symm.trans hs'
      cases hdecode.symm.trans hdecode'
      exact hlength hlength'
  | stateText hs hbad =>
    rcases h.snaptrade.state with ⟨hnone, -⟩ | ⟨bytes, hs', hdecode, -⟩
    · exact Option.some_ne_none _ (hs.symm.trans hnone)
    · cases hs.symm.trans hs'
      exact ok_ne_error (hdecode.symm.trans hbad)
  | stateLength hs hdecode hlength =>
    rcases h.snaptrade.state with ⟨hnone, -⟩ | ⟨bytes, hs', hdecode', hlength'⟩
    · exact Option.some_ne_none _ (hs.symm.trans hnone)
    · cases hs.symm.trans hs'
      cases hdecode.symm.trans hdecode'
      exact Nat.not_lt.mpr hlength' hlength

/-! ### The extraction -/

variable {dict : Dict}

theorem check_cases (dict : Dict) (key : String) (type : FieldType) :
    (dict key = none ∧ dict.check key type = .ok ()) ∨
      ∃ v, dict key = some v ∧ dict.check key type = type.check key v := by
  unfold Dict.check
  cases dict key with
  | none => exact Or.inl ⟨rfl, rfl⟩
  | some v => exact Or.inr ⟨v, rfl, rfl⟩

/-- The entry that the extraction stops at. -/
theorem checkAll_error {l : List (String × FieldType)} {e : ExtractError}
    (h : dict.checkAll l = .error e) :
    ∃ key type v, (key, type) ∈ l ∧ dict key = some v ∧ type.check key v = .error e := by
  induction l with
  | nil => cases h
  | cons field rest ih =>
    obtain ⟨key, type⟩ := field
    rcases except_bind_eq_error.mp h with h | ⟨_, -, h⟩
    · rcases check_cases dict key type with ⟨-, heq⟩ | ⟨v, hv, heq⟩
      · cases heq.symm.trans h
      · exact ⟨key, type, v, List.mem_cons_self, hv, heq.symm.trans h⟩
    · obtain ⟨key', type', v, hmem, hv, hcheck⟩ := ih h
      exact ⟨key', type', v, List.mem_cons_of_mem _ hmem, hv, hcheck⟩

theorem checkAll_ok {l : List (String × FieldType)} (h : dict.checkAll l = .ok ()) {key : String}
    {type : FieldType} {v : Startup.Value} (hmem : (key, type) ∈ l) (hv : dict key = some v) :
    type.check key v = .ok () := by
  induction l with
  | nil => exact nomatch hmem
  | cons field rest ih =>
    obtain ⟨_, hfirst, hrest⟩ := except_bind_eq_ok.mp h
    cases List.mem_cons.mp hmem with
    | inl heq =>
      cases heq
      rcases check_cases dict key type with ⟨hnone, -⟩ | ⟨v', hv', heq⟩
      · exact absurd (hnone.symm.trans hv) nofun
      · cases hv.symm.trans hv'
        exact heq.symm.trans hfirst
    | inr hin => exact ih hrest hin

/-- A text field that is set and has passed its check has a text. -/
theorem text_ne_none {key : String} {v : Startup.Value} (hv : dict key = some v)
    (h : FieldType.string.check key v = .ok ()) : dict.text key ≠ none := by
  unfold Dict.text
  rw [hv]
  cases v with
  | string _ => nofun
  | char _ => nofun
  | _ => cases h

theorem required_cases (dict : Dict) (key : String) :
    (dict.text key = none ∧ dict.required key = .error (.missingField key)) ∨
      ∃ s, dict.text key = some s ∧ dict.required key = .ok s := by
  unfold Dict.required
  cases dict.text key with
  | none => exact Or.inl ⟨rfl, rfl⟩
  | some s => exact Or.inr ⟨s, rfl, rfl⟩

theorem required_ok {key s : String} (h : dict.required key = .ok s) : dict.text key = some s := by
  rcases required_cases dict key with ⟨-, heq⟩ | ⟨s', hs, heq⟩
  · cases heq.symm.trans h
  · cases heq.symm.trans h
    exact hs

/-- With the entries checked, a text that is not there was not set. -/
theorem required_error {key : String} {e : ExtractError}
    (hfields : dict.checkAll fields = .ok ()) (hfield : (key, .string) ∈ fields)
    (h : dict.required key = .error e) : dict key = none ∧ e = .missingField key := by
  rcases required_cases dict key with ⟨hnone, heq⟩ | ⟨s, -, heq⟩
  · cases heq.symm.trans h
    cases hv : dict key with
    | none => exact ⟨rfl, rfl⟩
    -- A value that is no text would have failed the check of its field.
    | some v => exact absurd hnone (text_ne_none hv (checkAll_ok hfields hfield hv))
  · cases heq.symm.trans h

theorem extract_error {e : ExtractError} (h : extract dict = .error e) :
    Fault decode dict (.figment e) := by
  -- The entries come before the fields that are not set.
  rcases except_bind_eq_error.mp h with h | ⟨_, hfields, h⟩
  · obtain ⟨key, type, v, hmem, hv, hcheck⟩ := checkAll_error h
    exact .mistyped hmem hv hcheck
  rcases except_bind_eq_error.mp h with h | ⟨databaseUrl, -, h⟩
  · obtain ⟨hnone, rfl⟩ := required_error hfields (by decide) h
    exact .unset (by decide) hnone
  rcases except_bind_eq_error.mp h with h | ⟨supabaseUrl, -, h⟩
  · obtain ⟨hnone, rfl⟩ := required_error hfields (by decide) h
    exact .unset (by decide) hnone
  · cases h

/-- The fields have passed their checks, the two texts are set, and the record holds the
values. -/
theorem extract_ok (h : extract dict = .ok raw) :
    dict.checkAll fields = .ok () ∧ (∀ key ∈ requiredFields, dict.text key ≠ none) ∧
      raw = values dict := by
  obtain ⟨_, hfields, h⟩ := except_bind_eq_ok.mp h
  obtain ⟨databaseUrl, hdatabase, h⟩ := except_bind_eq_ok.mp h
  obtain ⟨supabaseUrl, hsupabase, h⟩ := except_bind_eq_ok.mp h
  have hd := required_ok hdatabase
  have hu := required_ok hsupabase
  cases h
  refine ⟨hfields, ?_, ?_⟩
  · intro key hkey
    simp only [requiredFields, List.mem_cons, List.not_mem_nil, or_false] at hkey
    rcases hkey with rfl | rfl
    · rw [hd]
      nofun
    · rw [hu]
      nofun
  · unfold values
    rw [hd, hu]
    rfl

/-- A configuration that loads is made of the values. -/
theorem load_ok {config : Startup.Config} (h : Startup.Config.load decode dict = .ok config) :
    extract dict = .ok (values dict) ∧ Loaded decode (values dict) config := by
  obtain ⟨raw, hraw, h⟩ := except_bind_eq_ok.mp h
  have hextract := mapError_eq_ok.mp hraw
  cases (extract_ok hextract).2.2
  exact ⟨hextract, ofRaw_ok h⟩

theorem load_error (h : Startup.Config.load decode dict = .error e) : Fault decode dict e := by
  rcases except_bind_eq_error.mp h with h | ⟨raw, hraw, h⟩
  · obtain ⟨e', hextract, rfl⟩ := mapError_eq_error.mp h
    exact extract_error hextract
  · cases (extract_ok (mapError_eq_ok.mp hraw)).2.2
    exact .value (ofRaw_error h)

/-- A configuration that loads has no fault. -/
theorem no_fault {config : Startup.Config} (h : Startup.Config.load decode dict = .ok config) :
    ¬ Fault decode dict e := by
  obtain ⟨hextract, hloaded⟩ := load_ok h
  obtain ⟨hfields, hrequired, -⟩ := extract_ok hextract
  intro hfault
  cases hfault with
  | mistyped hfield hv hbad => exact ok_ne_error ((checkAll_ok hfields hfield hv).symm.trans hbad)
  | unset hfield hnone =>
    apply hrequired _ hfield
    unfold Dict.text
    rw [hnone]
  | value hbad => exact hloaded.no_valueFault hbad

/-- For every dictionary of variables, the configuration loads exactly when nothing in
the list of faults applies, and an error is the error of a fault that does apply. -/
theorem load_iff (decode : Base64Decode) (dict : Dict) :
    ((∃ config, Startup.Config.load decode dict = .ok config) ↔ ∀ e, ¬ Fault decode dict e) ∧
      ∀ e, Startup.Config.load decode dict = .error e → Fault decode dict e := by
  refine ⟨⟨?_, ?_⟩, fun e => load_error⟩
  · rintro ⟨config, hload⟩ e
    exact no_fault hload
  -- It loads or fails, and a failure is the error of a fault.
  · intro hnone
    cases hload : Startup.Config.load decode dict with
    | error e => exact absurd (load_error hload) (hnone e)
    | ok config => exact ⟨config, rfl⟩

end

end MizanConnect.Proofs.Server
