import MizanConnect.Billing.Prices
import MizanConnect.Config
import MizanConnect.Server
import MizanConnect.Snaptrade.Encryption

/-!
# `MizanConnect.Startup`: from the environment to the open port

`Config::load` of `src/config.rs` in full, and `main` of `src/main.rs` up to the
bind. `MizanConnect.Config` has the part of the configuration that the server, the
pool and token verification read, and the helpers of its fields.

The start is the dictionary that `figment` makes of the variables: names in lower
case, each with a typed value. A value of another type than its field is not
converted, it is an error. How `figment` parses the text of a variable, the base64
decoder, and what the database, the HTTP client and the listener come to are
parameters. The sample rate of Sentry is checked for its type and not kept, since it
is a float that nothing here reads.
-/

set_option autoImplicit false

namespace MizanConnect.Startup

open Billing (StripePrices)
open MizanConnect.Server (buildRateLimiterConfig)
open Snaptrade.Encryption (Cipher EncryptionError EncryptionKey Nonce selfTest)

/-! ### The extraction -/

/-- What `figment` has parsed a variable to. What a float, a list or a dictionary holds
is left out, since no field keeps it. -/
inductive Value where
  | string (s : String)
  | char (c : Char)
  | bool (b : Bool)
  | int (n : Int)
  | float
  | array
  | dict
deriving DecidableEq, Repr

/-- The variables, by their names in lower case. -/
abbrev Dict := String → Option Value

/-- The type of a field. -/
inductive FieldType where
  | string
  | unsigned (bits : Nat)
  | float
deriving DecidableEq, Repr

/-- `figment::Error`, the kinds that an extraction of `RawConfig` can end with. -/
inductive ExtractError where
  | invalidType (key : String) (found : Value) (expected : FieldType)
  | invalidValue (key : String) (found : Value) (expected : FieldType)
  | missingField (key : String)
deriving DecidableEq, Repr

/-- An integer of 64 bits. A wider one is of no type that a field takes. -/
def isWord (n : Int) : Bool := -2 ^ 63 ≤ n && n < 2 ^ 64

/-- `Deserialize` of a field. A character is a text of its own, an integer is also a
float, and nothing else changes its type. -/
def FieldType.check (type : FieldType) (key : String) (v : Value) : Except ExtractError Unit :=
  match type, v with
  | .string, .string _ => .ok ()
  | .string, .char _ => .ok ()
  | .unsigned bits, .int n =>
    if !isWord n then .error (.invalidType key v type)
    else if 0 ≤ n ∧ n < 2 ^ bits then .ok ()
    else .error (.invalidValue key v type)
  | .float, .int n => if isWord n then .ok () else .error (.invalidType key v type)
  | .float, .float => .ok ()
  | _, _ => .error (.invalidType key v type)

/-- A field whose variable is not set is left for later. -/
def Dict.check (dict : Dict) (key : String) (type : FieldType) : Except ExtractError Unit :=
  match dict key with
  | some v => type.check key v
  | none => .ok ()

/-- The fields of `RawConfig`, in the order of the keys of a dictionary. -/
def fields : List (String × FieldType) :=
  [("app_env", .string), ("app_host", .string), ("app_port", .unsigned 16),
    ("database_max_connections", .unsigned 32), ("database_url", .string),
    ("log_format", .string), ("log_level", .string), ("mizan_billing_return_url", .string),
    ("mizan_broker_secret_encryption_key", .string), ("mizan_cors_allowed_origins", .string),
    ("mizan_snaptrade_state_secret", .string), ("mizan_test_jwt_secret", .string),
    ("openai_api_key", .string), ("rate_limit_per_minute", .unsigned 32),
    ("sentry_dsn", .string), ("sentry_environment", .string),
    ("sentry_traces_sample_rate", .float), ("snaptrade_api_base", .string),
    ("snaptrade_client_id", .string), ("snaptrade_consumer_key", .string),
    ("snaptrade_redirect_uri", .string), ("stripe_price_basic_monthly", .string),
    ("stripe_price_basic_yearly", .string), ("stripe_price_enterprise_monthly", .string),
    ("stripe_price_enterprise_yearly", .string), ("stripe_price_pro_monthly", .string),
    ("stripe_price_pro_yearly", .string), ("stripe_secret_key", .string),
    ("stripe_webhook_secret", .string), ("supabase_jwt_audience", .string),
    ("supabase_service_role_key", .string), ("supabase_url", .string)]

/-- The entries are visited in the order of the keys, up to the first that its field
does not take. -/
def Dict.checkAll (dict : Dict) : List (String × FieldType) → Except ExtractError Unit
  | [] => .ok ()
  | (key, type) :: rest => do
    dict.check key type
    dict.checkAll rest

/-- The text of a variable. -/
def Dict.text (dict : Dict) (key : String) : Option String :=
  match dict key with
  | some (.string s) => some s
  | some (.char c) => some (String.singleton c)
  | _ => none

/-- The number of a variable. -/
def Dict.count (dict : Dict) (key : String) : Option Nat :=
  match dict key with
  | some (.int n) => some n.toNat
  | _ => none

/-- A field that is no option. -/
def Dict.required (dict : Dict) (key : String) : Except ExtractError String :=
  match dict.text key with
  | some s => .ok s
  | none => .error (.missingField key)

/-! ### The configuration -/

/-- `LogFormat`. -/
inductive LogFormat where
  | pretty
  | json
deriving DecidableEq, Repr

/-- `impl FromStr for LogFormat`. -/
def LogFormat.fromStr (s : String) : Except String LogFormat :=
  let name := toAsciiLowercase (trim s)
  if name = "pretty" then .ok .pretty
  else if name = "json" then .ok .json
  else .error ("unknown LOG_FORMAT value: " ++ name)

/-- `ConfigError`. -/
inductive ConfigError where
  | missing (var : String)
  | invalid (var reason : String)
  | corsWildcardWithAuth
  | badEncryptionKeyLength (got : Nat)
  | stateSecretTooShort (got : Nat)
  | figment (e : ExtractError)
deriving DecidableEq, Repr

/-- An error of the fields in `MizanConnect.Config`. -/
def ConfigError.ofField : MizanConnect.ConfigError → ConfigError
  | .missing var => .missing var
  | .invalid var reason => .invalid var reason
  | .corsWildcardWithAuth => .corsWildcardWithAuth

/-- `RawConfig`, with the other variables. -/
structure RawConfig extends MizanConnect.RawConfig where
  appHost : Option String
  appPort : Option Nat
  logLevel : Option String
  logFormat : Option String
  databaseUrl : String
  supabaseServiceRoleKey : Option String
  sentryDsn : Option String
  sentryEnvironment : Option String
  snaptradeClientId : Option String
  snaptradeConsumerKey : Option String
  snaptradeApiBase : Option String
  snaptradeRedirectUri : Option String
  mizanBrokerSecretEncryptionKey : Option String
  mizanSnaptradeStateSecret : Option String
  stripeSecretKey : Option String
  stripeWebhookSecret : Option String
  stripePriceBasicMonthly : Option String
  stripePriceBasicYearly : Option String
  stripePriceProMonthly : Option String
  stripePriceProYearly : Option String
  stripePriceEnterpriseMonthly : Option String
  stripePriceEnterpriseYearly : Option String
  mizanBillingReturnUrl : Option String
  openaiApiKey : Option String

/-- `RawConfig` of a dictionary, with the two texts that it needs. -/
def RawConfig.ofDict (dict : Dict) (databaseUrl supabaseUrl : String) : RawConfig where
  appHost := dict.text "app_host"
  appPort := dict.count "app_port"
  appEnv := dict.text "app_env"
  logLevel := dict.text "log_level"
  logFormat := dict.text "log_format"
  databaseUrl
  databaseMaxConnections := dict.count "database_max_connections"
  supabaseUrl
  supabaseJwtAudience := dict.text "supabase_jwt_audience"
  supabaseServiceRoleKey := dict.text "supabase_service_role_key"
  mizanCorsAllowedOrigins := dict.text "mizan_cors_allowed_origins"
  rateLimitPerMinute := dict.count "rate_limit_per_minute"
  sentryDsn := dict.text "sentry_dsn"
  sentryEnvironment := dict.text "sentry_environment"
  mizanTestJwtSecret := dict.text "mizan_test_jwt_secret"
  snaptradeClientId := dict.text "snaptrade_client_id"
  snaptradeConsumerKey := dict.text "snaptrade_consumer_key"
  snaptradeApiBase := dict.text "snaptrade_api_base"
  snaptradeRedirectUri := dict.text "snaptrade_redirect_uri"
  mizanBrokerSecretEncryptionKey := dict.text "mizan_broker_secret_encryption_key"
  mizanSnaptradeStateSecret := dict.text "mizan_snaptrade_state_secret"
  stripeSecretKey := dict.text "stripe_secret_key"
  stripeWebhookSecret := dict.text "stripe_webhook_secret"
  stripePriceBasicMonthly := dict.text "stripe_price_basic_monthly"
  stripePriceBasicYearly := dict.text "stripe_price_basic_yearly"
  stripePriceProMonthly := dict.text "stripe_price_pro_monthly"
  stripePriceProYearly := dict.text "stripe_price_pro_yearly"
  stripePriceEnterpriseMonthly := dict.text "stripe_price_enterprise_monthly"
  stripePriceEnterpriseYearly := dict.text "stripe_price_enterprise_yearly"
  mizanBillingReturnUrl := dict.text "mizan_billing_return_url"
  openaiApiKey := dict.text "openai_api_key"

/-- `Figment::extract` at `RawConfig`: the entries first, then what is not there. -/
def extract (dict : Dict) : Except ExtractError RawConfig := do
  dict.checkAll fields
  let databaseUrl ← dict.required "database_url"
  let supabaseUrl ← dict.required "supabase_url"
  .ok (RawConfig.ofDict dict databaseUrl supabaseUrl)

/-- `SentryConfig`. -/
structure SentryConfig where
  dsn : Option String
  environment : String

/-- `SnaptradeConfig`. -/
structure SnaptradeConfig where
  clientId : String
  consumerKey : String
  apiBase : String
  redirectUri : String
  brokerSecretEncryptionKey : List UInt8
  stateSecret : String

/-- `BillingConfig`. -/
structure BillingConfig where
  stripeSecretKey : String
  stripeWebhookSecret : String
  stripePrices : StripePrices
  returnUrl : String
  openaiApiKey : Option String

/-- `Config`, with the other fields. -/
structure Config extends MizanConnect.Config where
  appHost : String
  appPort : Nat
  logLevel : String
  logFormat : LogFormat
  databaseUrl : String
  supabaseServiceRoleKey : Option String
  sentry : SentryConfig
  snaptrade : SnaptradeConfig
  billing : Option BillingConfig

/-- `.filter(|s| !s.trim().is_empty())`. -/
def nonBlank (raw : Option String) : Option String := raw.filter fun s => !(trim s).isEmpty

/-- `.map(str::trim).filter(|s| !s.is_empty())`. -/
def trimmed (raw : Option String) : Option String := (raw.map trim).filter fun s => !s.isEmpty

/-- `parse_optional` at `LogFormat`. -/
def parseLogFormat (var : String) (raw : Option String) (default : LogFormat) :
    Except ConfigError LogFormat :=
  match nonBlank raw with
  | some v => (LogFormat.fromStr v).mapError (.invalid var)
  | none => .ok default

/-- `pick_required`. -/
def pickRequired (var : String) (raw : Option String) (required : Bool) :
    Except ConfigError (Option String) :=
  match trimmed raw with
  | some v => .ok (some v)
  | none => if required then .error (.missing var) else .ok none

/-- `base64::engine::general_purpose::STANDARD.decode`. An error has its text. -/
abbrev Base64Decode := String → Except String (List UInt8)

/-- The decoding of `MIZAN_BROKER_SECRET_ENCRYPTION_KEY`. In the test environment the
key can be left out. -/
def encryptionKeyBytes (decode : Base64Decode) (encKeyB64 : Option String) :
    Except ConfigError (List UInt8) :=
  match encKeyB64 with
  | none => .ok []
  | some s => do
    let bytes ← (decode (trim s)).mapError fun e =>
      .invalid "MIZAN_BROKER_SECRET_ENCRYPTION_KEY" ("base64 decode: " ++ e)
    if bytes.length ≠ 32 then .error (.badEncryptionKeyLength bytes.length) else .ok bytes

/-- The check of `MIZAN_SNAPTRADE_STATE_SECRET`. What is kept is the text. -/
def stateSecretText (decode : Base64Decode) (stateB64 : Option String) :
    Except ConfigError String :=
  match stateB64 with
  | none => .ok ""
  | some s => do
    let bytes ← (decode (trim s)).mapError fun e =>
      .invalid "MIZAN_SNAPTRADE_STATE_SECRET" ("base64 decode: " ++ e)
    if bytes.length < 32 then .error (.stateSecretTooShort bytes.length) else .ok s

/-- `build_snaptrade_config`. -/
def buildSnaptradeConfig (decode : Base64Decode) (raw : RawConfig) (appEnv : AppEnv) :
    Except ConfigError SnaptradeConfig := do
  let required := !appEnv.isTest
  let clientId ← pickRequired "SNAPTRADE_CLIENT_ID" raw.snaptradeClientId required
  let consumerKey ← pickRequired "SNAPTRADE_CONSUMER_KEY" raw.snaptradeConsumerKey required
  let redirectUri ← pickRequired "SNAPTRADE_REDIRECT_URI" raw.snaptradeRedirectUri required
  let encKeyB64 ← pickRequired "MIZAN_BROKER_SECRET_ENCRYPTION_KEY"
    raw.mizanBrokerSecretEncryptionKey required
  let brokerSecretEncryptionKey ← encryptionKeyBytes decode encKeyB64
  let stateB64 ← pickRequired "MIZAN_SNAPTRADE_STATE_SECRET" raw.mizanSnaptradeStateSecret required
  let stateSecret ← stateSecretText decode stateB64
  .ok
    { clientId := clientId.getD ""
      consumerKey := consumerKey.getD ""
      apiBase := (nonBlank raw.snaptradeApiBase).getD "https://api.snaptrade.com/api/v1"
      redirectUri := redirectUri.getD ""
      brokerSecretEncryptionKey
      stateSecret }

/-- `build_billing_config`: both secrets of Stripe or nothing. -/
def buildBillingConfig (raw : RawConfig) : Option BillingConfig := do
  let secret ← trimmed raw.stripeSecretKey
  let webhook ← trimmed raw.stripeWebhookSecret
  return { stripeSecretKey := secret
           stripeWebhookSecret := webhook
           stripePrices :=
            { basicMonthly := raw.stripePriceBasicMonthly.getD ""
              basicYearly := raw.stripePriceBasicYearly.getD ""
              proMonthly := raw.stripePriceProMonthly.getD ""
              proYearly := raw.stripePriceProYearly.getD ""
              enterpriseMonthly := raw.stripePriceEnterpriseMonthly.getD ""
              enterpriseYearly := raw.stripePriceEnterpriseYearly.getD "" }
           returnUrl := (trimmed raw.mizanBillingReturnUrl).getD "https://mizan.app/billing/return"
           openaiApiKey := trimmed raw.openaiApiKey }

/-- The default of `SENTRY_ENVIRONMENT`. -/
def defaultSentryEnvironment : AppEnv → String
  | .production => "production"
  | .staging => "staging"
  | .development => "development"
  | .test => "test"

/-- The default of `LOG_FORMAT`. -/
def defaultLogFormat (appEnv : AppEnv) : LogFormat :=
  match appEnv with
  | .production => .json
  | .staging => .json
  | _ => .pretty

/-- The scheme check of `SUPABASE_URL`. -/
def checkScheme (appEnv : AppEnv) (supabaseUrl : String) : Except ConfigError Unit :=
  if (stripPrefix? "https://" supabaseUrl).isNone && !appEnv.isTest then
    .error (.invalid "SUPABASE_URL" "must use https:// scheme outside of test env")
  else .ok ()

/-- `Config::load` on the extracted values. -/
def Config.ofRaw (decode : Base64Decode) (raw : RawConfig) : Except ConfigError Config := do
  let appEnv ← (parseAppEnv "APP_ENV" raw.appEnv "development").mapError .ofField
  let logFormat ← parseLogFormat "LOG_FORMAT" raw.logFormat (defaultLogFormat appEnv)
  let databaseUrl ← (trimRequired raw.databaseUrl "DATABASE_URL").mapError .ofField
  let supabaseUrl ← (trimRequired raw.supabaseUrl "SUPABASE_URL").mapError .ofField
  checkScheme appEnv supabaseUrl
  let corsAllowedOrigins ←
    (parseCors raw.mizanCorsAllowedOrigins (!appEnv.isTest)).mapError .ofField
  let snaptrade ← buildSnaptradeConfig decode raw appEnv
  .ok
    { appEnv
      databaseMaxConnections := max (raw.databaseMaxConnections.getD 10) 1
      supabaseUrl
      supabaseJwtAudience := raw.supabaseJwtAudience.getD "authenticated"
      corsAllowedOrigins
      rateLimitPerMinute := max (raw.rateLimitPerMinute.getD 100) 1
      testJwtSecret := if appEnv.isProduction then none else nonBlank raw.mizanTestJwtSecret
      appHost := raw.appHost.getD "0.0.0.0"
      appPort := raw.appPort.getD 8080
      logLevel := raw.logLevel.getD "info"
      logFormat
      databaseUrl
      supabaseServiceRoleKey := nonBlank raw.supabaseServiceRoleKey
      sentry :=
        { dsn := nonBlank raw.sentryDsn
          environment := raw.sentryEnvironment.getD (defaultSentryEnvironment appEnv) }
      snaptrade
      billing := buildBillingConfig raw }

/-- `Config::load`. -/
def Config.load (decode : Base64Decode) (dict : Dict) : Except ConfigError Config := do
  let raw ← (extract dict).mapError .figment
  Config.ofRaw decode raw

/-! ### The start -/

/-- What the start depends on: the nonces of the self-test, and what comes of the
calls to the outside. `parseIp` reads `APP_HOST`, and `unspecified` is
`0.0.0.0`. `binds` is the bind and the address that is read back for the log. -/
structure World (Ip : Type) where
  decode : Base64Decode
  nonce : Nonce
  nonce2 : Nonce
  connects : Bool
  migrates : Bool
  buildsHttpClient : Bool
  startsReports : Bool
  parseIp : String → Option Ip
  unspecified : Ip
  binds : Ip → Nat → Bool

/-- How `main` ends before it serves. -/
inductive StartError where
  | config (e : ConfigError)
  | connecting
  | migrating
  | keyLength (e : EncryptionError)
  | selfTest (e : EncryptionError)
  | snaptradeClient
  | buildApp
  | bind
deriving DecidableEq, Repr

/-- A process that listens. -/
structure Server (Ip : Type) where
  config : Config
  encryption : EncryptionKey
  reports : Bool
  address : Ip × Nat

/-- `bind_addr`. -/
def bindAddr {Ip : Type} (world : World Ip) (config : Config) : Ip × Nat :=
  ((world.parseIp config.appHost).getD world.unspecified, config.appPort)

/-- A step that can fail. -/
def must (ok : Bool) (e : StartError) : Except StartError Unit := if ok then .ok () else .error e

/-- `main` up to the listener. The warm-up of the key cache cannot fail, and a
scheduler that does not start is only logged. Of `build_app`, which makes the layers
and routes of the service, the one step that can go wrong is the limiter: `governor`
panics when the quota does not fit. -/
def main {Ip : Type} (cipher : Cipher) (world : World Ip) (dict : Dict) :
    Except StartError (Server Ip) := do
  let config ← (Config.load world.decode dict).mapError .config
  must world.connects .connecting
  must world.migrates .migrating
  let encryption ← (EncryptionKey.fromBytes config.snaptrade.brokerSecretEncryptionKey).mapError
    .keyLength
  (selfTest cipher encryption world.nonce world.nonce2).mapError .selfTest
  must world.buildsHttpClient .snaptradeClient
  must (buildRateLimiterConfig config.toConfig).fits .buildApp
  let address := bindAddr world config
  must (world.binds address.1 address.2) .bind
  return { config, encryption, reports := world.startsReports, address }

end MizanConnect.Startup
