import MizanConnect.Proofs.Server.Configuration
import MizanConnect.Proofs.Snaptrade.SecretBlob

/-!
# `MizanConnect.Proofs.Server.Startup`: what a listening process has checked

`startup_iff` takes `load_iff` to the open port. There the key of the broker secrets is
needed in every environment: `Config::load` lets the test environment do without it,
and `main` does not. And the rate limit has a bound that no check states: from 2104112
requests a minute on, the limiter does not fit its nanoseconds and `build_app` panics.
-/

set_option autoImplicit false

namespace MizanConnect.Proofs.Server

open MizanConnect.Server (buildRateLimiterConfig)
open MizanConnect.Snaptrade.Encryption (Cipher EncryptionKey selfTest)
open MizanConnect.Startup

section
variable {Ip : Type} {cipher : Cipher} {world : World Ip} {dict : Dict}

theorem must_eq_ok {ok : Bool} {e : StartError} : must ok e = .ok () ↔ ok = true := by
  cases ok <;> simp [must]

/-- What a process that listens has gone through. -/
theorem main_eq_ok (hcipher : cipher.Sound 16) {server : Server Ip} :
    Startup.main cipher world dict = .ok server ↔
      ∃ config, Startup.Config.load world.decode dict = .ok config ∧ world.connects = true ∧
        world.migrates = true ∧
        EncryptionKey.fromBytes config.snaptrade.brokerSecretEncryptionKey = .ok server.encryption ∧
        world.nonce ≠ world.nonce2 ∧ world.buildsHttpClient = true ∧
        (buildRateLimiterConfig config.toConfig).fits = true ∧
        world.binds (bindAddr world config).1 (bindAddr world config).2 = true ∧
        server = ⟨config, server.encryption, world.startsReports, bindAddr world config⟩ := by
  unfold Startup.main
  constructor
  · intro h
    obtain ⟨config, hconfig, h⟩ := except_bind_eq_ok.mp h
    obtain ⟨_, hconnects, h⟩ := except_bind_eq_ok.mp h
    obtain ⟨_, hmigrates, h⟩ := except_bind_eq_ok.mp h
    obtain ⟨encryption, hkey, h⟩ := except_bind_eq_ok.mp h
    obtain ⟨_, htest, h⟩ := except_bind_eq_ok.mp h
    obtain ⟨_, hclient, h⟩ := except_bind_eq_ok.mp h
    obtain ⟨_, hfits, h⟩ := except_bind_eq_ok.mp h
    obtain ⟨_, hbind, h⟩ := except_bind_eq_ok.mp h
    cases h
    exact ⟨config, mapError_eq_ok.mp hconfig, must_eq_ok.mp hconnects, must_eq_ok.mp hmigrates,
      mapError_eq_ok.mp hkey,
      (Snaptrade.selfTest_ok_iff hcipher).mp (mapError_eq_ok.mp htest),
      must_eq_ok.mp hclient, must_eq_ok.mp hfits, must_eq_ok.mp hbind, rfl⟩
  · rintro ⟨config, hconfig, hconnects, hmigrates, hkey, hnonces, hclient, hfits, hbind, hserver⟩
    have htest : selfTest cipher server.encryption world.nonce world.nonce2 = .ok () :=
      (Snaptrade.selfTest_ok_iff hcipher).mpr hnonces
    refine except_bind_eq_ok.mpr ⟨config, mapError_eq_ok.mpr hconfig, ?_⟩
    refine except_bind_eq_ok.mpr ⟨(), must_eq_ok.mpr hconnects, ?_⟩
    refine except_bind_eq_ok.mpr ⟨(), must_eq_ok.mpr hmigrates, ?_⟩
    refine except_bind_eq_ok.mpr ⟨server.encryption, mapError_eq_ok.mpr hkey, ?_⟩
    refine except_bind_eq_ok.mpr ⟨(), mapError_eq_ok.mpr htest, ?_⟩
    refine except_bind_eq_ok.mpr ⟨(), must_eq_ok.mpr hclient, ?_⟩
    refine except_bind_eq_ok.mpr ⟨(), must_eq_ok.mpr hfits, ?_⟩
    refine except_bind_eq_ok.mpr ⟨(), must_eq_ok.mpr hbind, ?_⟩
    exact congrArg Except.ok hserver.symm

/-- `EncryptionKey::from_bytes` takes 32 bytes. -/
theorem fromBytes_eq_ok {bytes : List UInt8} {key : EncryptionKey} :
    EncryptionKey.fromBytes bytes = .ok key ↔ key.inner = bytes := by
  unfold EncryptionKey.fromBytes
  constructor
  · intro h
    split at h
    · cases h
      rfl
    · cases h
  · rintro rfl
    rw [dif_pos key.length_inner]

/-- The limiter fits its nanoseconds up to 2104111 requests a minute. -/
theorem fits_iff (config : MizanConnect.Config) :
    (buildRateLimiterConfig config).fits = true ↔ config.rateLimitPerMinute < 2104112 := by
  have hquota : (buildRateLimiterConfig config).fits = true ↔
      max (max config.rateLimitPerMinute 1 / 60) 1 *
        max (max config.rateLimitPerMinute 1 / 4) 1 * 10 ^ 9 < 2 ^ 64 := decide_eq_true_iff
  rw [hquota]
  -- Both factors grow with the rate.
  constructor
  · intro hlt
    by_contra hrate
    have hperiod : 35068 ≤ max (max config.rateLimitPerMinute 1 / 60) 1 := by omega
    have hburst : 526028 ≤ max (max config.rateLimitPerMinute 1 / 4) 1 := by omega
    have hproduct := Nat.mul_le_mul hperiod hburst
    omega
  · intro hrate
    have hperiod : max (max config.rateLimitPerMinute 1 / 60) 1 ≤ 35068 := by omega
    have hburst : max (max config.rateLimitPerMinute 1 / 4) 1 ≤ 526027 := by omega
    have hproduct := Nat.mul_le_mul hperiod hburst
    omega

/-- What holds of a process that listens. -/
structure Serving (world : World Ip) (raw : Startup.RawConfig) (server : Server Ip) : Prop where
  served : MizanConnect.Config.load raw.toRawConfig = .ok server.config.toConfig
  rate : server.config.rateLimitPerMinute < 2104112
  key : ∃ s, trimmed raw.mizanBrokerSecretEncryptionKey = some s ∧
    world.decode (trim s) = .ok server.encryption.inner
  snaptrade : server.config.appEnv ≠ .test →
    trimmed raw.snaptradeClientId = some server.config.snaptrade.clientId ∧
    trimmed raw.snaptradeConsumerKey = some server.config.snaptrade.consumerKey ∧
    trimmed raw.snaptradeRedirectUri = some server.config.snaptrade.redirectUri ∧
    ∃ bytes, world.decode (trim server.config.snaptrade.stateSecret) = .ok bytes ∧
      32 ≤ bytes.length
  testSecret : server.config.appEnv = .production → server.config.testJwtSecret = none
  billing : ∀ billing, server.config.billing = some billing →
    trimmed raw.stripeSecretKey = some billing.stripeSecretKey ∧
      trimmed raw.stripeWebhookSecret = some billing.stripeWebhookSecret

/-- Billing is configured with both secrets of Stripe. -/
theorem buildBillingConfig_eq_some {raw : Startup.RawConfig} {billing : BillingConfig}
    (h : buildBillingConfig raw = some billing) :
    trimmed raw.stripeSecretKey = some billing.stripeSecretKey ∧
      trimmed raw.stripeWebhookSecret = some billing.stripeWebhookSecret := by
  obtain ⟨secret, hsecret, h⟩ := Option.bind_eq_some_iff.mp h
  obtain ⟨webhook, hwebhook, h⟩ := Option.bind_eq_some_iff.mp h
  cases h
  exact ⟨hsecret, hwebhook⟩

/-- A variable that is there is the field. -/
theorem eq_some_of_getD {value : Option String} {field : String} (hne : value ≠ none)
    (h : field = value.getD "") : value = some field := by
  cases value with
  | none => exact absurd rfl hne
  | some v =>
    rw [h]
    rfl

theorem serving_of_main (hcipher : cipher.Sound 16) {server : Server Ip}
    (h : Startup.main cipher world dict = .ok server) : Serving world (values dict) server := by
  obtain ⟨config, hconfig, -, -, hkey, -, -, hfits, -, hserver⟩ := (main_eq_ok hcipher).mp h
  have hloaded := (load_ok hconfig).2
  have hinner := fromBytes_eq_ok.mp hkey
  rw [hserver]
  refine ⟨hloaded.served, (fits_iff _).mp hfits, ?_, ?_, ?_,
    fun billing hb => buildBillingConfig_eq_some (hloaded.billing ▸ hb)⟩
  · rcases hloaded.snaptrade.key with ⟨-, hempty⟩ | ⟨s, hs, hdecode, -⟩
    · -- An empty key does not get through `from_bytes`.
      have hlength := server.encryption.length_inner
      rw [hinner, hempty] at hlength
      cases hlength
    · exact ⟨s, hs, hdecode.trans (congrArg Except.ok hinner.symm)⟩
  · intro htest
    have hpresent := hloaded.snaptrade.present htest
    have hvar : ∀ var value, (var, value) ∈ snaptradeVars (values dict) → trimmed value ≠ none :=
      fun var value => hpresent (var, value)
    refine ⟨eq_some_of_getD (hvar "SNAPTRADE_CLIENT_ID" _ ?_) hloaded.snaptrade.clientId,
      eq_some_of_getD (hvar "SNAPTRADE_CONSUMER_KEY" _ ?_) hloaded.snaptrade.consumerKey,
      eq_some_of_getD (hvar "SNAPTRADE_REDIRECT_URI" _ ?_) hloaded.snaptrade.redirectUri, ?_⟩
    · simp [snaptradeVars]
    · simp [snaptradeVars]
    · simp [snaptradeVars]
    rcases hloaded.snaptrade.state with ⟨hnone, -⟩ | ⟨bytes, -, hdecode, hlength⟩
    · refine absurd hnone (hvar "MIZAN_SNAPTRADE_STATE_SECRET" _ ?_)
      simp [snaptradeVars]
    · exact ⟨bytes, hdecode, hlength⟩
  · intro hprod
    refine (Config.load_eq_ok hloaded.served).2.2 ?_
    rw [AppEnv.isProduction, hprod]
    rfl

/-- For every dictionary of variables and whatever the calls to the outside come to,
`main` gets to listen exactly when nothing is wrong with the configuration, the key of
the broker secrets is there (the test environment included), the database, the
migrations and the HTTP client are fine, the self-test draws two nonces, the rate limit
is below 2104112 a minute, and the port is free. A process that listens has the checked
values: the 32 bytes of the key, outside of the test environment the SnapTrade
credentials and a state secret of at least 32 bytes, no test secret in production, and
billing only with both secrets of Stripe. -/
theorem startup_iff (hcipher : cipher.Sound 16) (world : World Ip) (dict : Dict) :
    ((∃ server, Startup.main cipher world dict = .ok server) ↔
      (∀ e, ¬ Fault world.decode dict e) ∧
        trimmed (dict.text "mizan_broker_secret_encryption_key") ≠ none ∧
        world.connects = true ∧ world.migrates = true ∧ world.nonce ≠ world.nonce2 ∧
        world.buildsHttpClient = true ∧
        (dict.count "rate_limit_per_minute").getD 100 < 2104112 ∧
        world.binds
          ((world.parseIp ((dict.text "app_host").getD "0.0.0.0")).getD world.unspecified)
          ((dict.count "app_port").getD 8080) = true) ∧
    ∀ server, Startup.main cipher world dict = .ok server →
      Serving world (values dict) server := by
  have hlisten : ∀ {config}, Loaded world.decode (values dict) config →
      bindAddr world config =
        ((world.parseIp ((dict.text "app_host").getD "0.0.0.0")).getD world.unspecified,
          (dict.count "app_port").getD 8080) := by
    intro config hloaded
    rw [bindAddr, hloaded.listens.1, hloaded.listens.2]
    rfl
  have hrate : ∀ {config}, Loaded world.decode (values dict) config →
      ((buildRateLimiterConfig config.toConfig).fits = true ↔
        (dict.count "rate_limit_per_minute").getD 100 < 2104112) := by
    intro config hloaded
    rw [fits_iff, hloaded.rate]
    show max ((dict.count "rate_limit_per_minute").getD 100) 1 < 2104112 ↔ _
    omega
  refine ⟨⟨?_, ?_⟩, fun server => serving_of_main hcipher⟩
  -- `Serving` has the key, `main_eq_ok` the rest.
  · rintro ⟨server, h⟩
    obtain ⟨s, hs, -⟩ := (serving_of_main hcipher h).key
    obtain ⟨config, hconfig, hconnects, hmigrates, -, hnonces, hclient, hfits, hbind, -⟩ :=
      (main_eq_ok hcipher).mp h
    have hloaded := (load_ok hconfig).2
    rw [hlisten hloaded] at hbind
    exact ⟨(load_iff _ _).1.mp ⟨config, hconfig⟩,
      fun hnone => Option.some_ne_none _ (hs.symm.trans hnone), hconnects, hmigrates, hnonces,
      hclient, (hrate hloaded).mp hfits, hbind⟩
  · rintro ⟨hfault, hkey, hconnects, hmigrates, hnonces, hclient, hlimit, hbind⟩
    obtain ⟨config, hconfig⟩ := (load_iff world.decode dict).1.mpr hfault
    have hloaded := (load_ok hconfig).2
    -- A key that is there has passed the length check of the configuration.
    rcases hloaded.snaptrade.key with ⟨hnone, -⟩ | ⟨s, -, -, hlength⟩
    · exact absurd hnone hkey
    · have hbind' : world.binds (bindAddr world config).1 (bindAddr world config).2 = true := by
        rw [hlisten hloaded]
        exact hbind
      exact ⟨⟨config, ⟨_, hlength⟩, world.startsReports, bindAddr world config⟩,
        (main_eq_ok hcipher).mpr ⟨config, hconfig, hconnects, hmigrates, fromBytes_eq_ok.mpr rfl,
          hnonces, hclient, (hrate hloaded).mpr hlimit, hbind', rfl⟩⟩

end

/-- An environment for tests, without a single secret. -/
def testDict : Dict := fun key =>
  if key = "app_env" then some (.string "test")
  else if key = "database_url" then some (.string "d")
  else if key = "supabase_url" then some (.string "u")
  else none

/-- A surrounding in which nothing fails, and every text decodes to 32 bytes. -/
def calmWorld : World Unit :=
  { decode := fun _ => .ok (List.replicate 32 7)
    nonce := Snaptrade.zeroNonce, nonce2 := ⟨List.replicate 12 1, by decide⟩
    connects := true, migrates := true, buildsHttpClient := true, startsReports := true
    parseIp := fun _ => none, unspecified := (), binds := fun _ _ => true }

/-- `startup_iff` in the test environment: its configuration loads without the key of
the broker secrets, the start fails without it, and goes through with it. With a rate
that does not fit the configuration loads, and the start fails. -/
theorem startup_iff_test :
    (∃ config, Startup.Config.load calmWorld.decode testDict = .ok config) ∧
      (¬ ∃ server, Startup.main Snaptrade.fixedCipher.toAead calmWorld testDict = .ok server) ∧
      (∃ server, Startup.main Snaptrade.fixedCipher.toAead calmWorld
        (Function.update testDict "mizan_broker_secret_encryption_key" (some (.string "k")))
          = .ok server) ∧
      (∃ config, Startup.Config.load calmWorld.decode
        (Function.update testDict "rate_limit_per_minute" (some (.int 3000000))) = .ok config) ∧
      ¬ ∃ server, Startup.main Snaptrade.fixedCipher.toAead calmWorld
        (Function.update testDict "rate_limit_per_minute" (some (.int 3000000))) = .ok server := by
  have hiff := startup_iff Snaptrade.fixedCipher.sound calmWorld
  refine ⟨⟨_, rfl⟩, fun h => ((hiff testDict).1.mp h).2.1 rfl, (hiff _).1.mpr ?_, ⟨_, rfl⟩, ?_⟩
  · exact ⟨(load_iff _ _).1.mp ⟨_, rfl⟩, by decide, rfl, rfl, by decide, rfl, by decide, rfl⟩
  · intro h
    exact absurd ((hiff _).1.mp h).2.2.2.2.2.2.1 (by decide)

end MizanConnect.Proofs.Server
