import MizanConnect.Auth.Verification

/-!
# `MizanConnect.Proofs.Auth.VerifyToken`: what an accepted token proves

`verify_token` picks the algorithm and the key from the header of the token,
which its sender controls. `verifyToken_eq_ok` inverts it: an accepted token
went through one of two calls of `decode`, each with its own validation. What
`decode` checks (`Jsonwebtoken.Sound`) then gives `verify_token_sound`.
-/

set_option autoImplicit false

namespace MizanConnect.Proofs.Auth

open MizanConnect.Auth hiding verifyToken
open MizanConnect.Auth.Verification

/-- The entry is the one that `kid` selects: the first with that `kid`, or the
first of all when there is none. -/
def Selected {Key : Type} (keys : List (JwkEntry Key)) (kid : Option String)
    (entry : JwkEntry Key) : Prop :=
  ∃ pre post, keys = pre ++ entry :: post ∧ (kid = none → pre = []) ∧
    ∀ want, kid = some want → entry.kid = some want ∧ ∀ other ∈ pre, other.kid ≠ some want

section
variable {Key : Type} {jwt : Jsonwebtoken Key} {config : Config} {fetch : Fetch} {now : Nat}
  {state : CacheState Key} {token : String} {claims : TokenClaims}

theorem selected_of_selectEntry {keys : List (JwkEntry Key)} {kid : Option String}
    {entry : JwkEntry Key} (h : selectEntry keys kid = some entry) : Selected keys kid entry := by
  cases kid with
  | none =>
    -- `keys.first()`: nothing stands before the first key.
    obtain ⟨post, hkeys⟩ := List.head?_eq_some_iff.mp h
    exact ⟨[], post, hkeys, fun _ => rfl, fun want hwant => nomatch hwant⟩
  | some want =>
    -- `find` stops at the first key with this `kid`.
    obtain ⟨hentry, pre, post, hkeys, hpre⟩ := List.find?_eq_some_iff_append.mp h
    refine ⟨pre, post, hkeys, fun hnone => (nomatch hnone), ?_⟩
    intro want' hwant
    cases hwant
    constructor
    · simpa using hentry
    · intro other hother
      simpa using hpre other hother

/-- The test path is taken outside production, with a configured secret, for a
header that says HS256. -/
theorem testSecretFor_eq_some {header : Header} {secret : String} :
    testSecretFor config header = some secret ↔
      config.appEnv ≠ .production ∧ header.alg = .hs256 ∧ config.testJwtSecret = some secret := by
  unfold testSecretFor AppEnv.isProduction
  by_cases hprod : config.appEnv = .production
  · simp [hprod]
  · by_cases halg : header.alg = .hs256
    · simp [hprod, halg]
    · simp [hprod, halg]

/-- An accepted token: which call of `decode` accepted it. -/
theorem verifyToken_eq_ok
    (h : (verifyToken jwt config fetch now state token).1 = .ok claims) :
    ∃ header, jwt.decodeHeader (trim token) = some header ∧
      ((∃ secret, testSecretFor config header = some secret ∧
          jwt.decode now (trim token) (jwt.fromSecret secret.toUTF8.data.toList)
            (testValidation config) = some claims) ∨
        ∃ entry, selectEntry (lookupState jwt fetch state).keys header.kid = some entry ∧
          jwt.decode now (trim token) entry.decodingKey (buildValidation config entry.algorithm)
            = some claims) := by
  -- In the order of the source: the empty token, the header, then the test path
  -- when it is open, and the cached keys otherwise. A test path that fails does
  -- not fall back to the keys.
  unfold verifyToken at h
  dsimp only at h
  split at h
  · exact nomatch h
  · cases hheader : jwt.decodeHeader (trim token) with
    | none => simp [hheader] at h
    | some header =>
      refine ⟨header, rfl, ?_⟩
      simp only [hheader] at h
      cases hsecret : testSecretFor config header with
      | some secret =>
        refine Or.inl ⟨secret, rfl, ?_⟩
        simp only [hsecret] at h
        split at h
        · rename_i found hdecode
          cases h
          exact hdecode
        · exact nomatch h
      | none =>
        refine Or.inr ?_
        simp only [hsecret, findKey] at h
        cases hentry : selectEntry (lookupState jwt fetch state).keys header.kid with
        | none => simp [hentry] at h
        | some entry =>
          refine ⟨entry, rfl, ?_⟩
          simp only [hentry] at h
          split at h
          · rename_i found hdecode
            cases h
            exact hdecode
          · exact nomatch h

/-- What the two validations have in common. -/
theorem checks_of_decode {valid : Key → Algorithm → String → Prop}
    {notBefore : String → Option Nat} (hjwt : jwt.Sound valid notBefore) {key : Key}
    {validation : Validation} (haud : validation.aud = some [config.supabaseJwtAudience])
    (hleeway : validation.leeway = 60) (hexp : validation.validateExp = true)
    (hnbf : validation.validateNbf = true)
    (h : jwt.decode now (trim token) key validation = some claims) :
    claims.aud = config.supabaseJwtAudience ∧ now ≤ claims.exp + 60 ∧
      ∀ t, notBefore (trim token) = some t → t ≤ now + 60 := by
  refine ⟨?_, ?_, ?_⟩
  · exact List.mem_singleton.mp (hjwt.audience h haud)
  · rw [← hleeway]
    exact hjwt.expiry h hexp
  · intro t ht
    rw [← hleeway]
    exact hjwt.notYet h hnbf ht

/-- The accepted token went the test way: a secret outside production. -/
def ByTestSecret (jwt : Jsonwebtoken Key) (valid : Key → Algorithm → String → Prop)
    (config : Config) (header : Header) (token : String) (claims : TokenClaims) : Prop :=
  config.appEnv ≠ .production ∧ header.alg = .hs256 ∧
    (∃ secret, config.testJwtSecret = some secret ∧
      valid (jwt.fromSecret secret.toUTF8.data.toList) .hs256 token) ∧
    (claims.iss = config.supabaseJwtIssuer ∨ claims.iss = "mizan-test")

/-- The accepted token is signed by the cached key that its header selects,
with the algorithm of that key. -/
def ByCachedKey (keys : List (JwkEntry Key)) (valid : Key → Algorithm → String → Prop)
    (config : Config) (header : Header) (token : String) (claims : TokenClaims) : Prop :=
  (∃ entry, Selected keys header.kid entry ∧ header.alg = entry.algorithm ∧
      valid entry.decodingKey entry.algorithm token) ∧
    claims.iss = config.supabaseJwtIssuer

/-- In production the test secret is never read. -/
theorem verifyToken_production (h : config.appEnv = .production) (secret : Option String) :
    verifyToken jwt { config with testJwtSecret := secret } fetch now state token
      = verifyToken jwt config fetch now state token := by
  -- The secret is read behind the test for production only.
  have hnone : ∀ header, testSecretFor { config with testJwtSecret := secret } header
      = testSecretFor config header := by
    intro header
    simp [testSecretFor, AppEnv.isProduction, h]
  unfold verifyToken
  simp only [hnone]
  rfl

end

/-- An accepted token is signed with the test secret outside production, or by
the cached key of its header under that key's algorithm; its issuer, audience,
expiry and start are right. In production the test secret has no influence. -/
theorem verify_token_sound {Key : Type} (jwt : Jsonwebtoken Key)
    (valid : Key → Algorithm → String → Prop) (notBefore : String → Option Nat)
    (hjwt : jwt.Sound valid notBefore) (config : Config) (fetch : Fetch) (now : Nat)
    (state : CacheState Key) (token : String) :
    (∀ claims, (verifyToken jwt config fetch now state token).1 = .ok claims →
      (∃ header, jwt.decodeHeader (trim token) = some header ∧
        (ByTestSecret jwt valid config header (trim token) claims ∨
          ByCachedKey (lookupState jwt fetch state).keys valid config header (trim token)
            claims)) ∧
        claims.aud = config.supabaseJwtAudience ∧ now ≤ claims.exp + 60 ∧
        ∀ t, notBefore (trim token) = some t → t ≤ now + 60) ∧
    (config.appEnv = .production → ∀ secret,
      verifyToken jwt { config with testJwtSecret := secret } fetch now state token
        = verifyToken jwt config fetch now state token) := by
  constructor
  · intro claims h
    obtain ⟨header, hheader, hpath⟩ := verifyToken_eq_ok h
    -- `decode` read the same header, so its algorithm is the one checked.
    have halg : ∀ {key validation}, jwt.decode now (trim token) key validation = some claims →
        header.alg ∈ validation.algorithms ∧ valid key header.alg (trim token) := by
      intro key validation hdecode
      obtain ⟨seen, hseen, hmem, hvalid⟩ := hjwt.signature hdecode
      cases hheader.symm.trans hseen
      exact ⟨hmem, hvalid⟩
    cases hpath with
    | inl htest =>
      obtain ⟨secret, hsecret, hdecode⟩ := htest
      obtain ⟨henv, hhs256, hconfigured⟩ := testSecretFor_eq_some.mp hsecret
      have hvalid := (halg hdecode).2
      rw [hhs256] at hvalid
      have hiss : claims.iss ∈ [config.supabaseJwtIssuer, "mizan-test"] :=
        hjwt.issuer hdecode rfl
      have htestPath : ByTestSecret jwt valid config header (trim token) claims :=
        ⟨henv, hhs256, ⟨secret, hconfigured, hvalid⟩, by simpa using hiss⟩
      exact ⟨⟨header, hheader, Or.inl htestPath⟩, checks_of_decode hjwt rfl rfl rfl rfl hdecode⟩
    | inr hcached =>
      obtain ⟨entry, hentry, hdecode⟩ := hcached
      have hsame : header.alg = entry.algorithm := List.mem_singleton.mp (halg hdecode).1
      have hvalid := (halg hdecode).2
      rw [hsame] at hvalid
      have hiss : claims.iss ∈ [config.supabaseJwtIssuer] := hjwt.issuer hdecode rfl
      have hkeyPath : ByCachedKey (lookupState jwt fetch state).keys valid config header
          (trim token) claims :=
        ⟨⟨entry, selected_of_selectEntry hentry, hsame, hvalid⟩, List.mem_singleton.mp hiss⟩
      exact ⟨⟨header, hheader, Or.inr hkeyPath⟩, checks_of_decode hjwt rfl rfl rfl rfl hdecode⟩
  · intro hprod secret
    exact verifyToken_production hprod secret

/-! ### One token -/

/-- An HS256 token that the test secret signs. -/
def testToken : String :=
  "eyJhbGciOiJIUzI1NiIsInR5cCI6IkpXVCJ9." ++
    "eyJzdWIiOiJ1MSIsImlzcyI6Im1pemFuLXRlc3QiLCJhdWQiOiJhdXRoZW50aWNhdGVkIiwiZXhwIjo2MDB9." ++
    "tjAEUOPDcThfbftqjYJrNUjsIyOmAzsXIeqoaZcV7W8"

/-- What it says. -/
def testClaims : TokenClaims where
  sub := "u1"
  email := none
  userMetadata := .null
  iss := "mizan-test"
  aud := "authenticated"
  exp := 600

/-- `test-secret`. -/
def testSecretBytes : List UInt8 := "test-secret".toUTF8.data.toList

/-- A library that knows this token and no other, and no asymmetric key. -/
def testLibrary : Jsonwebtoken (List UInt8) where
  fromSecret bytes := bytes
  fromRsaComponents _ _ := .error "InvalidRsaKey"
  fromEcComponents _ _ := .error "InvalidEcdsaKey"
  base64UrlDecode _ := .error "InvalidByte"
  decodeHeader token := if token = testToken then some ⟨.hs256, none⟩ else none
  decode now token key validation :=
    if token = testToken ∧ key = testSecretBytes ∧ .hs256 ∈ validation.algorithms ∧
      validation.iss.all (fun issuers => issuers.contains "mizan-test") ∧
      validation.aud.all (fun audiences => audiences.contains "authenticated") ∧
      (validation.validateExp = true → now ≤ 600 + validation.leeway)
    then some testClaims else none

/-- The one signature it accepts. -/
def testValid (key : List UInt8) (alg : Algorithm) (token : String) : Prop :=
  key = testSecretBytes ∧ alg = .hs256 ∧ token = testToken

theorem testLibrary_decode {now : Nat} {token : String} {key : List UInt8}
    {validation : Validation} {claims : TokenClaims}
    (h : testLibrary.decode now token key validation = some claims) :
    claims = testClaims ∧ token = testToken ∧ key = testSecretBytes ∧
      .hs256 ∈ validation.algorithms ∧
      validation.iss.all (fun issuers => issuers.contains "mizan-test") = true ∧
      validation.aud.all (fun audiences => audiences.contains "authenticated") = true ∧
      (validation.validateExp = true → now ≤ 600 + validation.leeway) := by
  unfold testLibrary at h
  dsimp only at h
  split at h
  · rename_i hchecks
    exact ⟨(Option.some.inj h).symm, hchecks⟩
  · exact nomatch h

theorem testLibrary_header : testLibrary.decodeHeader testToken = some ⟨.hs256, none⟩ := by
  simp [testLibrary]

theorem testLibrary_sound : testLibrary.Sound testValid fun _ => none where
  signature h := by
    obtain ⟨-, rfl, rfl, halg, -⟩ := testLibrary_decode h
    exact ⟨⟨.hs256, none⟩, testLibrary_header, halg, rfl, rfl, rfl⟩
  issuer h hiss := by
    obtain ⟨rfl, -, -, -, hissuers, -⟩ := testLibrary_decode h
    rw [hiss] at hissuers
    simpa [testClaims] using hissuers
  audience h haud := by
    obtain ⟨rfl, -, -, -, -, haudiences, -⟩ := testLibrary_decode h
    rw [haud] at haudiences
    simpa [testClaims] using haudiences
  expiry h hexp := by
    obtain ⟨rfl, -, -, -, -, -, hexpiry⟩ := testLibrary_decode h
    exact hexpiry hexp
  notYet _ _ ht := nomatch ht

/-- The configuration of the source's own tests. -/
def testConfig : Config where
  appEnv := .test
  databaseMaxConnections := 1
  supabaseUrl := "https://test.supabase.co"
  supabaseJwtAudience := "authenticated"
  corsAllowedOrigins := []
  rateLimitPerMinute := 100
  testJwtSecret := some "test-secret"

/-- No key can be fetched. -/
def offline : Fetch := ⟨.error "error sending request", 0⟩

/-- Sixty seconds after its expiry the token is still accepted. -/
theorem verify_token_sound_test :
    (verifyToken testLibrary testConfig offline 660 .empty testToken).1 = .ok testClaims ∧
      testClaims.aud = testConfig.supabaseJwtAudience ∧ 660 ≤ testClaims.exp + 60 := by
  have htrim : trim testToken = testToken := by decide +kernel
  have hempty : testToken.isEmpty = false := by decide +kernel
  have hsecret : testSecretFor testConfig ⟨.hs256, none⟩ = some "test-secret" := rfl
  have hkey : testLibrary.fromSecret "test-secret".toUTF8.data.toList = testSecretBytes := rfl
  have hdecode : testLibrary.decode 660 testToken testSecretBytes (testValidation testConfig)
      = some testClaims := by
    simp [testLibrary, testValidation, buildValidation, testConfig, JWT_LEEWAY_SECONDS,
      Validation.new]
  have haccepted :
      (verifyToken testLibrary testConfig offline 660 .empty testToken).1 = .ok testClaims := by
    unfold verifyToken
    simp only [htrim, hempty, testLibrary_header, hsecret, hkey, hdecode, Bool.false_eq_true,
      if_false]
  obtain ⟨-, haud, hexp, -⟩ := (verify_token_sound testLibrary testValid (fun _ => none)
    testLibrary_sound testConfig offline 660 .empty testToken).1 testClaims haccepted
  exact ⟨haccepted, haud, hexp⟩

end MizanConnect.Proofs.Auth
