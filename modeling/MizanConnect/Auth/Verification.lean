import MizanConnect.Auth.Jwks
import MizanConnect.Config

/-!
# `MizanConnect.Auth.Verification`: token verification in full

`verify_token` and `build_validation` of `src/auth/supabase_jwt.rs` over the
configuration, the key cache and the functions of `jsonwebtoken`.
`verifyToken_contextOf` connects it to `Auth.verifyToken`, which the handlers
use: there the two validations and the cache are parameters.
-/

set_option autoImplicit false

namespace MizanConnect.Auth.Verification

/-- `JWT_LEEWAY_SECONDS`. -/
def JWT_LEEWAY_SECONDS : Nat := 60

/-- `build_validation`. -/
def buildValidation (config : Config) (algorithm : Algorithm) : Validation :=
  { Validation.new algorithm with
    iss := some [config.supabaseJwtIssuer]
    aud := some [config.supabaseJwtAudience]
    leeway := JWT_LEEWAY_SECONDS
    validateExp := true
    validateNbf := true }

/-- The validation of the test path: the literal issuer `mizan-test` is allowed
too. -/
def testValidation (config : Config) : Validation :=
  { buildValidation config .hs256 with iss := some [config.supabaseJwtIssuer, "mizan-test"] }

variable {Key : Type}

/-- The secret of the test path, when the source takes that path: not in
production, a secret is configured, and the header says HS256. -/
def testSecretFor (config : Config) (header : Header) : Option String :=
  if config.appEnv.isProduction then none
  else if header.alg = .hs256 then config.testJwtSecret else none

/-- `verify_token` at `now`, with the cache it leaves. -/
def verifyToken (jwt : Jsonwebtoken Key) (config : Config) (fetch : Fetch) (now : Nat)
    (state : CacheState Key) (token : String) :
    Except AppError TokenClaims × CacheState Key :=
  let token := trim token
  if token.isEmpty then (.error (.unauthorized "empty bearer token"), state)
  else
    match jwt.decodeHeader token with
    | none => (.error (.unauthorized "invalid token header"), state)
    | some header =>
      match testSecretFor config header with
      | some secret =>
        let key := jwt.fromSecret secret.toUTF8.data.toList
        match jwt.decode now token key (testValidation config) with
        | some claims => (.ok claims, state)
        | none => (.error (.unauthorized "invalid test token"), state)
      | none =>
        match findKey jwt fetch state header.kid with
        | (.error err, state) => (.error err, state)
        | (.ok keyMatch, state) =>
          let validation := buildValidation config keyMatch.algorithm
          match jwt.decode now token keyMatch.decodingKey validation with
          | some claims => (.ok claims, state)
          | none => (.error (.unauthorized "invalid token"), state)

/-! ### The context of the handlers -/

/-- What the handlers take as given about tokens, at one moment. -/
def contextOf (jwt : Jsonwebtoken Key) (config : Config) (fetch : Fetch) (now : Nat)
    (state : CacheState Key) : JwtContext (DecodingKeyMatch Key) where
  isProduction := config.appEnv.isProduction
  testJwtSecret := config.testJwtSecret
  decodeHeader token := (jwt.decodeHeader token).map fun header =>
    { isHs256 := header.alg = .hs256, kid := header.kid }
  decodeTest secret token :=
    (jwt.decode now token (jwt.fromSecret secret.toUTF8.data.toList) (testValidation config)).map
      TokenClaims.toSupabaseClaims
  findKey kid := (findKey jwt fetch state kid).1
  decode keyMatch token :=
    (jwt.decode now token keyMatch.decodingKey (buildValidation config keyMatch.algorithm)).map
      TokenClaims.toSupabaseClaims

/-- The verification of the handlers is this one, without the registered
claims. -/
theorem verifyToken_contextOf (jwt : Jsonwebtoken Key) (config : Config) (fetch : Fetch)
    (now : Nat) (state : CacheState Key) (token : String) :
    Auth.verifyToken (contextOf jwt config fetch now state) token
      = (verifyToken jwt config fetch now state token).1.map TokenClaims.toSupabaseClaims := by
  unfold Auth.verifyToken verifyToken
  dsimp only [contextOf]
  split
  · rfl
  · cases jwt.decodeHeader (trim token) with
    | none => rfl
    | some header =>
      have hsecret : testSecret (contextOf jwt config fetch now state)
          { isHs256 := header.alg = .hs256, kid := header.kid } = testSecretFor config header := by
        unfold testSecret testSecretFor
        simp [contextOf]
      dsimp only [contextOf] at hsecret
      dsimp only [Option.map_some]
      rw [hsecret]
      cases testSecretFor config header with
      | some secret =>
        dsimp only
        cases jwt.decode now (trim token) (jwt.fromSecret secret.toUTF8.data.toList)
          (testValidation config) <;> rfl
      | none =>
        dsimp only
        cases hfind : findKey jwt fetch state header.kid with
        | mk found left =>
          cases found with
          | error err => rfl
          | ok keyMatch =>
            dsimp only [bind, Except.bind]
            cases jwt.decode now (trim token) keyMatch.decodingKey
              (buildValidation config keyMatch.algorithm) <;> rfl

end MizanConnect.Auth.Verification
