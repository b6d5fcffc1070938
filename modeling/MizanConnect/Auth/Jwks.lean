import MizanConnect.Auth.SupabaseJwt

/-!
# `MizanConnect.Auth.Jwks`: the cached signing keys

`src/auth/jwks.rs`. `Jsonwebtoken` is what the service uses of the
`jsonwebtoken` and `base64` crates, and `Jsonwebtoken.Sound` is what it relies
on: `decode` lets a token through only when its header names an allowed
algorithm, its signature is valid, and the checks of the validation pass.
-/

set_option autoImplicit false

namespace MizanConnect.Auth

/-- `jsonwebtoken::Algorithm`. -/
inductive Algorithm where
  | hs256
  | hs384
  | hs512
  | rs256
  | rs384
  | rs512
  | es256
  | es384
  | ps256
  | ps384
  | ps512
  | edDsa
deriving DecidableEq, Repr

/-- `jsonwebtoken::Header`, the fields `verify_token` reads. -/
structure Header where
  alg : Algorithm
  kid : Option String
deriving DecidableEq, Repr

/-- `jsonwebtoken::Validation`, the fields the service sets. -/
structure Validation where
  algorithms : List Algorithm
  iss : Option (List String)
  aud : Option (List String)
  leeway : Nat
  validateExp : Bool
  validateNbf : Bool

/-- `Validation::new`. -/
def Validation.new (algorithm : Algorithm) : Validation where
  algorithms := [algorithm]
  iss := none
  aud := none
  leeway := 60
  validateExp := true
  validateNbf := false

/-- `SupabaseClaims` with the registered claims. -/
structure TokenClaims extends SupabaseClaims where
  iss : String
  aud : String
  exp : Nat

/-- The functions of `jsonwebtoken` and `base64`. `decode` reads the clock,
which is its first argument. -/
structure Jsonwebtoken (Key : Type) where
  fromSecret : List UInt8 → Key
  fromRsaComponents : String → String → Except String Key
  fromEcComponents : String → String → Except String Key
  base64UrlDecode : String → Except String (List UInt8)
  decodeHeader : String → Option Header
  decode : Nat → String → Key → Validation → Option TokenClaims

/-- What the service relies on. `valid key alg token` is a valid signature,
`notBefore token` the `nbf` of the token. -/
structure Jsonwebtoken.Sound {Key : Type} (jwt : Jsonwebtoken Key)
    (valid : Key → Algorithm → String → Prop) (notBefore : String → Option Nat) : Prop where
  signature : ∀ {now token key validation claims},
    jwt.decode now token key validation = some claims →
    ∃ header, jwt.decodeHeader token = some header ∧ header.alg ∈ validation.algorithms ∧
      valid key header.alg token
  issuer : ∀ {now token key validation claims issuers},
    jwt.decode now token key validation = some claims → validation.iss = some issuers →
    claims.iss ∈ issuers
  audience : ∀ {now token key validation claims audiences},
    jwt.decode now token key validation = some claims → validation.aud = some audiences →
    claims.aud ∈ audiences
  expiry : ∀ {now token key validation claims},
    jwt.decode now token key validation = some claims → validation.validateExp = true →
    now ≤ claims.exp + validation.leeway
  notYet : ∀ {now token key validation claims t},
    jwt.decode now token key validation = some claims → validation.validateNbf = true →
    notBefore token = some t → t ≤ now + validation.leeway

/-! ### Keys -/

/-- `RawJwk`. -/
structure RawJwk where
  kty : String
  alg : Option String
  kid : Option String
  n : Option String
  e : Option String
  crv : Option String
  x : Option String
  y : Option String
  k : Option String

/-- `JwkEntry`. -/
structure JwkEntry (Key : Type) where
  kid : Option String
  algorithm : Algorithm
  decodingKey : Key

/-- `default_alg_for_kty`. -/
def defaultAlgForKty (kty : String) : String :=
  if kty = "RSA" then "RS256"
  else if kty = "EC" then "ES256"
  else if kty = "oct" then "HS256"
  else "RS256"

/-- The names `parse_algorithm` knows. -/
def algorithmNames : List (String × Algorithm) :=
  [("HS256", .hs256), ("HS384", .hs384), ("HS512", .hs512), ("RS256", .rs256), ("RS384", .rs384),
    ("RS512", .rs512), ("ES256", .es256), ("ES384", .es384), ("PS256", .ps256), ("PS384", .ps384),
    ("PS512", .ps512), ("EdDSA", .edDsa)]

/-- `parse_algorithm`. -/
def parseAlgorithm (alg : String) : Except String Algorithm :=
  match algorithmNames.lookup alg with
  | some algorithm => .ok algorithm
  | none => .error ("unsupported alg: " ++ alg)

/-- `Option::ok_or`. -/
def okOr {α : Type} (message : String) : Option α → Except String α
  | some a => .ok a
  | none => .error message

variable {Key : Type}

/-- The key of `jwk_to_entry`, by its type. -/
def decodingKeyOf (jwt : Jsonwebtoken Key) (jwk : RawJwk) : Except String Key :=
  if jwk.kty = "RSA" then do
    let n ← okOr "RSA jwk missing n" jwk.n
    let e ← okOr "RSA jwk missing e" jwk.e
    (jwt.fromRsaComponents n e).mapError ("invalid RSA jwk: " ++ ·)
  else if jwk.kty = "EC" then do
    let x ← okOr "EC jwk missing x" jwk.x
    let y ← okOr "EC jwk missing y" jwk.y
    -- The curve must be there, and is not looked at.
    let _ ← okOr "EC jwk missing crv" jwk.crv
    (jwt.fromEcComponents x y).mapError ("invalid EC jwk: " ++ ·)
  else if jwk.kty = "oct" then do
    let k ← okOr "oct jwk missing k" jwk.k
    let raw ← (jwt.base64UrlDecode k).mapError ("base64 decode: " ++ ·)
    .ok (jwt.fromSecret raw)
  else .error ("unsupported kty: " ++ jwk.kty)

/-- `jwk_to_entry`. -/
def jwkToEntry (jwt : Jsonwebtoken Key) (jwk : RawJwk) : Except String (JwkEntry Key) := do
  let alg := jwk.alg.getD (defaultAlgForKty jwk.kty)
  let algorithm ← parseAlgorithm alg
  let decodingKey ← decodingKeyOf jwt jwk
  .ok { kid := jwk.kid, algorithm, decodingKey }

/-! ### The cache -/

/-- `CacheState`. -/
structure CacheState (Key : Type) where
  keys : List (JwkEntry Key)
  fetchedAt : Option Timestamp
  lastError : Option String

/-- `CacheState::default`. -/
def CacheState.empty : CacheState Key := ⟨[], none, none⟩

/-- `JwksError`. -/
inductive JwksError where
  | http (text : String)
  | empty
deriving DecidableEq, Repr

/-- A fetch of the JWKS document: the reply and the time of it. -/
structure Fetch where
  reply : Except String (List RawJwk)
  time : Timestamp

/-- `JwksCache::refresh`. An entry that cannot be used is skipped. -/
def refresh (jwt : Jsonwebtoken Key) (fetch : Fetch) (state : CacheState Key) :
    Except JwksError Unit × CacheState Key :=
  match fetch.reply with
  | .error text => (.error (.http text), { state with lastError := some text })
  | .ok document =>
    let keys := document.filterMap fun jwk => (jwkToEntry jwt jwk).toOption
    -- A document without a usable key leaves the old keys.
    if keys.isEmpty then
      (.error .empty, { state with lastError := some "empty JWKS document" })
    else (.ok (), { keys, fetchedAt := some fetch.time, lastError := none })

/-- `DecodingKeyMatch`. -/
structure DecodingKeyMatch (Key : Type) where
  algorithm : Algorithm
  decodingKey : Key

/-- The state that `find_key` looks into: an empty one is fetched first. -/
def lookupState (jwt : Jsonwebtoken Key) (fetch : Fetch) (state : CacheState Key) :
    CacheState Key :=
  if state.keys.isEmpty then (refresh jwt fetch state).2 else state

/-- The entry for a `kid`: the first with that `kid`, or the first of all. -/
def selectEntry (keys : List (JwkEntry Key)) (kid : Option String) : Option (JwkEntry Key) :=
  match kid with
  | some want => keys.find? fun entry => entry.kid == some want
  | none => keys.head?

/-- `JwksCache::find_key`, with the state it leaves. -/
def findKey (jwt : Jsonwebtoken Key) (fetch : Fetch) (state : CacheState Key)
    (kid : Option String) : Except AppError (DecodingKeyMatch Key) × CacheState Key :=
  let state := lookupState jwt fetch state
  match selectEntry state.keys kid with
  | some entry =>
    (.ok { algorithm := entry.algorithm, decodingKey := entry.decodingKey }, state)
  | none => (.error (.unauthorized "unknown signing key"), state)

/-! ### What a key in the cache is -/

/-- A refresh leaves the keys as they were, or replaces them all by usable
entries of the document. -/
theorem refresh_keys (jwt : Jsonwebtoken Key) (fetch : Fetch) (state : CacheState Key) :
    (refresh jwt fetch state).2.keys = state.keys ∨
      ∃ document, fetch.reply = .ok document ∧
        ∀ entry ∈ (refresh jwt fetch state).2.keys,
          ∃ jwk ∈ document, jwkToEntry jwt jwk = .ok entry := by
  unfold refresh
  cases hreply : fetch.reply with
  | error text => exact Or.inl rfl
  | ok document =>
    dsimp only
    split
    · exact Or.inl rfl
    · refine Or.inr ⟨document, rfl, ?_⟩
      intro entry hentry
      obtain ⟨jwk, hjwk, hok⟩ := List.mem_filterMap.mp hentry
      exact ⟨jwk, hjwk, toOption_eq_some.mp hok⟩

/-- The algorithm of an entry is the one its key names, or the default of its
type. -/
theorem jwkToEntry_algorithm {jwt : Jsonwebtoken Key} {jwk : RawJwk} {entry : JwkEntry Key}
    (h : jwkToEntry jwt jwk = .ok entry) :
    (jwk.alg.getD (defaultAlgForKty jwk.kty), entry.algorithm) ∈ algorithmNames ∧
      entry.kid = jwk.kid := by
  obtain ⟨algorithm, halg, h⟩ := except_bind_eq_ok.mp h
  obtain ⟨key, -, h⟩ := except_bind_eq_ok.mp h
  cases h
  refine ⟨?_, rfl⟩
  unfold parseAlgorithm at halg
  cases hlookup : algorithmNames.lookup (jwk.alg.getD (defaultAlgForKty jwk.kty)) with
  | none => simp [hlookup] at halg
  | some found =>
    simp only [hlookup, Except.ok.injEq] at halg
    subst halg
    obtain ⟨pre, post, hsplit, -⟩ := List.lookup_eq_some_iff.mp hlookup
    rw [hsplit]
    simp

end MizanConnect.Auth
