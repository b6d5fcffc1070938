import MizanConnect.Auth.Jwks
import MizanConnect.Snaptrade.Handlers
import MizanConnect.Snaptrade.SignedRequest

/-!
# `MizanConnect.Snaptrade.StateToken`: the state token and its clock

`src/snaptrade/state_token.rs`, and the redirect URL of `login_portal` that
carries the token. `StateJwt` is what the module uses of `jsonwebtoken`, and
`StateJwt.Sound` what it relies on.

A handler reads the clock when it verifies a token, so a request carries the time
of its arrival here, and `contextAt` is what its handler uses from outside.
-/

set_option autoImplicit false

namespace MizanConnect.Snaptrade

open Auth (Algorithm Validation)

/-! ### Claims and their codec -/

/-- `ISSUER`. -/
def stateIssuer : String := "mizan-snaptrade-state"

/-- `LEEWAY_SECS`. -/
def stateLeeway : Nat := 30

/-- `jsonwebtoken::Validation`, with the claims that must be there. -/
structure StateValidation extends Validation where
  requiredSpecClaims : List String

/-- The validation of `verify`. -/
def stateValidation : StateValidation :=
  { Validation.new .hs256 with
    iss := some [stateIssuer]
    validateExp := true
    leeway := stateLeeway
    requiredSpecClaims := ["exp", "iss"] }

/-- The functions of `jsonwebtoken` on `StateClaims`. `encode` signs with HS256
and the bytes of a secret. `decode` reads the clock, its first argument. -/
structure StateJwt where
  encode : List UInt8 → StateClaims → Option String
  decode : Nat → String → List UInt8 → StateValidation → Option StateClaims

/-- What the service relies on: `decode` gives back the claims that were signed,
and lets a token through exactly when the checks of the validation pass. -/
structure StateJwt.Sound (jwt : StateJwt) : Prop where
  issued : ∀ {now : Nat} {secret claims token validation claims'},
    jwt.encode secret claims = some token →
    jwt.decode now token secret validation = some claims' → claims' = claims
  issuer : ∀ {now : Nat} {token secret validation claims issuers},
    jwt.decode now token secret validation = some claims → validation.iss = some issuers →
    claims.iss ∈ issuers
  expiry : ∀ {now : Nat} {token secret validation claims},
    jwt.decode now token secret validation = some claims → validation.validateExp = true →
    (now : Int) ≤ claims.exp + validation.leeway
  accepts : ∀ {now : Nat} {secret claims token validation issuers},
    jwt.encode secret claims = some token → .hs256 ∈ validation.algorithms →
    validation.aud = none → validation.validateNbf = false →
    validation.iss = some issuers → claims.iss ∈ issuers →
    0 ≤ claims.exp → (now : Int) ≤ claims.exp + validation.leeway →
    jwt.decode now token secret validation = some claims

/-- The claims that `issue` signs. -/
def stateClaims (userId nonce : Uuid) (time : Timestamp) : StateClaims :=
  ⟨userId, nonce, stateIssuer, time + stateTtl, time⟩

/-- `verify`, at `now`. -/
def verify (jwt : StateJwt) (secret : String) (now : Nat) (token : String) :
    Except AppError StateClaims :=
  match jwt.decode now token secret.toUTF8.data.toList stateValidation with
  | some claims => .ok claims
  | none => .error (.badRequest "invalid state token")

/-! ### The redirect URL -/

/-- `url::Url`: what stands in front of the query, the query and the fragment. -/
structure RedirectUrl where
  front : List Char
  query : Option (List Char)
  fragment : Option (List Char)

/-- `query_pairs_mut().append_pair`. -/
def RedirectUrl.appendPair (url : RedirectUrl) (name value : List Char) : RedirectUrl :=
  let pair := SignedRequest.serializePair (name, value)
  { url with
    query := some (match url.query with
      | none => pair
      | some query => if query = [] then pair else query ++ '&' :: pair) }

/-- `Url::as_str`. -/
def RedirectUrl.asStr (url : RedirectUrl) : List Char :=
  url.front ++ ((url.query.map ('?' :: ·)).getD [] ++ (url.fragment.map ('#' :: ·)).getD [])

/-! ### Requests and the clock -/

/-- What the handlers use from outside, apart from the clock. `parseUrl` is
`Url::parse`. -/
structure BrokerDeps where
  jwt : StateJwt
  stateSecret : String
  redirectUri : String
  parseUrl : String → Option RedirectUrl
  decrypt : List UInt8 → Option String
  encrypt : String → Option (List UInt8)
  parseRfc3339 : String → Option Timestamp

/-- The redirect URL with a token. -/
def BrokerDeps.redirectWithState (deps : BrokerDeps) (token : String) : Option String :=
  (deps.parseUrl deps.redirectUri).map fun url =>
    String.ofList (url.appendPair "state".toList token.toList).asStr

/-- What the handlers use from outside, at `now`. -/
def contextAt (deps : BrokerDeps) (now : Nat) : BrokerContext where
  decodeState token := (verify deps.jwt deps.stateSecret now token).toOption
  decrypt := deps.decrypt
  parseRfc3339 := deps.parseRfc3339
  encrypt := deps.encrypt
  encodeState := deps.jwt.encode deps.stateSecret.toUTF8.data.toList
  redirectWithState := deps.redirectWithState

/-- A request and the Unix time of its arrival. -/
structure Arrival where
  time : Nat
  request : Request

/-- The handler of a request that arrives. -/
def handleAt (deps : BrokerDeps) (a : Arrival) :
    Concurrent.Program Op Op.Answer (Except AppError Response) :=
  (handle (contextAt deps a.time) a.request).run

end MizanConnect.Snaptrade
