import MizanConnect.Error
import MizanConnect.Types

/-!
# `MizanConnect.Auth.SupabaseJwt`: bearer tokens

`src/auth/supabase_jwt.rs` and `parse_bearer` of `src/auth/extractor.rs`.
Decoding and signature checks are those of `jsonwebtoken`, and the key set
comes over the network, so they are parameters (`JwtContext`).
-/

set_option autoImplicit false

namespace MizanConnect.Auth

/-- `SupabaseClaims`, the fields the service reads. -/
structure SupabaseClaims where
  sub : String
  email : Option String
  userMetadata : Json

namespace SupabaseClaims

/-- `SupabaseClaims::display_name`. A key that is present but no string ends
the search. -/
def displayName (claims : SupabaseClaims) : Option String :=
  (((claims.userMetadata.get? "display_name").or (claims.userMetadata.get? "full_name")).or
    (claims.userMetadata.get? "name")).bind Json.asStr?

/-- `SupabaseClaims::avatar_url`. -/
def avatarUrl (claims : SupabaseClaims) : Option String :=
  ((claims.userMetadata.get? "avatar_url").or (claims.userMetadata.get? "picture")).bind
    Json.asStr?

/-- `SupabaseClaims::email_required`. -/
def emailRequired (claims : SupabaseClaims) : Except AppError String :=
  match claims.email with
  | some email => .ok email
  | none => .error (.unauthorized "token missing email claim; cannot link account")

end SupabaseClaims

/-- The JOSE header, the fields `verify_token` reads. -/
structure JwtHeader where
  isHs256 : Bool
  kid : Option String

/-- What token verification uses from outside. `decodeTest` and `decode` are
`jsonwebtoken::decode` under the validations of the two paths. -/
structure JwtContext (Key : Type) where
  isProduction : Bool
  testJwtSecret : Option String
  decodeHeader : String → Option JwtHeader
  decodeTest : String → String → Option SupabaseClaims
  findKey : Option String → Except AppError Key
  decode : Key → String → Option SupabaseClaims

variable {Key : Type}

/-- The secret of the test path: configured, and the header says HS256. -/
def testSecret (ctx : JwtContext Key) (header : JwtHeader) : Option String :=
  if ctx.isProduction then none
  else if header.isHs256 then ctx.testJwtSecret else none

/-- `verify_token`. -/
def verifyToken (ctx : JwtContext Key) (token : String) : Except AppError SupabaseClaims :=
  let token := trim token
  if token.isEmpty then .error (.unauthorized "empty bearer token")
  else
    match ctx.decodeHeader token with
    | none => .error (.unauthorized "invalid token header")
    | some header =>
      match testSecret ctx header with
      | some secret =>
        match ctx.decodeTest secret token with
        | some claims => .ok claims
        | none => .error (.unauthorized "invalid test token")
      | none => do
        let key ← ctx.findKey header.kid
        match ctx.decode key token with
        | some claims => .ok claims
        | none => .error (.unauthorized "invalid token")

/-- The `Authorization` header of a request. `invalid` is a value that
`to_str` rejects. -/
inductive AuthorizationHeader where
  | missing
  | invalid
  | value (s : String)

/-- `parse_bearer`. -/
def parseBearer (value : String) : Except AppError String :=
  let value := trim value
  match (stripPrefix? "Bearer " value).or (stripPrefix? "bearer " value) with
  | none => .error (.unauthorized "expected Bearer token")
  | some bearer =>
    let token := trim bearer
    if token.isEmpty then .error (.unauthorized "empty bearer token") else .ok token

/-- The claims behind a header: `from_request_parts` up to the upsert. -/
def claimsOf (ctx : JwtContext Key) (header : AuthorizationHeader) :
    Except AppError SupabaseClaims :=
  match header with
  | .missing => .error (.unauthorized "missing Authorization header")
  | .invalid => .error (.unauthorized "Authorization header is not valid UTF-8")
  | .value s => parseBearer s >>= verifyToken ctx

end MizanConnect.Auth
