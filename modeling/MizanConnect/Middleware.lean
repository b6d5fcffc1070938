import MizanConnect.Error
import MizanConnect.Lib.MultiMap
import MizanConnect.Lib.Utf8
import MizanConnect.Server

/-!
# `MizanConnect.Middleware`: what stands around the handlers

`build_app` of `src/server.rs` with the layers of `src/middleware/`, and
`IntoResponse for AppError` of `src/error.rs`. A `Service` is a function of its
state and a call, and a layer wraps one. The routes with their handlers are one
function, whatever it is.

The request body limit, the rate limiter and the CORS layer are other people's. What
they answer instead of the handlers is a parameter where the source does not say it.
The trace and Sentry layers only record, and are left out.
-/

set_option autoImplicit false

namespace MizanConnect.Middleware

open Server (CorsLayer HeaderValues Method buildCors buildRateLimiterConfig)

/-! ### Headers -/

/-- `HeaderValue`: bytes. -/
abbrev HeaderValue := List UInt8

/-- `HeaderMap`. The names are in lower case. -/
abbrev Headers := MultiMap String HeaderValue

/-- The bytes of a text. -/
def HeaderValue.ofText (s : String) : HeaderValue := Utf8.encode s.toList

/-- A byte that `HeaderValue::to_str` takes. -/
def isVisibleAscii (b : UInt8) : Bool := (32 ≤ b.toNat && b.toNat < 127) || b.toNat == 9

/-- `HeaderValue::to_str`. -/
def HeaderValue.toStr? (v : HeaderValue) : Option String :=
  if v.all isVisibleAscii then some (String.ofList (v.map fun b => Char.ofNat b.toNat)) else none

/-- `HeaderValue::from_str`. -/
def HeaderValue.fromStr? (s : String) : Option HeaderValue :=
  if (HeaderValue.ofText s).all isVisibleAscii then some (HeaderValue.ofText s) else none

/-! ### Calls and answers -/

/-- A request, the instant it comes in, and what its handling draws. `body` is what
reading the body to its end gives, and `scope` is the task-local `REQUEST_ID`. -/
structure Call (Ip : Type) where
  peer : Ip
  method : String
  headers : Headers
  body : Except Unit (List UInt8)
  now : ℚ
  scope : Option String
  uuid : Uuid
  uuid2 : Uuid

/-- The body of a response. -/
inductive Body where
  | empty
  | text (s : String)
  | json (v : Json)

/-- `Response`. -/
structure Response where
  status : Nat
  headers : Headers
  body : Body

/-- A response, and the seconds until its head is there. -/
structure Reply where
  response : Response
  elapsed : ℚ

/-- A service. After a call that is cut off, the state is the one at the cut. -/
abbrev Service (Ip σ : Type) := σ → Call Ip → σ × Reply

/-! ### Errors -/

/-- `ErrorCode::as_str`. -/
def asStr : ErrorCode → String
  | .badRequest => "bad_request"
  | .unauthorized => "unauthorized"
  | .forbidden => "forbidden"
  | .notFound => "not_found"
  | .conflict => "conflict"
  | .payloadTooLarge => "payload_too_large"
  | .unprocessableEntity => "unprocessable_entity"
  | .tooManyRequests => "too_many_requests"
  | .internal => "internal_error"
  | .notImplemented => "not_implemented"
  | .serviceUnavailable => "service_unavailable"

/-- `ErrorCode::status`. -/
def status : ErrorCode → Nat
  | .badRequest => 400
  | .unauthorized => 401
  | .forbidden => 403
  | .notFound => 404
  | .conflict => 409
  | .payloadTooLarge => 413
  | .unprocessableEntity => 422
  | .tooManyRequests => 429
  | .internal => 500
  | .notImplemented => 501
  | .serviceUnavailable => 503

/-- `ErrorBody`. -/
def errorBody (e : AppError) (requestId : String) : Json :=
  .obj [("error", .obj [("code", .str (asStr e.code)), ("message", .str e.message),
    ("request_id", .str requestId)])]

/-- `AppError::into_response`, run where `REQUEST_ID` is `scope`. -/
def intoResponse (scope : Option String) (e : AppError) : Response :=
  { status := status e.code
    headers := [("content-type", HeaderValue.ofText "application/json")]
    body := .json (errorBody e (scope.getD "")) }

/-- The routes with their handlers: the state after the call, a response or an error,
and the seconds it takes. -/
abbrev Routes (Ip σ : Type) := σ → Call Ip → σ × Except AppError Response × ℚ

/-- The routes as a service. -/
def router {Ip σ : Type} (routes : Routes Ip σ) : Service Ip σ := fun s call =>
  let (s', result, elapsed) := routes s call
  match result with
  | .ok response => (s', ⟨response, elapsed⟩)
  | .error e => (s', ⟨intoResponse call.scope e, elapsed⟩)

/-! ### The request id -/

/-- `HEADER_NAME`. -/
def headerName : String := "x-request-id"

/-- `is_safe_id_char`. -/
def isSafeIdChar (c : Char) : Bool :=
  ('a' ≤ c && c ≤ 'z') || ('A' ≤ c && c ≤ 'Z') || ('0' ≤ c && c ≤ '9') ||
    c == '-' || c == '_' || c == '.'

/-- The filter of `extract_or_generate`. `MAX_LEN` is 64, and `str::len` counts
bytes. -/
def isSafeId (s : String) : Bool :=
  !s.isEmpty && s.utf8ByteSize ≤ 64 && s.toList.all isSafeIdChar

/-- `extract_or_generate`. -/
def extractOrGenerate {Ip : Type} (call : Call Ip) : String :=
  ((((call.headers.get? headerName).bind HeaderValue.toStr?).map trim).filter isSafeId).getD
    call.uuid.toString

section
variable {Ip σ : Type}

/-- `RequestIdService::call`. -/
def requestIdLayer (inner : Service Ip σ) : Service Ip σ := fun s call =>
  let id := extractOrGenerate call
  let value := (HeaderValue.fromStr? id).getD
    ((HeaderValue.fromStr? call.uuid2.toString).getD (HeaderValue.ofText "invalid"))
  let (s', reply) := inner s
    { call with headers := call.headers.insert headerName value, scope := some id }
  let response := reply.response
  (s', { reply with
    response := { response with headers := response.headers.insert headerName value } })

/-! ### The timeout -/

/-- `timeout::layer`, with `DEFAULT_TIMEOUT`. -/
def timeoutLayer (inner : Service Ip σ) : Service Ip σ := fun s call =>
  let (s', reply) := inner s call
  if reply.elapsed ≤ 30 then (s', reply) else (s', ⟨⟨504, [], .empty⟩, 30⟩)

/-! ### The size of the body -/

/-- `MAX_BODY_BYTES`. -/
def maxBodyBytes : Nat := 1024 * 1024

/-- `str::parse::<usize>`: an optional plus sign, then at least one decimal digit, in
range. -/
def parseUsize (s : String) : Option Nat :=
  let digits := match s.toList with
    | '+' :: rest => rest
    | rest => rest
  if digits.isEmpty ∨ ¬ digits.all Char.isDigit then none
  else
    let n := digits.foldl (fun acc c => acc * 10 + (c.toNat - '0'.toNat)) 0
    if n < 2 ^ 64 then some n else none

/-- The length in `Content-Length`. -/
def Call.declared (call : Call Ip) : Option Nat :=
  ((call.headers.get? "content-length").bind HeaderValue.toStr?).bind parseUsize

/-- `Limited`: reading beyond the limit fails. -/
def limited (limit : Nat) (body : Except Unit (List UInt8)) : Except Unit (List UInt8) :=
  match body with
  | .ok bytes => if bytes.length ≤ limit then .ok bytes else .error ()
  | .error e => .error e

/-- `RequestBodyLimitLayer`: a length above the limit is refused at once, and no more
than the length is read. -/
def requestBodyLimitLayer (limit : Nat) (tooLarge : Response) (inner : Service Ip σ) :
    Service Ip σ := fun s call =>
  match call.declared with
  | some len =>
    if limit < len then (s, ⟨tooLarge, 0⟩)
    else inner s { call with body := limited (min limit len) call.body }
  | none => inner s { call with body := limited limit call.body }

/-! ### The rate limit -/

/-- The state of the server: that of the limiter for each address, and that of the
handlers. -/
structure State (Ip σ : Type) where
  limiter : Ip → Option ℚ
  handlers : σ

/-- `GovernorLayer` with the address of the peer as its key. A refusal says how long
to wait. -/
def governorLayer [DecidableEq Ip] (l : Gcra.Limiter ℚ) (tooManyRequests : ℚ → Response)
    (inner : Service Ip σ) : Service Ip (State Ip σ) := fun s call =>
  let tat := s.limiter call.peer
  let (admitted, tat') := l.arrive tat call.now
  if admitted then
    let (handlers, reply) := inner s.handlers call
    (⟨Function.update s.limiter call.peer tat', handlers⟩, reply)
  else (s, ⟨tooManyRequests (l.wait tat call.now), 0⟩)

/-! ### CORS -/

/-- The name of a method. -/
def methodName : Method → String
  | .get => "GET"
  | .post => "POST"
  | .patch => "PATCH"
  | .delete => "DELETE"
  | .options => "OPTIONS"

/-- `Vary` of a `CorsLayer` that sets none. -/
def corsVary : HeaderValue :=
  HeaderValue.ofText "origin, access-control-request-method, access-control-request-headers"

/-- The headers on every answer of the layer, apart from `Vary`. -/
def corsHeaders (http : HeaderValues) (layer : CorsLayer http.Value) :
    List (String × HeaderValue) :=
  (layer.origin.map fun v =>
    ("access-control-allow-origin", HeaderValue.ofText (http.text v))).toList

/-- The headers on the answer to a preflight request. -/
def preflightHeaders (http : HeaderValues) (layer : CorsLayer http.Value) :
    List (String × HeaderValue) :=
  corsHeaders http layer ++
    [("vary", corsVary),
      ("access-control-allow-methods",
        HeaderValue.ofText (",".intercalate (layer.methods.map methodName))),
      ("access-control-allow-headers", HeaderValue.ofText (",".intercalate layer.headers))] ++
    (layer.maxAge.map fun seconds =>
      ("access-control-max-age", HeaderValue.ofText (toString seconds))).toList

/-- `CorsLayer`: a preflight request goes no further. -/
def corsLayer (http : HeaderValues) (layer : CorsLayer http.Value) (inner : Service Ip σ) :
    Service Ip σ := fun s call =>
  if call.method = "OPTIONS" then (s, ⟨⟨200, preflightHeaders http layer, .empty⟩, 0⟩)
  else
    let (s', reply) := inner s call
    let response := reply.response
    (s', { reply with
      response := { response with
        headers := (response.headers.append "vary" corsVary).extend (corsHeaders http layer) } })

/-! ### Security headers -/

/-- `SetResponseHeaderLayer::overriding`. -/
def overriding (header : String × HeaderValue) (inner : Service Ip σ) : Service Ip σ :=
  fun s call =>
    let (s', reply) := inner s call
    let response := reply.response
    (s', { reply with
      response := { response with headers := response.headers.insert header.1 header.2 } })

/-- `option_layer`. -/
def optionLayer (layer : Option (Service Ip σ → Service Ip σ)) (inner : Service Ip σ) :
    Service Ip σ := (layer.getD id) inner

end

/-- `SecurityHeaderLayers`, the headers they set. -/
structure SecurityHeaderLayers where
  nosniff : String × HeaderValue
  frame : String × HeaderValue
  referrer : String × HeaderValue
  permissions : String × HeaderValue
  crossDomain : String × HeaderValue
  hsts : Option (String × HeaderValue)

/-- `security_headers::layers`. -/
def layers (env : AppEnv) : SecurityHeaderLayers where
  nosniff := ("x-content-type-options", HeaderValue.ofText "nosniff")
  frame := ("x-frame-options", HeaderValue.ofText "DENY")
  referrer := ("referrer-policy", HeaderValue.ofText "strict-origin-when-cross-origin")
  permissions := ("permissions-policy",
    HeaderValue.ofText "camera=(), geolocation=(), microphone=(), payment=()")
  crossDomain := ("x-permitted-cross-domain-policies", HeaderValue.ofText "none")
  hsts :=
    if env.isProduction then
      some ("strict-transport-security",
        HeaderValue.ofText "max-age=63072000; includeSubDomains; preload")
    else none

/-! ### The application -/

/-- What the layers of other people answer. -/
structure Refusals where
  tooLarge : Response
  tooManyRequests : ℚ → Response

/-- `build_app`, from the innermost layer to the outermost. -/
def buildApp {Ip σ : Type} [DecidableEq Ip] (http : HeaderValues) (config : Config)
    (refusals : Refusals) (routes : Routes Ip σ) : Service Ip (State Ip σ) :=
  let cors := buildCors http config
  let governor := (buildRateLimiterConfig config).gcra
  let security := layers config.appEnv
  router routes
  |> overriding security.nosniff
  |> overriding security.frame
  |> overriding security.referrer
  |> overriding security.permissions
  |> overriding security.crossDomain
  |> optionLayer (security.hsts.map overriding)
  |> corsLayer http cors
  |> governorLayer governor refusals.tooManyRequests
  |> requestBodyLimitLayer maxBodyBytes refusals.tooLarge
  |> timeoutLayer
  |> requestIdLayer

end MizanConnect.Middleware
