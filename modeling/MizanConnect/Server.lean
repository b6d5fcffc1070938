import MizanConnect.Config
import MizanConnect.Lib.Gcra
import Mathlib.Data.Rat.Defs
import Mathlib.Algebra.Order.Ring.Rat

/-!
# `MizanConnect.Server`: the layers around the router

`build_cors` and `build_rate_limiter_config` of `src/server.rs`. What the two
layers do with a request is that of `tower-http` and `tower_governor`:
`allow_origin` replaces the value set before and a single value is sent as it
is, and `per_second k` gives a cell back every `k` seconds. The builder documents
`burst_size` as the size of a bucket (`Quota.bucket`); the limiter behind it is
`Quota.gcra`, which has room for one cell more.
-/

set_option autoImplicit false

namespace MizanConnect.Server

/-! ### CORS -/

/-- `HeaderValue`: its parser, and its text. -/
structure HeaderValues where
  Value : Type
  parse : String → Option Value
  text : Value → String
  text_of_parse : ∀ {s : String} {v : Value}, parse s = some v → text v = s
  text_injective : ∀ {v w : Value}, text v = text w → v = w

/-- `http::Method`, the methods of the allowlist. -/
inductive Method where
  | get
  | post
  | patch
  | delete
  | options
deriving DecidableEq, Repr

/-- `CorsLayer`: what its builder has set. A fresh layer sends no header. -/
structure CorsLayer (Value : Type) where
  methods : List Method
  headers : List String
  maxAge : Option Nat
  origin : Option Value

namespace CorsLayer

variable {Value : Type}

def new : CorsLayer Value := ⟨[], [], none, none⟩

def allowMethods (layer : CorsLayer Value) (methods : List Method) : CorsLayer Value :=
  { layer with methods }

def allowHeaders (layer : CorsLayer Value) (headers : List String) : CorsLayer Value :=
  { layer with headers }

/-- `CorsLayer::max_age`, in seconds. -/
def withMaxAge (layer : CorsLayer Value) (seconds : Nat) : CorsLayer Value :=
  { layer with maxAge := some seconds }

def allowOrigin (layer : CorsLayer Value) (value : Value) : CorsLayer Value :=
  { layer with origin := some value }

/-- The `Access-Control-Allow-Origin` that the layer answers a request from
`requestOrigin` with. -/
def answer (layer : CorsLayer Value) (_requestOrigin : Value) : Option Value := layer.origin

end CorsLayer

/-- `build_cors`: a malformed origin is skipped. -/
def buildCors (http : HeaderValues) (config : Config) : CorsLayer http.Value :=
  let layer := ((CorsLayer.new.allowMethods [.get, .post, .patch, .delete, .options]).allowHeaders
    ["authorization", "content-type", "x-request-id"]).withMaxAge (60 * 10)
  config.corsAllowedOrigins.foldl
    (fun layer origin =>
      match http.parse origin with
      | some value => layer.allowOrigin value
      | none => layer)
    layer

/-! ### The rate limit -/

/-- A quota: one cell every `period` seconds, `burst` of them. -/
structure Quota where
  period : Nat
  burst : Nat
  period_pos : 0 < period
  burst_pos : 0 < burst

/-- The bucket that the builder documents: `burst` cells, full for a new key. -/
def Quota.bucket (q : Quota) : Gcra.Limiter ℚ where
  period := q.period
  tolerance := (q.burst - 1 : Nat) * q.period
  fresh := 0
  period_pos := Nat.cast_pos.mpr q.period_pos
  fresh_nonneg := le_rfl
  fresh_le := mul_nonneg (Nat.cast_nonneg _) (Nat.cast_nonneg _)

/-- `Gcra` of `governor` 0.6: `tau` is the whole bucket, and `starting_state` is a
period ahead. A new key gets `burst` cells at once, one that was seen and has been
idle gets `burst + 1`. -/
def Quota.gcra (q : Quota) : Gcra.Limiter ℚ where
  period := q.period
  tolerance := q.burst * q.period
  fresh := q.period
  period_pos := Nat.cast_pos.mpr q.period_pos
  fresh_nonneg := Nat.cast_nonneg _
  fresh_le := le_mul_of_one_le_left (Nat.cast_nonneg _) (Nat.one_le_cast.mpr q.burst_pos)

/-- `tau` in nanoseconds fits 64 bits. `Gcra::new` panics when it does not. -/
def Quota.fits (q : Quota) : Bool := q.period * q.burst * 10 ^ 9 < 2 ^ 64

/-- `build_rate_limiter_config`: the quota of one address. -/
def buildRateLimiterConfig (config : Config) : Quota :=
  let perMinute := max config.rateLimitPerMinute 1
  let perSecond := max (perMinute / 60) 1
  let burst := max (perMinute / 4) 1
  { period := perSecond
    burst
    period_pos := Nat.le_max_right _ _
    burst_pos := Nat.le_max_right _ _ }

end MizanConnect.Server
