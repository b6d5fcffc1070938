import MizanConnect.Billing.Credits
import MizanConnect.Billing.Entitlements
import MizanConnect.Billing.Repository
import MizanConnect.Lib.Lines
import MizanConnect.Lib.Utf8
import Mathlib.Data.List.DropRight

/-!
# `MizanConnect.Billing.AiProxy`: `POST /v1/ai/chat`

`src/billing/ai_proxy.rs`: the checks before the upstream call, the task
that re-frames the upstream stream, and the charge.

A Rust `String` is the list of its characters here. The two `serde_json`
parsers are parameters (`StreamContext`), and so is the receiver of the
channel: `connected k` says whether the event number `k` still reaches it.
`Event::data` panics on a carriage return inside its text (a trailing one is
trimmed before), and the release profile aborts on a panic.
-/

set_option autoImplicit false

namespace MizanConnect.Billing

open Repository
open Sql (Table)
open Subscriptions (Row)

/-! ### Before the upstream call -/

/-- `AiChatRequest`, the fields that the checks and the ledger read. -/
structure AiChatRequest where
  model : Option String
  kind : Option RequestKind

/-- `DEFAULT_MODEL`. -/
def defaultModel : String := "gpt-4o-mini"

/-- `req.kind.unwrap_or(RequestKind::Simple)`. -/
def AiChatRequest.requestKind (req : AiChatRequest) : RequestKind := req.kind.getD .simple

/-- The configuration that `chat` looks at: billing, and its OpenAI key. -/
structure AiConfig where
  billing : Bool
  openaiKey : Bool

/-- The entitlements of the row `fetch_active` found. -/
def entitlementsOf (sub : Option SubscriptionRow) : Entitlements :=
  entitlementsFor (sub.map (·.tier)) (sub.map (·.status))

/-- The comparison of the cap check. -/
def withinCap (sub : Option SubscriptionRow) (kind : RequestKind) : Bool :=
  let used := (sub.map (·.aiCreditsUsed)).getD 0
  let monthly := (entitlementsOf sub).aiCreditsMonthly
  monthly = UNLIMITED || decide (wrapI32 (used + kind.estimatedCost) ≤ monthly)

/-- `chat` up to the configuration check. -/
def checkAiConfig (config : AiConfig) : Except AppError Unit :=
  if config.billing = false then .error (.notImplemented "billing/AI not configured")
  else if config.openaiKey = false then
    .error (.serviceUnavailable "managed AI is not configured on this server")
  else .ok ()

/-- `chat` from the subscription row to the upstream call. -/
def admitChat (sub : Option SubscriptionRow) (kind : RequestKind) : Except AppError Unit :=
  if (entitlementsOf sub).managedAi = false then
    .error (.forbidden "managed Mizan AI requires a subscription")
  else if withinCap sub kind then .ok ()
  else .error (.unprocessable "AI credit cap reached for this billing period")

/-! ### The streamer -/

/-- `TokenUsage`. -/
structure TokenUsage where
  promptTokens : UInt32
  completionTokens : UInt32
  totalTokens : UInt32
deriving DecidableEq, Repr

/-- `TokenUsage::default()`. -/
def TokenUsage.default : TokenUsage := ⟨0, 0, 0⟩

/-- What the streamer uses from outside. `decodeUsage` is
`serde_json::from_value::<TokenUsage>`. -/
structure StreamContext where
  parseJson : List Char → Option Json
  decodeUsage : Json → Option TokenUsage

/-- The usage in a payload, if it has one. -/
def usageOf (ctx : StreamContext) (payload : List Char) : Option TokenUsage :=
  ((ctx.parseJson payload).bind (·.get? "usage")).bind ctx.decodeUsage

/-- The prefix of a data line. -/
def dataPrefix : List Char := ['d', 'a', 't', 'a', ':', ' ']

/-- The payload that ends the stream. -/
def doneMarker : List Char := ['[', 'D', 'O', 'N', 'E', ']']

/-- The locals of the loop: the last usage, and the events sent. -/
structure Progress where
  usage : TokenUsage
  sent : List (List Char)
deriving DecidableEq

/-- Where the loop over the lines goes on. The usage is lost when the task
returns or panics inside the loop. -/
inductive Flow where
  | more (p : Progress)
  | done (p : Progress)
  | disconnected (sent : List (List Char))
  | panicked (sent : List (List Char))
deriving DecidableEq

/-- One line, without its `\n`. -/
def processLine (ctx : StreamContext) (connected : Nat → Bool) (p : Progress)
    (line : List Char) : Flow :=
  match (line.rdropWhile (· = '\r')).dropPrefix? dataPrefix with
  | none => .more p
  | some payload =>
    if payload = doneMarker then
      -- The result of this send is ignored.
      .done (if connected p.sent.length then { p with sent := p.sent ++ [payload] } else p)
    else
      let p := { p with usage := (usageOf ctx payload).getD p.usage }
      if '\r' ∈ payload then .panicked p.sent
      else if connected p.sent.length then .more { p with sent := p.sent ++ [payload] }
      else .disconnected p.sent

/-- The lines that one chunk completes. -/
def processLines (ctx : StreamContext) (connected : Nat → Bool) (p : Progress) :
    List (List Char) → Flow
  | [] => .more p
  | line :: lines =>
    match processLine ctx connected p line with
    | .more p' => processLines ctx connected p' lines
    | flow => flow

/-- An item of the byte stream: a chunk, or a failed read. -/
inductive Chunk where
  | bytes (bs : List UInt8)
  | failed

/-- How the stream ended. The locals survive only when the loop is left. -/
inductive StreamEnd where
  | finished (sent : List (List Char)) (usage : TokenUsage) (sawDone : Bool)
  | disconnected (sent : List (List Char))
  | panicked (sent : List (List Char))
deriving DecidableEq

/-- The loop of `run_stream` over the chunks. -/
def pump (ctx : StreamContext) (connected : Nat → Bool) (p : Progress) (buf : List Char) :
    List Chunk → StreamEnd
  | [] => .finished p.sent p.usage false
  | .failed :: _ => .finished p.sent p.usage false
  | .bytes bs :: chunks =>
    let lines := Lines.takeLines (· = '\n') (buf ++ Utf8.fromUtf8Lossy bs)
    match processLines ctx connected p lines.1 with
    | .more p' => pump ctx connected p' lines.2 chunks
    | .done p' => .finished p'.sent p'.usage true
    | .disconnected sent => .disconnected sent
    | .panicked sent => .panicked sent

/-- `run_stream` up to the reconciliation. -/
def runStream (ctx : StreamContext) (connected : Nat → Bool) (chunks : List Chunk) :
    StreamEnd :=
  pump ctx connected ⟨TokenUsage.default, []⟩ [] chunks

/-- The usage that is charged: only a stream that saw `[DONE]` is. -/
def StreamEnd.charged : StreamEnd → Option TokenUsage
  | .finished _ usage true => some usage
  | _ => none

/-! ### The charge -/

/-- `credits_for_tokens` of a usage. -/
def TokenUsage.credits (quotient : Nat → Rat) (usage : TokenUsage) : Int :=
  creditsForTokens quotient usage.promptTokens.toNat usage.completionTokens.toNat

/-- `record_usage` of the charge. `total_tokens as i32` wraps. -/
def chargeLedgerRow (userId : Uuid) (model : String) (kind : RequestKind) (usage : TokenUsage)
    (charged : Int) : Except Sql.Violation LedgerRow :=
  recordUsage userId "ai_reply" (wrapI32 usage.totalTokens.toNat) charged (some model)
    (some kind.asStr)

end MizanConnect.Billing
