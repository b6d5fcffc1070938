import Mathlib.Data.Rat.Floor

/-!
# `MizanConnect.Billing.Credits`: the managed-AI cost table

`src/billing/credits.rs`. The price of a reply goes through an `f64`
division. `quotient w` stands for the value of `w as f64 / 1000.0`, a
parameter here: which rounding it does is stated where a result needs it.
-/

set_option autoImplicit false

namespace MizanConnect.Billing

/-- What the user asks the AI to do. -/
inductive RequestKind where
  | simple
  | analysis
  | csvMapping
  | monthlyReport
  | deepReport
deriving DecidableEq, Repr

/-- `RequestKind::estimated_cost`. -/
def RequestKind.estimatedCost : RequestKind → Int
  | .simple => 1
  | .analysis => 5
  | .csvMapping => 10
  | .monthlyReport => 25
  | .deepReport => 50

/-- The name `chat` writes to the ledger. -/
def RequestKind.asStr : RequestKind → String
  | .simple => "simple"
  | .analysis => "analysis"
  | .csvMapping => "csv_mapping"
  | .monthlyReport => "monthly_report"
  | .deepReport => "deep_report"

/-- Every estimate is positive, and none exceeds 50 credits. -/
theorem RequestKind.estimatedCost_bounds (kind : RequestKind) :
    0 < kind.estimatedCost ∧ kind.estimatedCost ≤ 50 := by
  cases kind <;> decide

/-- `f64 as i32` on an integral value: saturating. -/
def saturateI32 (x : Int) : Int := max (-2147483648) (min 2147483647 x)

/-- `credits_for_tokens`. -/
def creditsForTokens (quotient : Nat → Rat) (promptTokens completionTokens : Nat) : Int :=
  let weighted := promptTokens + 3 * completionTokens
  let credits := saturateI32 ⌈quotient weighted⌉
  max credits 1

/-- A reply costs at least one credit. -/
theorem one_le_creditsForTokens (quotient : Nat → Rat) (p c : Nat) :
    1 ≤ creditsForTokens quotient p c :=
  le_max_right _ _

/-- A price fits an `INTEGER` column. -/
theorem creditsForTokens_le (quotient : Nat → Rat) (p c : Nat) :
    creditsForTokens quotient p c ≤ 2147483647 := by
  unfold creditsForTokens saturateI32
  dsimp only
  omega

end MizanConnect.Billing
