import MizanConnect.Types

/-!
# `MizanConnect.Billing.Prices`: Stripe Price ids

`src/billing/prices.rs`.
-/

set_option autoImplicit false

namespace MizanConnect.Billing

/-- The plans a client can subscribe to. -/
inductive CheckoutPlan where
  | basic
  | pro
  | enterprise
deriving DecidableEq, Repr

/-- `impl FromStr for CheckoutPlan`. -/
def CheckoutPlan.fromStr (s : String) : Except String CheckoutPlan :=
  let word := toAsciiLowercase (trim s)
  if word = "basic" then .ok .basic
  else if word = "pro" then .ok .pro
  else if word = "enterprise" then .ok .enterprise
  else .error ("unknown plan: " ++ word)

/-- `CheckoutPlan::slug`. -/
def CheckoutPlan.slug : CheckoutPlan → String
  | .basic => "basic"
  | .pro => "pro"
  | .enterprise => "enterprise"

/-- The billing intervals a client can choose. -/
inductive BillingInterval where
  | monthly
  | yearly
deriving DecidableEq, Repr

/-- `impl FromStr for BillingInterval`. -/
def BillingInterval.fromStr (s : String) : Except String BillingInterval :=
  let word := toAsciiLowercase (trim s)
  if word = "monthly" ∨ word = "month" then .ok .monthly
  else if word = "yearly" ∨ word = "year" ∨ word = "annual" then .ok .yearly
  else .error ("unknown interval: " ++ word)

/-- The six configured Stripe Price ids. -/
structure StripePrices where
  basicMonthly : String
  basicYearly : String
  proMonthly : String
  proYearly : String
  enterpriseMonthly : String
  enterpriseYearly : String

/-- `StripePrices::lookup`. An empty id is not for sale. -/
def StripePrices.lookup (prices : StripePrices) (plan : CheckoutPlan)
    (interval : BillingInterval) : Option String :=
  let raw :=
    match plan, interval with
    | .basic, .monthly => prices.basicMonthly
    | .basic, .yearly => prices.basicYearly
    | .pro, .monthly => prices.proMonthly
    | .pro, .yearly => prices.proYearly
    | .enterprise, .monthly => prices.enterpriseMonthly
    | .enterprise, .yearly => prices.enterpriseYearly
  if raw.isEmpty then none else some raw

/-- `StripePrices::plan_for`. -/
def StripePrices.planFor (prices : StripePrices) (priceId : String) : Option CheckoutPlan :=
  if priceId = prices.basicMonthly ∨ priceId = prices.basicYearly then some .basic
  else if priceId = prices.proMonthly ∨ priceId = prices.proYearly then some .pro
  else if priceId = prices.enterpriseMonthly ∨ priceId = prices.enterpriseYearly then
    some .enterprise
  else none

end MizanConnect.Billing
