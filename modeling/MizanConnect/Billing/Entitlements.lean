import MizanConnect.Types

/-!
# `MizanConnect.Billing.Entitlements`: the tier → entitlements matrix

`src/billing/entitlements.rs`.
-/

set_option autoImplicit false

namespace MizanConnect.Billing

/-- "No limit", for any numeric quota. -/
def UNLIMITED : Int := -1

/-- Capabilities and quotas that a subscription unlocks. -/
structure Entitlements where
  plan : String
  maxPortfolios : Int
  maxHoldings : Int
  maxAssetClasses : Int
  brokerSync : Bool
  maxBrokerConnections : Int
  deviceSync : Bool
  cloudBackup : Bool
  managedAi : Bool
  aiCreditsMonthly : Int
  newsDailyLimit : Int
  marketRefreshDailyLimit : Int
  csvImportsMonthly : Int
  advancedReports : Bool
  advisorMode : Bool
deriving DecidableEq, Repr

/-- `impl Default for Entitlements`: the free plan. -/
def Entitlements.default : Entitlements where
  plan := "free"
  maxPortfolios := 1
  maxHoldings := 20
  maxAssetClasses := 2
  brokerSync := false
  maxBrokerConnections := 0
  deviceSync := false
  cloudBackup := false
  managedAi := false
  aiCreditsMonthly := 0
  newsDailyLimit := 3
  marketRefreshDailyLimit := 5
  csvImportsMonthly := 1
  advancedReports := false
  advisorMode := false

/-- The `basic` row of the matrix. -/
def basicEntitlements : Entitlements where
  plan := "basic"
  maxPortfolios := 5
  maxHoldings := 250
  maxAssetClasses := UNLIMITED
  brokerSync := false
  maxBrokerConnections := 0
  deviceSync := true
  cloudBackup := true
  managedAi := true
  aiCreditsMonthly := 300
  newsDailyLimit := UNLIMITED
  marketRefreshDailyLimit := 50
  csvImportsMonthly := 20
  advancedReports := false
  advisorMode := false

/-- The `enterprise` and `advisor` row of the matrix. -/
def enterpriseEntitlements (plan : String) : Entitlements where
  plan := plan
  maxPortfolios := UNLIMITED
  maxHoldings := UNLIMITED
  maxAssetClasses := UNLIMITED
  brokerSync := true
  maxBrokerConnections := UNLIMITED
  deviceSync := true
  cloudBackup := true
  managedAi := true
  aiCreditsMonthly := UNLIMITED
  newsDailyLimit := UNLIMITED
  marketRefreshDailyLimit := UNLIMITED
  csvImportsMonthly := UNLIMITED
  advancedReports := true
  advisorMode := true

/-- The row of `pro`, the legacy slugs and every other paid slug. -/
def proEntitlements (plan : String) : Entitlements where
  plan := plan
  maxPortfolios := 25
  maxHoldings := UNLIMITED
  maxAssetClasses := UNLIMITED
  brokerSync := true
  maxBrokerConnections := 5
  deviceSync := true
  cloudBackup := true
  managedAi := true
  aiCreditsMonthly := 1500
  newsDailyLimit := UNLIMITED
  marketRefreshDailyLimit := UNLIMITED
  csvImportsMonthly := UNLIMITED
  advancedReports := true
  advisorMode := false

/-- `entitlements_for`. Every status but `active` and `trialing` is Free. -/
def entitlementsFor (tier status : Option String) : Entitlements :=
  if status = some "active" ∨ status = some "trialing" then
    match tier.map toAsciiLowercase with
    | none => .default
    | some other =>
      if other = "free" then .default
      else if other = "basic" then basicEntitlements
      else if other = "enterprise" ∨ other = "advisor" then
        enterpriseEntitlements (toAsciiLowercase (tier.getD "enterprise"))
      else proEntitlements other
  else .default

/-- A finite monthly AI credit quota is 0, 300 or 1500. -/
theorem aiCreditsMonthly_cases (tier status : Option String) :
    let quota := (entitlementsFor tier status).aiCreditsMonthly
    quota = UNLIMITED ∨ quota = 0 ∨ quota = 300 ∨ quota = 1500 := by
  unfold entitlementsFor
  split
  · split
    · exact .inr (.inl rfl)
    · split
      · exact .inr (.inl rfl)
      · split
        · exact .inr (.inr (.inl rfl))
        · split
          · exact .inl rfl
          · exact .inr (.inr (.inr rfl))
  · exact .inr (.inl rfl)

end MizanConnect.Billing
