import MizanConnect.Proofs.Billing.CreditPrice
import MizanConnect.Proofs.Billing.StreamCharge

/-!
# `MizanConnect.Proofs.Billing.NoWrap`: the 32-bit arithmetic of a charge

`chat` adds two `i32`, `run_stream` casts a `u32` to `i32`, and the UPDATE adds
two `INTEGER`. The first two wrap and the third fails, so a chat is tested and
charged as over the integers exactly when none of the three leaves the range
(`exact_charging_iff`). The price itself is always in range: it is that of
`creditsForTokens_eq`.
-/

set_option autoImplicit false

namespace MizanConnect.Proofs.Billing

open MizanConnect.Billing
open Repository
open Subscriptions (Row afterMigrations)

/-! ### Wrapping -/

/-- A sum that wraps once. -/
theorem wrapI32_over {x : Int} (hlo : 2147483647 < x) (hhi : x ≤ 4294967295) :
    wrapI32 x = x - 4294967296 := by
  unfold wrapI32
  rw [show (2 : Nat) ^ 32 = 4294967296 from rfl, Int.bmod_def]
  omega

/-! ### The two sides -/

/-- The credits that `chat` reads off the row, zero without one. -/
def usedOf (sub : Option SubscriptionRow) : Int := (sub.map (·.aiCreditsUsed)).getD 0

/-- The price of a usage over the integers. -/
def exactPrice (usage : TokenUsage) : Int :=
  max 1 ⌈((usage.promptTokens.toNat + 3 * usage.completionTokens.toNat : Nat) : Rat) / 1000⌉

/-- A chat and its charge, as over the integers: the cap test compares the sum,
`record_usage` takes the tokens and the price, and the completed stream is
charged. -/
structure ExactCharging (ctx : SysContext) (sub : Option SubscriptionRow) (task : ChatTask)
    (usage : TokenUsage) (db : BillingDb afterMigrations) : Prop where
  cap : withinCap sub task.request.requestKind = false ↔
    (entitlementsOf sub).aiCreditsMonthly < usedOf sub + task.request.requestKind.estimatedCost
  ledger : ∃ row, chargeLedgerRow task.userId (task.request.model.getD defaultModel)
      task.request.requestKind usage (usage.credits ctx.quotient) = .ok row ∧
    row.units = usage.totalTokens.toNat ∧ row.costCredits = exactPrice usage
  charged : Charged ctx task usage db (reconcile ctx task usage db)

/-- Nothing leaves the range of `i32`: the sum of the cap test, the count of the
tokens, and the counter after the charge. -/
structure InRange (sub : Option SubscriptionRow) (kind : RequestKind) (usage : TokenUsage)
    (used : Int) : Prop where
  sum : usedOf sub + kind.estimatedCost ≤ 2147483647
  tokens : usage.totalTokens.toNat ≤ 2147483647
  counter : used + exactPrice usage ≤ 2147483647

section
variable {ctx : SysContext} {sub : Option SubscriptionRow} {task : ChatTask} {usage : TokenUsage}
  {db : BillingDb afterMigrations}

/-- The computed price is the one over the integers. -/
theorem credits_eq_exactPrice (hq : RoundsQuotient ctx.quotient) (usage : TokenUsage) :
    usage.credits ctx.quotient = exactPrice usage := by
  unfold TokenUsage.credits exactPrice
  rw [creditsForTokens_eq hq usage.promptTokens.toNat_lt usage.completionTokens.toNat_lt,
    ceil_thousandth]

/-- The cap test wraps at the end of the range, and only there. -/
theorem cap_exact_iff (hused : isI32 (usedOf sub) = true) (kind : RequestKind)
    (hfinite : (entitlementsOf sub).aiCreditsMonthly ≠ UNLIMITED) :
    (withinCap sub kind = false ↔
        (entitlementsOf sub).aiCreditsMonthly < usedOf sub + kind.estimatedCost) ↔
      usedOf sub + kind.estimatedCost ≤ 2147483647 := by
  have hcost := kind.estimatedCost_bounds
  simp only [isI32, decide_eq_true_eq] at hused
  have htest : withinCap sub kind = false ↔
      (entitlementsOf sub).aiCreditsMonthly < wrapI32 (usedOf sub + kind.estimatedCost) := by
    unfold withinCap usedOf
    simp [hfinite]
  rw [htest]
  by_cases hsum : usedOf sub + kind.estimatedCost ≤ 2147483647
  · have hrange : isI32 (usedOf sub + kind.estimatedCost) = true := by
      simp only [isI32, decide_eq_true_eq]
      omega
    rw [wrapI32_eq hrange]
    exact iff_of_true Iff.rfl hsum
  · -- The wrapped sum is negative, and a finite cap is not.
    have hcap : 0 ≤ (entitlementsOf sub).aiCreditsMonthly ∧
        (entitlementsOf sub).aiCreditsMonthly ≤ 1500 := by
      rcases aiCreditsMonthly_cases (sub.map (·.tier)) (sub.map (·.status)) with
        hcap | hcap | hcap | hcap
      · exact absurd hcap hfinite
      all_goals
        rw [entitlementsOf, hcap]
        decide
    rw [wrapI32_over (by omega) (by omega)]
    refine iff_of_false ?_ hsum
    intro h
    have := h.mpr (by omega)
    omega

/-- A count that wraps is negative, and the ledger takes no such row. -/
theorem tokens_of_ledger {userId : Uuid} {model : String} {kind : RequestKind} {charged : Int}
    {row : LedgerRow} (h : chargeLedgerRow userId model kind usage charged = .ok row) :
    usage.totalTokens.toNat ≤ 2147483647 := by
  by_contra hover
  have hlt := usage.totalTokens.toNat_lt
  unfold chargeLedgerRow recordUsage at h
  rw [show UsageMetric.ofStr? "ai_reply" = some .aiReply by decide] at h
  dsimp only at h
  rw [wrapI32_over (by omega) (by omega), dif_neg (by omega)] at h
  cases h

/-- The counter after a charge that is not lost is in range. -/
theorem counter_of_charged {r : Row} (hr : r ∈ db.subscriptions.rows)
    (hbill : billableFor task.userId r = true)
    (h : Charged ctx task usage db (reconcile ctx task usage db)) :
    r.aiCreditsUsed + usage.credits ctx.quotient ≤ 2147483647 := by
  by_contra hover
  have hrange : isI32 (r.aiCreditsUsed + usage.credits ctx.quotient) = false := by
    simp only [isI32, decide_eq_false_iff_not]
    omega
  -- The transaction is rolled back, so the ledger did not grow.
  obtain ⟨row, hledger, -⟩ := h.ledger
  rw [reconcile_none hr hbill hrange] at hledger
  have hlength := congrArg List.length hledger
  simp at hlength

end

/-! ### The theorem -/

/-- For every stored count of credits, request kind, finite cap and usage: the
cap test and the charge are those over the integers exactly when the sum of the
test, the tokens and the counter after the charge fit `i32`. `sub` is the row
that `chat` reads, `r` the billable row at the time of the charge. -/
theorem exact_charging_iff (ctx : SysContext) (hq : RoundsQuotient ctx.quotient)
    (sub : Option SubscriptionRow) (hused : isI32 (usedOf sub) = true)
    (hfinite : (entitlementsOf sub).aiCreditsMonthly ≠ UNLIMITED) (task : ChatTask)
    (usage : TokenUsage) (db : BillingDb afterMigrations) (r : Row)
    (hr : r ∈ db.subscriptions.rows) (hbill : billableFor task.userId r = true) :
    ExactCharging ctx sub task usage db ↔
      InRange sub task.request.requestKind usage r.aiCreditsUsed := by
  have hprice := credits_eq_exactPrice hq usage
  constructor
  · intro h
    obtain ⟨row, hrow, -, -⟩ := h.ledger
    exact ⟨(cap_exact_iff hused _ hfinite).mp h.cap, tokens_of_ledger hrow,
      hprice ▸ counter_of_charged hr hbill h.charged⟩
  · intro h
    have htotal : usage.totalTokens.toNat < 2 ^ 31 := by
      have := h.tokens
      omega
    obtain ⟨row, hrow, -, -, hunits, hcost, -, -⟩ := chargeLedgerRow_some ctx task htotal
    have hrange : isI32 (r.aiCreditsUsed + usage.credits ctx.quotient) = true := by
      have hcounter := h.counter
      have hbefore := isI32_used hr
      have hone : 1 ≤ usage.credits ctx.quotient := one_le_creditsForTokens _ _ _
      rw [← hprice] at hcounter
      simp only [isI32, decide_eq_true_eq] at hbefore ⊢
      omega
    exact ⟨(cap_exact_iff hused _ hfinite).mpr h.sum, ⟨row, hrow, hunits, hcost.trans hprice⟩,
      reconcile_some hr hbill htotal hrange⟩

/-- The service with the division of binary64. -/
def binary64Context : SysContext := { sampleContext [] with quotient := binary64Quotient }

/-- What `chat` reads of the row of `payingDb`. -/
def payingSub (used : Int) : Option SubscriptionRow :=
  some (SubscriptionRow.ofRow (payingRow used))

/-- Seven credits of three hundred, and a reply of 35 credits. -/
theorem exact_charging_iff_paying :
    ExactCharging binary64Context (payingSub 7) payingTask ⟨5000, 10000, 15000⟩
      (payingDb 7 (by decide)) := by
  refine (exact_charging_iff binary64Context roundsQuotient_binary64 (payingSub 7) (by decide)
    (by decide) payingTask ⟨5000, 10000, 15000⟩ (payingDb 7 (by decide)) (payingRow 7)
    List.mem_cons_self (by decide)).mpr ⟨by decide, by decide, ?_⟩
  have hsum : (5000 : UInt32).toNat + 3 * (10000 : UInt32).toNat = 35000 := by decide
  show (7 : Int) + exactPrice _ ≤ 2147483647
  rw [exactPrice, hsum, ceil_thousandth]
  decide

/-- A counter at the end of the range passes the cap test of 300 credits, and a
usage of `2 ^ 31` tokens is not charged. -/
theorem wraps_at_extremes :
    ¬ ExactCharging binary64Context (payingSub 2147483647) payingTask ⟨0, 0, 0⟩
        (payingDb 7 (by decide)) ∧
      ¬ ExactCharging binary64Context (payingSub 7) payingTask ⟨0, 0, 2147483648⟩
        (payingDb 7 (by decide)) := by
  constructor
  · intro h
    have hover : withinCap (payingSub 2147483647) payingTask.request.requestKind = false :=
      h.cap.mpr (by decide)
    have hpasses : withinCap (payingSub 2147483647) payingTask.request.requestKind = true := by
      decide
    rw [hpasses] at hover
    cases hover
  · intro h
    obtain ⟨row, hrow, -, -⟩ := h.ledger
    exact absurd (tokens_of_ledger hrow) (by decide)

end MizanConnect.Proofs.Billing
