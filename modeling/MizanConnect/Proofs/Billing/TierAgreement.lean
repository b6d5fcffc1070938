import MizanConnect.Billing.Webhook

/-!
# `MizanConnect.Proofs.Billing.TierAgreement`: the plan sold and the tier stored

A checkout looks the Price id of a plan up (`StripePrices.lookup`), and the
webhook looks the plan of a Price id up (`StripePrices.planFor`). When no two
slots have the same id the second inverts the first (`planFor_lookup`), so a
subscription with nothing to read in its metadata gets the plan that was sold.
-/

set_option autoImplicit false

namespace MizanConnect.Proofs.Billing

open MizanConnect.Billing
open Repository
open Subscriptions (tierSlugs baseViolation)

/-- The slots that are not empty are pairwise distinct. -/
def DistinctPrices (prices : StripePrices) : Prop :=
  ∀ plan interval plan' interval' id, prices.lookup plan interval = some id →
    prices.lookup plan' interval' = some id → plan = plan' ∧ interval = interval'

/-- No item has a plan in its metadata that is known. -/
def Untagged (sub : SubscriptionObject) : Prop :=
  ∀ item ∈ sub.items, ∀ text, item.metadataPlan = some text →
    ∀ plan, CheckoutPlan.fromStr text ≠ .ok plan

/-- The configured id of a plan and an interval. -/
def slot (prices : StripePrices) : CheckoutPlan → BillingInterval → String
  | .basic, .monthly => prices.basicMonthly
  | .basic, .yearly => prices.basicYearly
  | .pro, .monthly => prices.proMonthly
  | .pro, .yearly => prices.proYearly
  | .enterprise, .monthly => prices.enterpriseMonthly
  | .enterprise, .yearly => prices.enterpriseYearly

section
variable {prices : StripePrices} {plan : CheckoutPlan} {interval : BillingInterval} {id : String}

/-- An id that is sold is that of its slot, and not empty. -/
theorem lookup_eq_some_iff : prices.lookup plan interval = some id ↔
    slot prices plan interval = id ∧ id ≠ "" := by
  have hlookup : prices.lookup plan interval =
      if (slot prices plan interval).isEmpty then none else some (slot prices plan interval) := by
    cases plan <;> cases interval <;> rfl
  rw [hlookup]
  split
  · rename_i hempty
    rw [String.isEmpty_iff] at hempty
    simp [hempty, eq_comm]
  · rename_i hsold
    rw [String.isEmpty_iff] at hsold
    constructor
    · intro h
      cases h
      exact ⟨rfl, hsold⟩
    · rintro ⟨rfl, -⟩
      rfl

/-- An id of a plan is that of one of its two slots. -/
theorem exists_slot (h : id = slot prices plan .monthly ∨ id = slot prices plan .yearly) :
    ∃ interval, slot prices plan interval = id := by
  rcases h with h | h
  · exact ⟨.monthly, h.symm⟩
  · exact ⟨.yearly, h.symm⟩

/-- The plan that the webhook finds for an id has a slot with it. -/
theorem slot_of_planFor (h : prices.planFor id = some plan) :
    ∃ interval, slot prices plan interval = id := by
  unfold StripePrices.planFor at h
  split at h
  · rename_i hbasic
    cases h
    exact exists_slot hbasic
  · split at h
    · rename_i hpro
      cases h
      exact exists_slot hpro
    · split at h
      · rename_i henterprise
        cases h
        exact exists_slot henterprise
      · cases h

/-- The id of a slot is found. -/
theorem planFor_slot (prices : StripePrices) (plan : CheckoutPlan) (interval : BillingInterval) :
    ∃ plan', prices.planFor (slot prices plan interval) = some plan' := by
  have hslot : ∀ id, slot prices plan interval = id →
      (id = prices.basicMonthly ∨ id = prices.basicYearly) ∨
        (id = prices.proMonthly ∨ id = prices.proYearly) ∨
        (id = prices.enterpriseMonthly ∨ id = prices.enterpriseYearly) := by
    rintro id rfl
    cases plan <;> cases interval <;> simp [slot]
  unfold StripePrices.planFor
  split
  · exact ⟨_, rfl⟩
  · rename_i hbasic
    split
    · exact ⟨_, rfl⟩
    · rename_i hpro
      rw [if_pos (((hslot _ rfl).resolve_left hbasic).resolve_left hpro)]
      exact ⟨_, rfl⟩

/-- The reverse lookup inverts the lookup. -/
theorem planFor_lookup (hdistinct : DistinctPrices prices)
    (h : prices.lookup plan interval = some id) : prices.planFor id = some plan := by
  obtain ⟨hslot, hid⟩ := lookup_eq_some_iff.mp h
  obtain ⟨plan', hplan'⟩ := planFor_slot prices plan interval
  rw [hslot] at hplan'
  obtain ⟨interval', hslot'⟩ := slot_of_planFor hplan'
  have h' := lookup_eq_some_iff.mpr ⟨hslot', hid⟩
  rw [hplan', (hdistinct _ _ _ _ _ h h').1]

end

/-- Without a known plan in the metadata the first item with a known price
decides. -/
theorem resolveTier_untagged {sub : SubscriptionObject} (prices : StripePrices)
    (h : Untagged sub) :
    resolveTier sub prices = sub.items.findSome? fun item => prices.planFor item.priceId := by
  unfold resolveTier
  dsimp only
  cases htag : (sub.items.filterMap (·.metadataPlan)).head? with
  | none => rfl
  | some text =>
    obtain ⟨item, hitem, htext⟩ := List.mem_filterMap.mp (List.mem_of_head? htag)
    dsimp only
    cases hparse : CheckoutPlan.fromStr text with
    | ok plan => exact absurd hparse (h item hitem text htext plan)
    | error e => rfl

/-- Every plan has a slug that the CHECK accepts. -/
theorem slug_mem_tierSlugs (plan : CheckoutPlan) : plan.slug ∈ tierSlugs := by
  cases plan <;> decide

/-- So has every snapshot, also one without a plan. -/
theorem tierSlug_mem_tierSlugs (sub : SubscriptionObject) (prices : StripePrices) :
    tierSlug sub prices ∈ tierSlugs := by
  unfold tierSlug
  cases resolveTier sub prices with
  | none => decide
  | some plan => exact slug_mem_tierSlugs plan

/-- A row with such a slug does not break the CHECK. -/
theorem baseViolation_ne_tier {r : Subscriptions.Row} (h : r.tier ∈ tierSlugs) :
    baseViolation r ≠ some (.check "subscriptions_tier_check") := by
  unfold baseViolation
  split
  · simp
  · simp

/-- When no two slots have the same id, a subscription to the id of a plan
resolves to that plan, as long as its metadata names none. The tier that
`upsert_from_webhook` gets for any snapshot under any configuration is a slug
of the CHECK, so neither the row that it proposes nor the one that it merges
breaks it. -/
theorem checkout_tier_agrees (prices : StripePrices) :
    (DistinctPrices prices → ∀ plan interval id, prices.lookup plan interval = some id →
      ∀ sub : SubscriptionObject, sub.items ≠ [] → (∀ item ∈ sub.items, item.priceId = id) →
        Untagged sub →
        resolveTier sub prices = some plan ∧
          ∀ userId, (upsertPayload prices sub userId).tier = plan.slug) ∧
    (∀ (sub : SubscriptionObject) (userId : Uuid),
      (upsertPayload prices sub userId).tier ∈ tierSlugs ∧
      (∀ now newId status, baseViolation (proposedRow now newId (upsertPayload prices sub userId)
        status) ≠ some (.check "subscriptions_tier_check")) ∧
      ∀ now status r, baseViolation (mergeRow now (upsertPayload prices sub userId) status r)
        ≠ some (.check "subscriptions_tier_check")) := by
  constructor
  · intro hdistinct plan interval id hlookup sub hitems hprice huntagged
    have htier : resolveTier sub prices = some plan := by
      rw [resolveTier_untagged prices huntagged]
      cases hlist : sub.items with
      | nil => exact absurd hlist hitems
      | cons item items =>
        rw [hlist] at hprice
        rw [List.findSome?_cons, hprice item List.mem_cons_self,
          planFor_lookup hdistinct hlookup]
    refine ⟨htier, ?_⟩
    intro userId
    show tierSlug sub prices = plan.slug
    rw [tierSlug, htier]
    rfl
  · intro sub userId
    have hmem : (upsertPayload prices sub userId).tier ∈ tierSlugs :=
      tierSlug_mem_tierSlugs sub prices
    exact ⟨hmem, fun _ _ _ => baseViolation_ne_tier hmem, fun _ _ _ => baseViolation_ne_tier hmem⟩

/-- Three plans, of which one has no yearly price. -/
def samplePrices : StripePrices := ⟨"price_bm", "price_by", "price_pm", "", "price_em", "price_ey"⟩

theorem distinct_samplePrices : DistinctPrices samplePrices := by
  have hslots : ∀ plan interval plan' interval',
      slot samplePrices plan interval = slot samplePrices plan' interval' →
      slot samplePrices plan interval ≠ "" → plan = plan' ∧ interval = interval' := by
    rintro (_ | _ | _) (_ | _) (_ | _ | _) (_ | _) <;> decide
  intro plan interval plan' interval' id h h'
  obtain ⟨hslot, hid⟩ := lookup_eq_some_iff.mp h
  obtain ⟨hslot', -⟩ := lookup_eq_some_iff.mp h'
  exact hslots plan interval plan' interval' (hslot.trans hslot'.symm) (hslot ▸ hid)

/-- A yearly enterprise subscription, tagged with a plan that is not known. -/
theorem checkout_tier_agrees_enterprise :
    (upsertPayload samplePrices ⟨"sub_1", "cus_1", "active", false, none, none,
      [⟨"price_ey", some "gold"⟩]⟩ ⟨1⟩).tier = "enterprise" := by
  have hagrees := (checkout_tier_agrees samplePrices).1 distinct_samplePrices .enterprise .yearly
    "price_ey" (by decide)
    ⟨"sub_1", "cus_1", "active", false, none, none, [⟨"price_ey", some "gold"⟩]⟩ (by simp)
    (by simp) (by
      intro item hitem text htext plan hparse
      rw [List.mem_singleton.mp hitem] at htext
      cases htext
      have herror : CheckoutPlan.fromStr "gold" = .error "unknown plan: gold" := by decide
      rw [herror] at hparse
      cases hparse)
  exact hagrees.2 ⟨1⟩

end MizanConnect.Proofs.Billing
