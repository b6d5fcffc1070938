import MizanConnect.Billing.Credits
import MizanConnect.Lib.Rounding

/-!
# `MizanConnect.Proofs.Billing.CreditPrice`: the price of a reply

`credits_for_tokens` divides by 1000 in `f64` and takes the ceiling. The
weighted sum of two `u32` counts is below `2 ^ 34`, so the rounding of the
division never shows (`Rounding.RoundsRatio.ceil_eq`). The price is an integer
formula of the sum, and the rest of `price_exact` is arithmetic on it.
-/

set_option autoImplicit false

namespace MizanConnect.Proofs.Billing

open MizanConnect.Billing
open Rounding (RoundsRatio roundBits)

/-- The division of `credits_for_tokens`: rounded with a relative error of at
most `2 ^ -53`, and exact when the quotient is an integer. A weighted sum below
`2 ^ 53` is converted exactly. -/
abbrev RoundsQuotient (quotient : Nat → Rat) : Prop := RoundsRatio 53 1000 quotient

/-- The quotient of binary64. -/
def binary64Quotient (weighted : Nat) : Rat := roundBits 53 ((weighted : Rat) / 1000)

theorem roundsQuotient_binary64 : RoundsQuotient binary64Quotient :=
  Rounding.roundsRatio_roundBits (by decide)

/-- The ceiling of a thousandth, in integers. -/
theorem ceil_thousandth (w : Nat) : ⌈(w : Rat) / 1000⌉ = ((w + 999) / 1000 : Nat) := by
  have hceil := Rat.ceil_natCast_div_natCast w 1000
  rw [Nat.cast_ofNat] at hceil
  rw [hceil]
  omega

section
variable {quotient : Nat → Rat}

/-- The rounding of the division does not show in the ceiling. -/
theorem ceil_quotient (hq : RoundsQuotient quotient) {p c : Nat} (hp : p < 2 ^ 32)
    (hc : c < 2 ^ 32) : ⌈quotient (p + 3 * c)⌉ = ((p + 3 * c + 999) / 1000 : Nat) := by
  have hw : p + 3 * c < 2 ^ 53 := by omega
  rw [hq.ceil_eq (by decide) hw, Nat.cast_ofNat, ceil_thousandth]

/-- The price in integers. -/
theorem creditsForTokens_eq (hq : RoundsQuotient quotient) {p c : Nat} (hp : p < 2 ^ 32)
    (hc : c < 2 ^ 32) :
    creditsForTokens quotient p c = max (1 : Int) ((p + 3 * c + 999) / 1000 : Nat) := by
  unfold creditsForTokens saturateI32
  dsimp only
  rw [ceil_quotient hq hp hc]
  omega

/-- The sum of two counts that fits `u32`. -/
theorem toNat_add_of_lt {a b : UInt32} (h : a.toNat + b.toNat < 2 ^ 32) :
    (a + b).toNat = a.toNat + b.toNat := by
  rw [UInt32.toNat_add, Nat.mod_eq_of_lt h]

end

/-- For all `u32` counts the price is `max 1 ⌈(p + 3 c) / 1000⌉` over the
integers, and the cast to `i32` does not saturate. The price is monotone in both
counts, and two replies do not cost less than one with all their tokens. -/
theorem price_exact (quotient : Nat → Rat) (hq : RoundsQuotient quotient) :
    (∀ p c : UInt32, creditsForTokens quotient p.toNat c.toNat
      = max 1 ⌈((p.toNat + 3 * c.toNat : Nat) : Rat) / 1000⌉) ∧
    (∀ p c : UInt32, saturateI32 ⌈quotient (p.toNat + 3 * c.toNat)⌉
      = ⌈quotient (p.toNat + 3 * c.toNat)⌉) ∧
    (∀ p p' c c' : UInt32, p ≤ p' → c ≤ c' →
      creditsForTokens quotient p.toNat c.toNat ≤ creditsForTokens quotient p'.toNat c'.toNat) ∧
    (∀ p₁ p₂ c₁ c₂ : UInt32, p₁.toNat + p₂.toNat < 2 ^ 32 → c₁.toNat + c₂.toNat < 2 ^ 32 →
      creditsForTokens quotient (p₁ + p₂).toNat (c₁ + c₂).toNat
        ≤ creditsForTokens quotient p₁.toNat c₁.toNat
          + creditsForTokens quotient p₂.toNat c₂.toNat) := by
  refine ⟨?_, ?_, ?_, ?_⟩
  · intro p c
    rw [creditsForTokens_eq hq p.toNat_lt c.toNat_lt, ceil_thousandth]
  · intro p c
    have hp := p.toNat_lt
    have hc := c.toNat_lt
    rw [ceil_quotient hq hp hc, saturateI32]
    omega
  · intro p p' c c' hp hc
    have hp' : p.toNat ≤ p'.toNat := hp
    have hc' : c.toNat ≤ c'.toNat := hc
    rw [creditsForTokens_eq hq p.toNat_lt c.toNat_lt,
      creditsForTokens_eq hq p'.toNat_lt c'.toNat_lt]
    omega
  · intro p₁ p₂ c₁ c₂ hp hc
    rw [toNat_add_of_lt hp, toNat_add_of_lt hc, creditsForTokens_eq hq hp hc,
      creditsForTokens_eq hq p₁.toNat_lt c₁.toNat_lt,
      creditsForTokens_eq hq p₂.toNat_lt c₂.toNat_lt]
    omega

/-- A reply of 5000 and 10000 tokens, in the arithmetic of binary64. -/
theorem price_exact_large_reply : creditsForTokens binary64Quotient 5000 10000 = 35 := by
  have hprice := (price_exact binary64Quotient roundsQuotient_binary64).1 5000 10000
  have hsum : (5000 : UInt32).toNat + 3 * (10000 : UInt32).toNat = 35000 := by decide
  rw [hsum, ceil_thousandth] at hprice
  exact hprice

end MizanConnect.Proofs.Billing
