import Mathlib.Algebra.Order.Floor.Ring
import Mathlib.Data.Int.Log
import Mathlib.Tactic.FieldSimp
import Mathlib.Tactic.Linarith
import Mathlib.Tactic.Positivity
import Mathlib.Tactic.Ring

/-!
# `MizanConnect.Lib.Rounding`: rounded quotients of integers

`roundBits p` rounds a positive number to `p` significant bits, ties to even,
with no bound on the exponent. That is the rounding of a binary float in its
normal range: `p = 53` is binary64.

`RoundsRatio p d round` is what a division by the integer `d` keeps of it: a
relative error of at most `2 ^ -p`, and none when the quotient is an integer.
That is enough for the ceiling. A dividend below `2 ^ p` has a quotient whose
distance to an integer it does not reach is at least `1 / d`, and the error is
smaller (`RoundsRatio.ceil_eq`).
-/

set_option autoImplicit false

namespace Rounding

variable {R : Type} [Field R] [LinearOrder R] [IsStrictOrderedRing R] [FloorRing R]

/-! ### To an integer -/

/-- The nearest integer. A tie goes to the even one. -/
def nearestEven (x : R) : ℤ :=
  if 2 * Int.fract x < 1 then ⌊x⌋
  else if 1 < 2 * Int.fract x then ⌊x⌋ + 1
  else if ⌊x⌋ % 2 = 0 then ⌊x⌋ else ⌊x⌋ + 1

theorem nearestEven_intCast (n : ℤ) : nearestEven (n : R) = n := by
  unfold nearestEven
  rw [Int.fract_intCast, mul_zero, if_pos zero_lt_one, Int.floor_intCast]

theorem abs_nearestEven_sub_le (x : R) : |(nearestEven x : R) - x| ≤ 1 / 2 := by
  have hfract := Int.self_sub_floor x
  have hlo := Int.fract_nonneg x
  have hhi := Int.fract_lt_one x
  unfold nearestEven
  rw [abs_le]
  split
  · constructor <;> linarith
  · split
    · rw [Int.cast_add, Int.cast_one]
      constructor <;> linarith
    · split
      · constructor <;> linarith
      · rw [Int.cast_add, Int.cast_one]
        constructor <;> linarith

/-! ### To a number of bits -/

/-- The unit in the last place of a number with `p` significant bits. -/
def ulp (p : ℕ) (x : R) : R := 2 ^ (Int.log 2 x - (p - 1))

/-- The nearest number with `p` significant bits. -/
def roundBits (p : ℕ) (x : R) : R := nearestEven (x / ulp p x) * ulp p x

theorem ulp_pos (p : ℕ) (x : R) : 0 < ulp p x := zpow_pos zero_lt_two _

/-- Half a unit in the last place is at most `2 ^ -p` of the number. -/
theorem ulp_le (p : ℕ) {x : R} (hx : 0 < x) : ulp p x / 2 ≤ 2 ^ (-p : ℤ) * x := by
  have hlog : (2 : R) ^ Int.log 2 x ≤ x := by
    exact_mod_cast Int.zpow_log_le_self one_lt_two hx
  have hsplit : ulp p x / 2 = 2 ^ (-p : ℤ) * 2 ^ Int.log 2 x := by
    have hexponent : Int.log 2 x - ((p : ℤ) - 1) = -p + Int.log 2 x + 1 := by ring
    unfold ulp
    rw [hexponent, zpow_add_one₀ two_ne_zero, zpow_add₀ two_ne_zero]
    ring
  rw [hsplit]
  exact mul_le_mul_of_nonneg_left hlog (zpow_nonneg zero_le_two _)

theorem abs_roundBits_sub_le (p : ℕ) {x : R} (hx : 0 < x) :
    |roundBits p x - x| ≤ 2 ^ (-p : ℤ) * x := by
  have hulp := ulp_pos p x
  have hfactor : roundBits p x - x = (nearestEven (x / ulp p x) - x / ulp p x) * ulp p x := by
    unfold roundBits
    field_simp
  calc |roundBits p x - x|
      = |(nearestEven (x / ulp p x) : R) - x / ulp p x| * ulp p x := by
        rw [hfactor, abs_mul, abs_of_pos hulp]
    _ ≤ 1 / 2 * ulp p x :=
        mul_le_mul_of_nonneg_right (abs_nearestEven_sub_le _) hulp.le
    _ = ulp p x / 2 := by ring
    _ ≤ 2 ^ (-p : ℤ) * x := ulp_le p hx

/-- An integer of at most `p` bits is a number with `p` significant bits. -/
theorem roundBits_natCast {p n : ℕ} (h : n < 2 ^ p) : roundBits p (n : R) = n := by
  cases Nat.eq_zero_or_pos n with
  | inl hzero =>
    subst hzero
    unfold roundBits
    rw [Nat.cast_zero, zero_div]
    have hnearest : nearestEven (0 : R) = 0 := by exact_mod_cast nearestEven_intCast (R := R) 0
    rw [hnearest, Int.cast_zero, zero_mul]
  | inr hpos =>
    have hlog : Nat.log 2 n < p := Nat.log_lt_of_lt_pow hpos.ne' h
    -- The unit in the last place is `2 ^ -k`, so it divides the integer.
    obtain ⟨k, hk⟩ := Nat.exists_eq_add_of_lt hlog
    have hulp : ulp p (n : R) = (2 ^ k)⁻¹ := by
      have hexponent : (Nat.log 2 n : ℤ) - ((p : ℤ) - 1) = -(k : ℤ) := by omega
      unfold ulp
      rw [Int.log_natCast, hexponent, zpow_neg, zpow_natCast]
    have hquotient : (n : R) / ulp p (n : R) = ((n * 2 ^ k : ℤ) : R) := by
      rw [hulp, div_inv_eq_mul]
      push_cast
      rfl
    unfold roundBits
    rw [hquotient, nearestEven_intCast, ← hquotient, div_mul_cancel₀ _ (ulp_pos p _).ne']

/-! ### Quotients -/

/-- The ceiling of a number between two integers. -/
theorem ceil_eq_add_one {x : R} {n : ℕ} (hlo : (n : R) < x) (hhi : x ≤ n + 1) :
    ⌈x⌉ = n + 1 := by
  rw [Int.ceil_eq_iff, Int.cast_add, Int.cast_one, Int.cast_natCast]
  constructor <;> linarith

/-- A rounding of the quotients `w / d` with `w` below `2 ^ p`: it has a
relative error of at most `2 ^ -p`, and none when `d` divides `w`. -/
structure RoundsRatio (p d : ℕ) (round : ℕ → R) : Prop where
  error : ∀ w, w < 2 ^ p → |round w - w / d| ≤ 2 ^ (-p : ℤ) * (w / d)
  exact : ∀ k, d * k < 2 ^ p → round (d * k) = k

/-- Rounding to `p` bits is one. -/
theorem roundsRatio_roundBits {p d : ℕ} (hd : 0 < d) :
    RoundsRatio p d fun w => roundBits p ((w : R) / d) where
  error w _ := by
    cases Nat.eq_zero_or_pos w with
    | inl hzero =>
      have hround := roundBits_natCast (R := R) (p := p) (n := 0) (Nat.two_pow_pos p)
      rw [Nat.cast_zero] at hround
      subst hzero
      simp [hround]
    | inr hpos =>
      apply abs_roundBits_sub_le
      have : (0 : R) < w := Nat.cast_pos.mpr hpos
      have : (0 : R) < d := Nat.cast_pos.mpr hd
      positivity
  exact k hk := by
    have hd' : (d : R) ≠ 0 := (Nat.cast_pos.mpr hd).ne'
    have hquotient : ((d * k : ℕ) : R) / d = k := by
      push_cast
      field_simp
    have hle : k ≤ d * k := Nat.le_mul_of_pos_left k hd
    rw [hquotient]
    exact roundBits_natCast (lt_of_le_of_lt hle hk)

namespace RoundsRatio

variable {p d : ℕ} {round : ℕ → R}

/-- The ceiling of the rounded quotient is that of the quotient. -/
theorem ceil_eq (h : RoundsRatio p d round) (hd : 0 < d) {w : ℕ} (hw : w < 2 ^ p) :
    ⌈round w⌉ = ⌈(w : R) / d⌉ := by
  have hd' : (0 : R) < d := Nat.cast_pos.mpr hd
  by_cases hdvd : d ∣ w
  · obtain ⟨k, rfl⟩ := hdvd
    rw [h.exact k hw]
    congr 1
    push_cast
    field_simp
  · -- The error is below `1 / d`, and the quotient is that far from both integers around it.
    have herror := abs_le.mp (h.error w hw)
    have hsmall : (2 : R) ^ (-p : ℤ) * (w / d) < 1 / d := by
      have hw' : (w : R) < 2 ^ p := by exact_mod_cast hw
      rw [zpow_neg, zpow_natCast, ← mul_div_assoc]
      apply div_lt_div_of_pos_right _ hd'
      rw [inv_mul_lt_iff₀ (by positivity), mul_one]
      exact hw'
    have hdivide : (d : R) * (w / d : ℕ) + (w % d : ℕ) = w := by
      exact_mod_cast Nat.div_add_mod w d
    have hlo : (1 : R) ≤ (w % d : ℕ) := by
      exact_mod_cast Nat.one_le_iff_ne_zero.mpr fun hzero => hdvd (Nat.dvd_of_mod_eq_zero hzero)
    have hhi : ((w % d : ℕ) : R) + 1 ≤ d := by exact_mod_cast Nat.mod_lt w hd
    have hfloor : ((w / d : ℕ) : R) + 1 / d ≤ w / d := by
      rw [← sub_nonneg]
      have : (w : R) / d - ((w / d : ℕ) + 1 / d) = ((w % d : ℕ) - 1) / d := by
        rw [← hdivide]
        field_simp
        ring
      rw [this]
      exact div_nonneg (sub_nonneg.mpr hlo) hd'.le
    have hceil : (w : R) / d + 1 / d ≤ (w / d : ℕ) + 1 := by
      rw [← sub_nonneg]
      have : ((w / d : ℕ) : R) + 1 - (w / d + 1 / d) = (d - ((w % d : ℕ) + 1)) / d := by
        rw [← hdivide]
        field_simp
        ring
      rw [this]
      exact div_nonneg (sub_nonneg.mpr hhi) hd'.le
    have hinv : (0 : R) < 1 / d := by positivity
    -- Both numbers lie between the same two integers.
    have hround : ⌈round w⌉ = (w / d : ℕ) + 1 :=
      ceil_eq_add_one (by linarith) (by linarith)
    have hquotient : ⌈(w : R) / d⌉ = (w / d : ℕ) + 1 :=
      ceil_eq_add_one (by linarith) (by linarith)
    rw [hround, hquotient]

end RoundsRatio

end Rounding
