import MizanConnect.Billing.StripeClient
import Mathlib.Data.List.Induction
import Mathlib.Tactic.NormNum

/-!
# `MizanConnect.Proofs.Billing.WebhookSignature`: which signatures are accepted

`verify_webhook` accepts a header that is signed (`Signed`) and whose timestamp
passes the tolerance test. The test is computed in wrapping `i64` arithmetic:
the difference of two instants may wrap, and `i64::MIN.abs()` is negative.
`within_tolerance_iff` has the pairs of instants that pass, `verify_webhook_iff`
the headers that are accepted although their timestamp is too far away.
-/

set_option autoImplicit false

namespace MizanConnect.Proofs.Billing.WebhookSignature

open MizanConnect.Billing

/-! ### The header -/

/-- The value of a header part with this key. -/
def valueOf (key part : String) : Option String :=
  (splitPart part).bind fun kv => if kv.1 = key then some kv.2 else none

/-- The last `t` part of the header holds the timestamp `ts`. -/
def LastTimestamp (header : String) (ts : Int) : Prop :=
  ((splitOnChar ',' header).filterMap (valueOf "t")).getLast?.bind (fun v => parseI64 (trim v))
    = some ts

/-- A `v1` part of the header holds the signature `sig`. -/
def HasSignature (header sig : String) : Prop :=
  ∃ part ∈ splitOnChar ',' header, ∃ v, valueOf "v1" part = some v ∧ trim v = sig

/-- The header is signed with the timestamp `ts`. -/
def Signed (hmac : String → Bytes → Bytes) (whsec header : String) (body : Bytes) (ts : Int) :
    Prop :=
  LastTimestamp header ts ∧
    ∃ sig, HasSignature header sig ∧
      hexDecode sig.toList = some (hmac whsec (asBytes (toString ts ++ ".") ++ body))

/-- One turn of the loop over the header: a `t` part replaces the timestamp, a
`v1` part adds a signature, every other part is passed over. -/
def headerStep (acc : Option Int × List String) (part : String) : Option Int × List String :=
  match splitPart part with
  | some ("t", v) => (parseI64 (trim v), acc.2)
  | some ("v1", v) => (acc.1, acc.2 ++ [trim v])
  | _ => acc

/-- The two halves of a turn, each by its own key. -/
theorem headerStep_eq (acc : Option Int × List String) (part : String) :
    headerStep acc part =
      (((valueOf "t" part).map fun v => parseI64 (trim v)).getD acc.1,
        acc.2 ++ ((valueOf "v1" part).map trim).toList) := by
  unfold headerStep valueOf
  split
  · rename_i v hpart
    simp [hpart]
  · rename_i v hpart
    simp [hpart]
  -- The catch-all arm: another key, or a part without `=`.
  · rename_i ht hv1
    cases hpart : splitPart part with
    | none => simp
    | some kv =>
      obtain ⟨key, v⟩ := kv
      have hkeyT : key ≠ "t" := fun h => ht v (by rw [hpart, h])
      have hkeyV1 : key ≠ "v1" := fun h => hv1 v (by rw [hpart, h])
      simp [hkeyT, hkeyV1]

/-- The loop ends with the last timestamp. The induction takes the parts from
the end. -/
theorem parseSignatureHeader_fst (header : String) (ts : Int) :
    (parseSignatureHeader header).1 = some ts ↔ LastTimestamp header ts := by
  show ((splitOnChar ',' header).foldl headerStep (none, [])).1 = some ts ↔ _
  unfold LastTimestamp
  generalize splitOnChar ',' header = parts
  induction parts using List.reverseRecOn with
  | nil => simp
  | append_singleton parts last ih =>
    rw [List.foldl_append, List.foldl_cons, List.foldl_nil, headerStep_eq,
      List.filterMap_append]
    -- A `t` part at the end decides, whatever was parsed before it.
    cases hlast : valueOf "t" last with
    | none => simpa [hlast] using ih
    | some v => simp [hlast]

/-- The loop collects the signatures. -/
theorem mem_parseSignatureHeader (header sig : String) :
    sig ∈ (parseSignatureHeader header).2 ↔ HasSignature header sig := by
  show sig ∈ ((splitOnChar ',' header).foldl headerStep (none, [])).2 ↔ _
  unfold HasSignature
  generalize splitOnChar ',' header = parts
  induction parts using List.reverseRecOn with
  | nil => simp
  | append_singleton parts last ih =>
    rw [List.foldl_append, List.foldl_cons, List.foldl_nil, headerStep_eq]
    cases hlast : valueOf "v1" last with
    | none => simp [hlast, ih, or_and_right, exists_or]
    | some v => simp [hlast, ih, or_and_right, exists_or, eq_comm]

/-! ### The comparison -/

/-- The accumulated difference is zero when no byte differs. -/
theorem foldl_diff_eq_zero (pairs : List (UInt8 × UInt8)) (acc : UInt8) :
    pairs.foldl (fun diff xy => diff ||| (xy.1 ^^^ xy.2)) acc = 0 ↔
      acc = 0 ∧ ∀ xy ∈ pairs, xy.1 = xy.2 := by
  induction pairs generalizing acc with
  | nil => simp
  | cons xy pairs ih =>
    rw [List.foldl_cons, ih, UInt8.or_eq_zero_iff, UInt8.xor_eq_zero_iff]
    simp [and_assoc]

/-- The borrow of `diff - 1` is set for `diff = 0` only. -/
theorem borrow_eq_one (diff : UInt8) :
    (((diff.toUInt16 - 1) >>> 8).toUInt8 &&& 1 == 1) = true ↔ diff = 0 := by
  -- A byte has 256 values.
  have hall : ∀ n : Fin 256, ((((UInt8.ofFin n).toUInt16 - 1) >>> 8).toUInt8 &&& 1 == 1) = true ↔
      UInt8.ofFin n = 0 := by
    decide +kernel
  exact hall diff.toFin

/-- `subtle_eq` is equality. -/
theorem subtleEq_iff (a b : Bytes) : subtleEq a b = true ↔ a = b := by
  unfold subtleEq
  by_cases hlength : a.length = b.length
  · rw [if_neg (not_not_intro hlength)]
    dsimp only
    -- The fold ORs the differences of the bytes, pair by pair.
    rw [borrow_eq_one, foldl_diff_eq_zero]
    constructor
    · intro ⟨_, hpairs⟩
      apply List.ext_getElem hlength
      intro i ha hb
      have hi : i < (a.zip b).length := by
        rw [List.length_zip]
        omega
      exact hpairs (a[i], b[i]) (List.mem_iff_getElem.mpr ⟨i, hi, by simp⟩)
    · rintro rfl
      refine ⟨rfl, ?_⟩
      intro xy hxy
      obtain ⟨i, hi, rfl⟩ := List.mem_iff_getElem.mp hxy
      simp
  -- Different lengths are refused before any byte is compared.
  · rw [if_pos hlength]
    constructor
    · exact fun h => nomatch h
    · exact fun h => absurd (congrArg List.length h) hlength

/-! ### The tolerance -/

/-- The wrapped value of a difference of two `i64`s. -/
theorem wrapI64_cases {x : Int} (hlo : -18446744073709551616 < x)
    (hhi : x < 18446744073709551616) :
    wrapI64 x =
      if x < -9223372036854775808 then x + 18446744073709551616
      else if 9223372036854775808 ≤ x then x - 18446744073709551616
      else x := by
  unfold wrapI64
  rw [Int.bmod_def]
  norm_num only
  split <;> split <;> omega

/-- The instants that pass the tolerance test: those at most 300 seconds apart,
those whose difference wraps to at most 300 seconds, and those whose difference
wraps to `i64::MIN`. -/
theorem within_tolerance_iff (now ts : Int64) :
    ¬ wrapI64 (wrapI64 (now.toInt - ts.toInt)).natAbs > 300 ↔
      (now.toInt - ts.toInt).natAbs ≤ 300 ∨ (now.toInt - ts.toInt).natAbs = 2 ^ 63 ∨
        2 ^ 64 - 300 ≤ (now.toInt - ts.toInt).natAbs := by
  have hnow := now.toInt_lt
  have hnow' := now.le_toInt
  have hts := ts.toInt_lt
  have hts' := ts.le_toInt
  generalize now.toInt = n at *
  generalize ts.toInt = t at *
  have hdiff := wrapI64_cases (x := n - t) (by omega) (by omega)
  rw [hdiff]
  -- Three cases for the difference; in each, its absolute value may still be
  -- `i64::MIN.abs()`.
  split
  · rw [wrapI64_cases (by omega) (by omega)]
    split <;> omega
  · split
    · rw [wrapI64_cases (by omega) (by omega)]
      split <;> omega
    · rw [wrapI64_cases (by omega) (by omega)]
      split <;> omega

/-! ### The whole check -/

/-- Some signature decodes to the expected tag. -/
theorem any_subtleEq (sigs : List String) (expected : Bytes) :
    (sigs.any fun sigHex =>
      match hexDecode sigHex.toList with
      | some bytes => subtleEq expected bytes
      | none => false) = true ↔ ∃ sig ∈ sigs, hexDecode sig.toList = some expected := by
  rw [List.any_eq_true]
  have hone : ∀ sig : String,
      (match hexDecode sig.toList with
        | some bytes => subtleEq expected bytes
        | none => false) = true ↔ hexDecode sig.toList = some expected := by
    intro sig
    cases hexDecode sig.toList with
    | none => simp
    | some bytes =>
      dsimp only
      rw [subtleEq_iff, Option.some_inj, eq_comm]
  simp only [hone]

/-- `verify_webhook` accepts what is signed and passes the tolerance test. -/
theorem verifyWebhook_eq_ok (hmac : String → Bytes → Bytes) (whsec header : String)
    (body : Bytes) (now ts : Int) :
    verifyWebhook hmac whsec header body now = .ok ts ↔
      Signed hmac whsec header body ts ∧ ¬ wrapI64 (wrapI64 (now - ts)).natAbs > 300 := by
  unfold verifyWebhook Signed
  rw [← parseSignatureHeader_fst]
  simp only [← mem_parseSignatureHeader]
  generalize parseSignatureHeader header = parsed
  obtain ⟨stamp, sigs⟩ := parsed
  cases stamp with
  | none => simp
  | some found =>
    dsimp only
    cases sigs with
    | nil => simp
    | cons sig sigs =>
      rw [if_neg (by simp)]
      -- The result is the timestamp of the header and never another one.
      by_cases hfound : found = ts
      · subst hfound
        split
        · rename_i hfar
          exact ⟨fun h => (nomatch h), fun h => absurd hfar h.2⟩
        · rename_i hnear
          split
          · rename_i hsigned
            exact ⟨fun _ => ⟨⟨rfl, (any_subtleEq _ _).mp hsigned⟩, hnear⟩, fun _ => rfl⟩
          · rename_i hunsigned
            exact ⟨fun h => (nomatch h), fun h =>
              absurd ((any_subtleEq _ _).mpr h.1.2) hunsigned⟩
      · constructor
        · intro h
          split at h
          · exact nomatch h
          · split at h
            · exact absurd (Except.ok.inj h) hfound
            · exact nomatch h
        · intro h
          exact absurd (Option.some.inj h.1.1) hfound

/-- The pairs of instants that are more than 300 seconds apart and pass the
tolerance test nevertheless. -/
def WrapsAround (now ts : Int) : Prop :=
  (now - ts).natAbs = 2 ^ 63 ∨ 2 ^ 64 - 300 ≤ (now - ts).natAbs

/-- `verify_webhook` accepts `ts` exactly when the header is signed with it and
it is at most 300 seconds away, unless the header is signed with a `ts` so far
away that the test wraps around; then it accepts what it should refuse.
`subtle_eq` is equality on all slices. -/
theorem verify_webhook_iff (hmac : String → Bytes → Bytes) (whsec header : String) (body : Bytes)
    (now ts : Int64) :
    ((verifyWebhook hmac whsec header body now.toInt = .ok ts.toInt ↔
        Signed hmac whsec header body ts.toInt ∧ (now.toInt - ts.toInt).natAbs ≤ 300) ↔
      ¬ (Signed hmac whsec header body ts.toInt ∧ WrapsAround now.toInt ts.toInt)) ∧
    ∀ a b : Bytes, subtleEq a b = true ↔ a = b := by
  refine ⟨?_, subtleEq_iff⟩
  rw [verifyWebhook_eq_ok, within_tolerance_iff]
  unfold WrapsAround
  by_cases hsigned : Signed hmac whsec header body ts.toInt
  · simp only [hsigned, true_and]
    omega
  · simp [hsigned]

/-- A header that was signed 2^63 seconds ago, with the tag `00`. -/
def ancient : String := "t=-9223372036854775808,v1=00"

/-- It is accepted at the epoch. -/
theorem ancient_accepted :
    ¬ (verifyWebhook (fun _ _ => [0]) "whsec" ancient [] (0 : Int64).toInt
          = .ok (Int64.minValue).toInt ↔
        Signed (fun _ _ => [0]) "whsec" ancient [] (Int64.minValue).toInt ∧
          ((0 : Int64).toInt - (Int64.minValue).toInt).natAbs ≤ 300) := by
  intro h
  have hnow : (0 : Int64).toInt = 0 := by decide
  have hts : (Int64.minValue).toInt = -9223372036854775808 := by decide
  rw [hnow, hts] at h
  have haccepted : verifyWebhook (fun _ _ => [0]) "whsec" ancient [] 0
      = .ok (-9223372036854775808) := by
    decide +kernel
  have hfar := (h.mp haccepted).2
  exact absurd hfar (by decide)

end MizanConnect.Proofs.Billing.WebhookSignature
