import MizanConnect.Types

/-!
# `MizanConnect.Billing.StripeClient`: webhook signature verification

The verification half of `src/billing/stripe_client.rs`. HMAC-SHA256 is a
parameter: `hmac secret message` is the tag.
-/

set_option autoImplicit false

namespace MizanConnect.Billing

/-- A byte string. -/
abbrev Bytes := List UInt8

/-- `str::as_bytes`. -/
def asBytes (s : String) : Bytes := s.toUTF8.data.toList

/-- Wrapping `i64` arithmetic: the value a release build keeps. -/
def wrapI64 (x : Int) : Int := Int.bmod x (2 ^ 64)

/-- `str::parse::<i64>`: an optional sign, then at least one decimal digit,
in range. -/
def parseI64 (s : String) : Option Int :=
  let (negative, digits) :=
    match s.toList with
    | '-' :: rest => (true, rest)
    | '+' :: rest => (false, rest)
    | rest => (false, rest)
  if digits.isEmpty ∨ ¬ digits.all Char.isDigit then none
  else
    let n : Int := digits.foldl (fun acc c => acc * 10 + (c.toNat - '0'.toNat)) 0
    let n := if negative then -n else n
    if -9223372036854775808 ≤ n ∧ n ≤ 9223372036854775807 then some n else none

/-- The value of one hexadecimal digit, either case. -/
def hexDigit (c : Char) : Option Nat :=
  if '0' ≤ c ∧ c ≤ '9' then some (c.toNat - '0'.toNat)
  else if 'a' ≤ c ∧ c ≤ 'f' then some (c.toNat - 'a'.toNat + 10)
  else if 'A' ≤ c ∧ c ≤ 'F' then some (c.toNat - 'A'.toNat + 10)
  else none

/-- `hex::decode`. -/
def hexDecode : List Char → Option Bytes
  | [] => some []
  | hi :: lo :: rest => do
    let h ← hexDigit hi
    let l ← hexDigit lo
    let bytes ← hexDecode rest
    return UInt8.ofNat (16 * h + l) :: bytes
  | [_] => none

/-- `subtle_eq`: the accumulated difference, then the borrow bit. -/
def subtleEq (a b : Bytes) : Bool :=
  if a.length ≠ b.length then false
  else
    let diff := (a.zip b).foldl (fun diff xy => diff ||| (xy.1 ^^^ xy.2)) (0 : UInt8)
    ((diff.toUInt16 - 1) >>> 8).toUInt8 &&& 1 == 1

/-- `StripeError::Signature`. -/
structure SignatureError where
  reason : String
deriving DecidableEq, Repr

/-- The `(key, value)` of a header part: `splitn(2, '=')`. -/
def splitPart (part : String) : Option (String × String) :=
  match part.toList.span (· ≠ '=') with
  | (key, _ :: value) => some (String.ofList key, String.ofList value)
  | (_, []) => none

/-- The `t=` and `v1=` values that the loop over the header collects. -/
def parseSignatureHeader (header : String) : Option Int × List String :=
  (splitOnChar ',' header).foldl (fun (acc : Option Int × List String) part =>
    match splitPart part with
    | some ("t", v) => (parseI64 (trim v), acc.2)
    | some ("v1", v) => (acc.1, acc.2 ++ [trim v])
    | _ => acc) (none, [])

/-- `StripeClient::verify_webhook`. -/
def verifyWebhook (hmac : String → Bytes → Bytes) (whsec signatureHeader : String)
    (body : Bytes) (nowUnix : Int) : Except SignatureError Int :=
  match parseSignatureHeader signatureHeader with
  | (none, _) => .error ⟨"missing timestamp"⟩
  | (some ts, sigs) =>
    if sigs.isEmpty then .error ⟨"missing v1 signature"⟩
    else if wrapI64 (wrapI64 (nowUnix - ts)).natAbs > 300 then
      .error ⟨"timestamp outside tolerance"⟩
    else
      let expected := hmac whsec (asBytes (toString ts ++ ".") ++ body)
      if sigs.any fun sigHex =>
          match hexDecode sigHex.toList with
          | some bytes => subtleEq expected bytes
          | none => false then .ok ts
      else .error ⟨"no matching signature"⟩

end MizanConnect.Billing
