import MizanConnect.Lib.FormUrlencoded
import MizanConnect.Snaptrade.Handlers
import MizanConnect.Snaptrade.SignedRequest

/-!
# `MizanConnect.Proofs.Snaptrade.QueryString`: what a signed query says

`build_query_string` is a serializer of `application/x-www-form-urlencoded`
(`buildQueryString_eq`), so SnapTrade reads every parameter as the handler has
written it, whatever a user puts into a date or SnapTrade into a secret.
-/

set_option autoImplicit false

namespace MizanConnect.Proofs.Snaptrade.QueryString

open MizanConnect.Snaptrade
open MizanConnect.Snaptrade.SignedRequest
open FormUrlencoded (KeepSet parse)

/-- The bytes that `byte_serialize` leaves alone. -/
def kept : KeepSet where
  keep b := decide (b < 0x80 ∧
    ((Char.ofNat b.toNat).isAlphanum ∨ Char.ofNat b.toNat ∈ ['*', '-', '.', '_']))
  ascii b h := (of_decide_eq_true h).1
  notReserved b h := by
    obtain ⟨-, hkept⟩ := of_decide_eq_true h
    -- none of the four is a letter, a digit or one of the marks
    intro hreserved
    simp only [List.mem_cons, List.not_mem_nil, or_false] at hreserved
    obtain hc | hc | hc | hc := hreserved <;> rw [hc] at hkept <;> exact absurd hkept (by decide)

theorem byteSerialize_eq (bytes : List UInt8) :
    byteSerialize bytes = FormUrlencoded.encodeBytes kept bytes := by
  refine List.flatMap_congr ?_
  intro b _
  simp only [FormUrlencoded.encodeByte, kept, decide_eq_true_eq]

theorem serializePair_eq (pair : List Char × List Char) :
    serializePair pair = FormUrlencoded.encodePair kept pair := by
  rw [serializePair, FormUrlencoded.encodePair, byteSerialize_eq, byteSerialize_eq]

/-- The loop puts an `&` in front of every pair but the first. -/
theorem buildQueryString_eq (params : List (List Char × List Char)) :
    buildQueryString params = FormUrlencoded.serialize kept params := by
  induction params using buildQueryString.induct with
  | case1 => rfl
  | case2 pair => exact (serializePair_eq pair).trans (by simp [FormUrlencoded.serialize])
  | case3 pair pairs hne ih =>
    rw [buildQueryString.eq_3 pair pairs hne, ih, serializePair_eq]
    cases pairs with
    | nil => exact absurd rfl hne
    | cons next rest => simp [FormUrlencoded.serialize, List.intercalate_cons_cons]

theorem parse_buildQueryString {params : List (List Char × List Char)} (hne : params ≠ []) :
    parse (buildQueryString params) = params := by
  rw [buildQueryString_eq]
  exact FormUrlencoded.parse_serialize hne

/-- What `send_signed` puts behind the parameters of a method. -/
def appended (client : SnaptradeClient) (timestamp : Nat) : List (List Char × List Char) :=
  [("clientId".toList, client.clientId), ("timestamp".toList, (toString timestamp).toList)]

/-- A signed query says what the caller has passed, and then the client and the
time. -/
theorem parse_signedQuery (client : SnaptradeClient) (timestamp : Nat) (method : Method)
    (path : List Char) (params : List (List Char × List Char)) :
    parse (sendSigned client timestamp method path params).signedQuery =
      params ++ appended client timestamp :=
  parse_buildQueryString (by simp)

/-- The pairs of a handler as the client gets them. -/
def ofStrings (params : List (String × String)) : List (List Char × List Char) :=
  params.map fun pair => (pair.1.toList, pair.2.toList)

/-- Parsing gives back the pairs, so two lists with a pair in them have
different queries; and the query of `account_activities` names the secret and
the dates once each, as they are. -/
theorem query_round_trip :
    (∀ params : List (List Char × List Char), params ≠ [] →
      parse (buildQueryString params) = params) ∧
    (∀ params params' : List (List Char × List Char), params ≠ [] → params' ≠ [] →
      buildQueryString params = buildQueryString params' → params = params') ∧
    ∀ (client : SnaptradeClient) (timestamp : Nat) (userId userSecret id : List Char)
      (q : ActivitiesQuery),
      parse (SignedRequest.accountActivities (ofStrings q.params) client timestamp userId userSecret
          id).signedQuery =
        credentials userId userSecret ++ ofStrings q.params ++ appended client timestamp := by
  refine ⟨fun params hne => parse_buildQueryString hne, ?_, ?_⟩
  · intro params params' hne hne' heq
    rw [← parse_buildQueryString hne, heq, parse_buildQueryString hne']
  · intro client timestamp userId userSecret id q
    exact parse_signedQuery client timestamp .get _ _

/-- A value with every separator in it. -/
theorem query_round_trip_separators :
    parse (buildQueryString [("a".toList, "1&b=2".toList), ("b".toList, "100% + two".toList)]) =
      [("a".toList, "1&b=2".toList), ("b".toList, "100% + two".toList)] :=
  query_round_trip.1 _ (by decide)

end MizanConnect.Proofs.Snaptrade.QueryString
