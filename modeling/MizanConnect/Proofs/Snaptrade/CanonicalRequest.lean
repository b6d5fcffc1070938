import MizanConnect.Snaptrade.Signing

/-!
# `MizanConnect.Proofs.Snaptrade.CanonicalRequest`: a signature is for one request

The signed text is the text of one JSON object, and `render_injective` says
that it has no other reading: no quote, backslash or brace in the path, the
query or the body makes it that of another request. Only a body that is absent,
`null` or `{}` leaves no trace.
-/

set_option autoImplicit false

namespace MizanConnect.Proofs.Snaptrade.CanonicalRequest

open MizanConnect.Snaptrade.Signing
open MizanConnect.Snaptrade.SignedRequest (SnaptradeClient Method)
open Json (render renderString)

/-- No body, or one that says nothing. -/
def Blank : Option Value → Prop
  | none => True
  | some v => v.1 = .null ∨ v.1 = .obj []

/-- The same body, or none that says anything. -/
def SameBody (body body' : Option Value) : Prop := body = body' ∨ (Blank body ∧ Blank body')

theorem content_of_blank {input : SignInput} (h : Blank input.body) : input.content = .null := by
  obtain ⟨path, query, body⟩ := input
  cases body with
  | none => rfl
  | some v =>
    obtain ⟨v, hv⟩ := v
    obtain rfl | rfl : v = .null ∨ v = .obj [] := h
    · rfl
    · rfl

/-- A body that says something is the content. -/
theorem content_of_not_blank {input : SignInput} (h : ¬ Blank input.body) :
    ∃ v : Value, input.body = some v ∧ input.content = v.1 ∧ v.1 ≠ .null := by
  obtain ⟨path, query, body⟩ := input
  cases body with
  | none => exact absurd trivial h
  | some v =>
    obtain ⟨v, hv⟩ := v
    have hnull : v ≠ .null := fun hnull => h (Or.inl hnull)
    have hempty : v ≠ .obj [] := fun hempty => h (Or.inr hempty)
    refine ⟨⟨v, hv⟩, rfl, ?_, hnull⟩
    cases v with
    | null => exact absurd rfl hnull
    | obj fields =>
      cases fields with
      | nil => exact absurd rfl hempty
      | cons field fields => rfl
    | bool b => rfl
    | num literal => rfl
    | str s => rfl
    | arr items => rfl

theorem content_wellFormed (input : SignInput) : input.content.WellFormed := by
  by_cases hblank : Blank input.body
  · rw [content_of_blank hblank]
    exact .null
  · obtain ⟨v, -, hcontent, -⟩ := content_of_not_blank hblank
    rw [hcontent]
    exact v.2

/-- The contents agree if and only if the bodies do. -/
theorem content_eq_iff {a b : SignInput} : a.content = b.content ↔ SameBody a.body b.body := by
  constructor
  · intro h
    by_cases ha : Blank a.body
    · by_cases hb : Blank b.body
      · exact Or.inr ⟨ha, hb⟩
      · obtain ⟨v, -, hcontent, hnull⟩ := content_of_not_blank hb
        rw [content_of_blank ha, hcontent] at h
        exact absurd h.symm hnull
    · obtain ⟨v, hbody, hcontent, hnull⟩ := content_of_not_blank ha
      by_cases hb : Blank b.body
      · rw [hcontent, content_of_blank hb] at h
        exact absurd h hnull
      · obtain ⟨w, hbody', hcontent', -⟩ := content_of_not_blank hb
        rw [hcontent, hcontent'] at h
        rw [hbody, hbody', Subtype.ext h]
        exact Or.inl rfl
  · rintro (hbody | ⟨ha, hb⟩)
    · rw [SignInput.content, SignInput.content, hbody]
    · rw [content_of_blank ha, content_of_blank hb]

/-- What is signed is a value. -/
theorem canonical_wellFormed (input : SignInput) : input.canonical.WellFormed := by
  have hpath : (Json.obj (Json.insert "path" (.str input.path)
      (Json.insert "content" input.content []))).WellFormed :=
    .insert (.str input.path) (.insert (content_wellFormed input) .empty)
  exact .insert (.str input.query) hpath

/-- Two signed texts agree if and only if the requests do. -/
theorem canonicalRequestJson_eq_iff {a b : SignInput} :
    canonicalRequestJson a = canonicalRequestJson b ↔
      a.path = b.path ∧ a.query = b.query ∧ SameBody a.body b.body := by
  constructor
  · intro h
    have hobject := Json.render_injective (canonical_wellFormed a) (canonical_wellFormed b) h
    rw [SignInput.canonical_eq, SignInput.canonical_eq] at hobject
    simp only [Json.obj.injEq, List.cons.injEq, Prod.mk.injEq, Json.str.injEq, true_and,
      and_true] at hobject
    obtain ⟨hcontent, hpath, hquery⟩ := hobject
    exact ⟨hpath, hquery, content_eq_iff.mp hcontent⟩
  · rintro ⟨hpath, hquery, hbody⟩
    rw [canonicalRequestJson, canonicalRequestJson, SignInput.canonical_eq,
      SignInput.canonical_eq, content_eq_iff.mpr hbody, hpath, hquery]

/-- The signed text around the text of its content. -/
theorem canonicalRequestJson_eq (input : SignInput) : canonicalRequestJson input =
    "\x7b\"content\":".toList ++ input.content.render ++ ",\"path\":".toList ++
      renderString input.path ++ ",\"query\":".toList ++ renderString input.query ++
      "\x7d".toList := by
  rw [canonicalRequestJson, SignInput.canonical_eq]
  simp [render, Json.renderFields, PrefixCode.body, PrefixCode.tail, renderString,
    Json.escapeChar]

/-- The signed text is that of one request, and the body that is sent is in it
as it is. -/
theorem canonical_request_injective :
    (∀ a b : SignInput, canonicalRequestJson a = canonicalRequestJson b ↔
      a.path = b.path ∧ a.query = b.query ∧ SameBody a.body b.body) ∧
    ∀ (client : SnaptradeClient) (timestamp : Nat) (method : Method) (path : List Char)
      (params : List (List Char × List Char)) (v : Value), ¬ Blank (some v) →
      ∃ (out : OutgoingJson) (text : List Char),
        out = sendSignedJson client timestamp method path params (some v) ∧
        out.sentBody = some text ∧
        canonicalRequestJson out.signInput =
          "\x7b\"content\":".toList ++ text ++ ",\"path\":".toList ++
            renderString out.signInput.path ++ ",\"query\":".toList ++
            renderString out.signInput.query ++ "\x7d".toList := by
  refine ⟨fun a b => canonicalRequestJson_eq_iff, ?_⟩
  intro client timestamp method path params v hv
  refine ⟨_, v.1.render, rfl, rfl, ?_⟩
  have hsigned :
      ¬ Blank (sendSignedJson client timestamp method path params (some v)).signInput.body := hv
  obtain ⟨w, hbody, hcontent, -⟩ := content_of_not_blank hsigned
  cases hbody
  rw [canonicalRequestJson_eq, hcontent]

/-- An empty object is signed like no body, and a path cannot play the query. -/
theorem canonical_request_injective_quotes :
    canonicalRequestJson ⟨"/x", "", none⟩ =
        canonicalRequestJson ⟨"/x", "", some ⟨.obj [], .obj _ .nil (by simp)⟩⟩ ∧
      canonicalRequestJson ⟨"/x\",\"query\":\"a=1", "", none⟩ ≠
        canonicalRequestJson ⟨"/x", "a=1", none⟩ := by
  refine ⟨(canonical_request_injective.1 _ _).mpr ⟨rfl, rfl, Or.inr ⟨trivial, Or.inr rfl⟩⟩, ?_⟩
  intro h
  exact absurd ((canonical_request_injective.1 _ _).mp h).1 (by decide)

end MizanConnect.Proofs.Snaptrade.CanonicalRequest
