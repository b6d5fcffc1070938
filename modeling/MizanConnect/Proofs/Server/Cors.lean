import MizanConnect.Server
import Mathlib.Data.List.Induction

/-!
# `MizanConnect.Proofs.Server.Cors`: which origins the layer lets in

`build_cors` folds `allow_origin` over the allowlist, and each call replaces
the value that the one before it set. So the layer knows the last origin only
(`origin_buildCors`), and sends it whatever the request. `honoured_iff` says
when that is right.
-/

set_option autoImplicit false

namespace MizanConnect.Proofs.Server

open MizanConnect.Server

/-- The layer answers a request from `o` as the allowlist says: with `o` when
`o` is listed, with no other origin ever. -/
def Honoured (http : HeaderValues) (config : Config) (o : http.Value) : Prop :=
  ((buildCors http config).answer o = some o ↔ http.text o ∈ config.corsAllowedOrigins) ∧
    ∀ v, (buildCors http config).answer o = some v → v = o

section
variable (http : HeaderValues) (config : Config)

/-- The layer keeps the last origin that parses. The induction takes the list
from its end, where the last call of the fold stands. -/
theorem origin_buildCors :
    (buildCors http config).origin = (config.corsAllowedOrigins.filterMap http.parse).getLast? := by
  unfold buildCors
  dsimp only
  generalize config.corsAllowedOrigins = origins
  induction origins using List.reverseRecOn with
  | nil => rfl
  | append_singleton origins origin ih =>
    rw [List.foldl_append, List.filterMap_append, List.getLast?_append]
    simp only [List.foldl_cons, List.foldl_nil]
    cases hparse : http.parse origin with
    | none =>
      rw [List.filterMap_cons_none hparse, ih]
      rfl
    | some value =>
      rw [List.filterMap_cons_some hparse]
      rfl

/-- The fold touches the origin only. -/
theorem rest_buildCors :
    (buildCors http config).methods = [.get, .post, .patch, .delete, .options] ∧
      (buildCors http config).headers = ["authorization", "content-type", "x-request-id"] ∧
      (buildCors http config).maxAge = some 600 := by
  unfold buildCors
  dsimp only
  generalize config.corsAllowedOrigins = origins
  induction origins using List.reverseRecOn with
  | nil => exact ⟨rfl, rfl, rfl⟩
  | append_singleton origins origin ih =>
    rw [List.foldl_append]
    simp only [List.foldl_cons, List.foldl_nil]
    cases http.parse origin with
    | none => exact ih
    | some value => exact ih

variable {http config}

/-- When all of them parse, that is the last one of the list. -/
theorem answer_eq_some (hparse : ∀ s ∈ config.corsAllowedOrigins, (http.parse s).isSome = true)
    {o v : http.Value} :
    (buildCors http config).answer o = some v ↔
      config.corsAllowedOrigins.getLast? = some (http.text v) := by
  show (buildCors http config).origin = some v ↔ _
  rw [origin_buildCors]
  generalize config.corsAllowedOrigins = origins at hparse ⊢
  induction origins using List.reverseRecOn with
  | nil => simp
  | append_singleton origins origin _ =>
    -- The last origin parses, so the filter keeps it last.
    obtain ⟨value, hvalue⟩ := Option.isSome_iff_exists.mp (hparse origin (by simp))
    rw [List.filterMap_append, List.filterMap_cons_some hvalue, List.filterMap_nil,
      List.getLast?_concat, List.getLast?_concat, Option.some_inj, Option.some_inj]
    rw [← http.text_of_parse hvalue]
    exact ⟨fun h => congrArg http.text h, fun h => http.text_injective h⟩

/-- The layer honours the allowlist for a request from `o` exactly when the
list is empty or ends with `o`. -/
theorem honoured_iff (hparse : ∀ s ∈ config.corsAllowedOrigins, (http.parse s).isSome = true)
    (o : http.Value) :
    Honoured http config o ↔
      config.corsAllowedOrigins = [] ∨ config.corsAllowedOrigins.getLast? = some (http.text o) := by
  unfold Honoured
  simp only [answer_eq_some hparse]
  cases hlast : config.corsAllowedOrigins.getLast? with
  | none => simp [List.getLast?_eq_none_iff.mp hlast]
  | some last =>
    have hmem : last ∈ config.corsAllowedOrigins := List.mem_of_getLast? hlast
    have hne : config.corsAllowedOrigins ≠ [] := List.ne_nil_of_mem hmem
    obtain ⟨value, hvalue⟩ := Option.isSome_iff_exists.mp (hparse last hmem)
    have htext : http.text value = last := http.text_of_parse hvalue
    constructor
    · intro ⟨_, honly⟩
      -- The layer sends the last origin, so that is the only one it may get.
      have hvalueo : value = o := honly value (by rw [htext])
      rw [← hvalueo, htext]
      exact Or.inr rfl
    · intro h
      -- The last origin is `o`: it is listed, and nothing else is sent.
      have ho : last = http.text o := by simpa [hne] using h
      constructor
      · simp [← ho, hmem]
      · intro v hv
        exact http.text_injective ((Option.some.inj hv).symm.trans ho)

end

/-- Header values of visible ASCII characters. -/
def asciiValues : HeaderValues where
  Value := String
  parse s := if s.toList.all fun c => 32 ≤ c.toNat && c.toNat < 127 then some s else none
  text s := s
  text_of_parse := by
    intro s v h
    split at h
    · exact (Option.some.inj h).symm
    · exact nomatch h
  text_injective := fun h => h

/-- The configuration of `.env.example`. -/
def exampleConfig : Config where
  appEnv := .development
  databaseMaxConnections := 10
  supabaseUrl := "https://project.supabase.co"
  supabaseJwtAudience := "authenticated"
  corsAllowedOrigins := ["http://localhost:1420", "http://tauri.localhost"]
  rateLimitPerMinute := 100
  testJwtSecret := none

theorem honoured_iff_example :
    Honoured asciiValues exampleConfig "http://tauri.localhost" := by
  have hparse : ∀ s ∈ exampleConfig.corsAllowedOrigins, (asciiValues.parse s).isSome = true := by
    decide
  exact (honoured_iff hparse "http://tauri.localhost").mpr (Or.inr rfl)

/-- The first origin of the example is listed, and gets the second one. -/
theorem first_origin_refused :
    (∀ s ∈ exampleConfig.corsAllowedOrigins, (asciiValues.parse s).isSome = true) ∧
      ¬ Honoured asciiValues exampleConfig "http://localhost:1420" := by
  refine ⟨by decide, ?_⟩
  intro h
  have hwrong : "http://tauri.localhost" = "http://localhost:1420" := h.2 _ rfl
  exact absurd hwrong (by decide)

end MizanConnect.Proofs.Server
