import MizanConnect.Middleware
import Mathlib.Tactic.NormNum

/-!
# `MizanConnect.Proofs.Server.RequestId`: one id for a request

`serve_eq` is what the stack of `build_app` comes to: which layer answers, on what the
handlers run, and with which headers the answer leaves. The rest reads it back.

An id is safe text whoever chose it (`isSafeId_extractOrGenerate`), so it is always a
valid header value, and the two fallbacks of the layer are not taken.
-/

set_option autoImplicit false

namespace MizanConnect.Proofs.Server

open MizanConnect.Middleware
open MizanConnect.Server (CorsLayer HeaderValues buildCors buildRateLimiterConfig)

/-! ### Safe text -/

/-- A safe character is printable ASCII. -/
theorem toNat_of_isSafeIdChar {c : Char} (h : isSafeIdChar c = true) :
    45 ≤ c.toNat ∧ c.toNat ≤ 122 := by
  have hmark : ∀ m : Char, (c == m) = true → c.toNat = m.toNat := fun m hm =>
    congrArg Char.toNat (eq_of_beq hm)
  simp only [isSafeIdChar, Bool.or_eq_true, Bool.and_eq_true, decide_eq_true_eq,
    Char.le_def, UInt32.le_iff_toNat_le] at h
  have hlower : ('a'.val).toNat = 97 ∧ ('z'.val).toNat = 122 := ⟨rfl, rfl⟩
  have hupper : ('A'.val).toNat = 65 ∧ ('Z'.val).toNat = 90 := ⟨rfl, rfl⟩
  have hdigit : ('0'.val).toNat = 48 ∧ ('9'.val).toNat = 57 := ⟨rfl, rfl⟩
  have hval : c.toNat = c.val.toNat := rfl
  rcases h with ((((h | h) | h) | h) | h) | h
  · omega
  · omega
  · omega
  · have hm := hmark '-' h
    have hn : '-'.toNat = 45 := rfl
    omega
  · have hm := hmark '_' h
    have hn : '_'.toNat = 95 := rfl
    omega
  · have hm := hmark '.' h
    have hn : '.'.toNat = 46 := rfl
    omega

/-- The characters of a safe id. -/
theorem safe_chars {s : String} (h : isSafeId s = true) :
    ∀ c ∈ s.toList, isSafeIdChar c = true := by
  unfold isSafeId at h
  exact List.all_eq_true.mp (Bool.and_eq_true_iff.mp h).2

section
variable {s : String}

/-- A safe id has one byte a character. -/
theorem ofText_safe (h : isSafeId s = true) :
    HeaderValue.ofText s = s.toList.map fun c => UInt8.ofNat c.toNat := by
  refine Utf8.encode_ascii fun c hc => ?_
  have hrange := toNat_of_isSafeIdChar (safe_chars h c hc)
  omega

theorem toNat_ofNat_safe (h : isSafeId s = true) {c : Char} (hc : c ∈ s.toList) :
    (UInt8.ofNat c.toNat).toNat = c.toNat := by
  have hrange := toNat_of_isSafeIdChar (safe_chars h c hc)
  rw [UInt8.toNat_ofNat']
  omega

theorem visible_safe (h : isSafeId s = true) :
    (HeaderValue.ofText s).all isVisibleAscii = true := by
  rw [ofText_safe h, List.all_map, List.all_eq_true]
  intro c hc
  have hrange := toNat_of_isSafeIdChar (safe_chars h c hc)
  simp only [Function.comp_apply, isVisibleAscii, toNat_ofNat_safe h hc, Bool.or_eq_true,
    Bool.and_eq_true, decide_eq_true_eq]
  omega

/-- A safe id is a header value. -/
theorem fromStr?_safe (h : isSafeId s = true) :
    HeaderValue.fromStr? s = some (HeaderValue.ofText s) := by
  rw [HeaderValue.fromStr?, if_pos (visible_safe h)]

end

/-! ### The id of a call -/

/-- A hexadecimal digit is safe. -/
theorem isSafeIdChar_digit (n : Nat) : isSafeIdChar (Nat.digitChar (n % 16)) = true := by
  have hall : ∀ k : Fin 16, isSafeIdChar (Nat.digitChar k) = true := by decide
  exact hall ⟨n % 16, Nat.mod_lt _ (by decide)⟩

/-- A UUID is 36 safe characters. -/
theorem isSafeId_uuid (u : Uuid) : isSafeId u.toString = true := by
  let digits := (List.range 32).map fun i => Nat.digitChar (u.value / 16 ^ (31 - i) % 16)
  have hdigits : ∀ c ∈ digits, isSafeIdChar c = true := by
    intro c hc
    obtain ⟨i, -, rfl⟩ := List.mem_map.mp hc
    exact isSafeIdChar_digit _
  let group (start length : Nat) := (digits.drop start).take length
  have hgroup : ∀ start length, ∀ c ∈ group start length, isSafeIdChar c = true :=
    fun start length c hc => hdigits c (List.mem_of_mem_drop (List.mem_of_mem_take hc))
  have htext : u.toString.toList = group 0 8 ++ '-' :: group 8 4 ++ '-' :: group 12 4 ++
      '-' :: group 16 4 ++ '-' :: group 20 12 := by
    show (String.intercalate "-" _).toList = _
    rw [String.toList_intercalate]
    simp only [List.map_cons, List.map_nil, String.toList_ofList]
    simp [List.intercalate, group, digits]
  have hchars : ∀ c ∈ u.toString.toList, isSafeIdChar c = true := by
    intro c hc
    rw [htext] at hc
    simp only [List.mem_append, List.mem_cons] at hc
    have hhyphen : isSafeIdChar '-' = true := by decide
    rcases hc with (((hc | rfl | hc) | rfl | hc) | rfl | hc) | rfl | hc
    all_goals first | exact hhyphen | exact hgroup _ _ c hc
  have hlength : u.toString.toList.length = 36 := by
    rw [htext]
    simp [group, digits]
  have hbytes : u.toString.utf8ByteSize = 36 := by
    rw [Utf8.utf8ByteSize_eq, Utf8.encode_ascii, List.length_map, hlength]
    intro c hc
    have hrange := toNat_of_isSafeIdChar (hchars c hc)
    omega
  have hne : u.toString.isEmpty = false := by
    rw [Bool.eq_false_iff]
    intro hempty
    rw [String.isEmpty_iff.mp hempty] at hlength
    cases hlength
  rw [isSafeId, hne, hbytes, List.all_eq_true.mpr hchars]
  decide

section
variable {Ip σ : Type} (call : Call Ip)

/-- What the caller proposes. -/
def proposed : Option String :=
  ((call.headers.get? headerName).bind HeaderValue.toStr?).map trim

theorem isSafeId_extractOrGenerate : isSafeId (extractOrGenerate call) = true := by
  show isSafeId (((proposed call).filter isSafeId).getD call.uuid.toString) = true
  cases h : (proposed call).filter isSafeId with
  | none => exact isSafeId_uuid call.uuid
  | some id => exact (Option.filter_eq_some_iff.mp h).2

end

/-! ### The stack -/

section
variable {Ip σ : Type}

/-- How much of the body the handlers can read. -/
def readable (call : Call Ip) : Nat :=
  match call.declared with
  | some len => min maxBodyBytes len
  | none => maxBodyBytes

/-- What the handlers are called with. -/
def seen (call : Call Ip) : Call Ip :=
  { call with
    headers := call.headers.insert headerName (HeaderValue.ofText (extractOrGenerate call))
    body := limited (readable call) call.body
    scope := some (extractOrGenerate call) }

/-- The length that the call declares is above the limit. -/
def oversized (call : Call Ip) : Bool :=
  match call.declared with
  | some len => maxBodyBytes < len
  | none => false

/-- The limiter lets the call through. -/
def admitted (config : Config) (s : State Ip σ) (call : Call Ip) : Bool :=
  ((buildRateLimiterConfig config).gcra.arrive (s.limiter call.peer) call.now).1

/-- Who answers a call. -/
inductive Answerer where
  | bodyLimit
  | limiter
  | cors
  | routes
deriving DecidableEq

/-- Who answers: the body limit stands in front of the limiter, and this in front of
CORS. -/
def answerer (config : Config) (s : State Ip σ) (call : Call Ip) : Answerer :=
  if oversized call then .bodyLimit
  else if admitted config s call = false then .limiter
  else if call.method = "OPTIONS" then .cors
  else .routes

/-- The limiter after a call that it has let through. -/
def spent [DecidableEq Ip] (config : Config) (s : State Ip σ) (call : Call Ip) : Ip → Option ℚ :=
  Function.update s.limiter call.peer
    ((buildRateLimiterConfig config).gcra.arrive (s.limiter call.peer) call.now).2

/-- The response with the id of the call. -/
def withId (call : Call Ip) (response : Response) : Response :=
  { response with
    headers := response.headers.insert headerName
      (HeaderValue.ofText (extractOrGenerate call)) }

/-- The headers of `security_headers::layers`. -/
def policy (env : AppEnv) : List (String × HeaderValue) :=
  let security := layers env
  [security.nosniff, security.frame, security.referrer, security.permissions,
    security.crossDomain] ++ security.hsts.toList

/-- A response of the routes as it leaves the layers around them. -/
def decorated (http : HeaderValues) (config : Config) (response : Response) : Response :=
  { response with
    headers := ((response.headers.extend (policy config.appEnv)).append "vary" corsVary).extend
      (corsHeaders http (buildCors http config)) }

/-- The value that the layer sets is the id. -/
theorem requestIdLayer_eq (inner : Service Ip σ) (s : σ) (call : Call Ip) :
    requestIdLayer inner s call =
      let r := inner s
        { call with
          headers := call.headers.insert headerName (HeaderValue.ofText (extractOrGenerate call))
          scope := some (extractOrGenerate call) }
      (r.1, ⟨withId call r.2.response, r.2.elapsed⟩) := by
  unfold requestIdLayer
  dsimp only
  rw [fromStr?_safe (isSafeId_extractOrGenerate call)]
  rfl

/-- The security headers, one layer after the other. -/
theorem security_eq (env : AppEnv) (inner : Service Ip σ) (s : σ) (call : Call Ip) :
    optionLayer ((layers env).hsts.map overriding)
      (overriding (layers env).crossDomain (overriding (layers env).permissions
        (overriding (layers env).referrer (overriding (layers env).frame
          (overriding (layers env).nosniff inner))))) s call =
      let r := inner s call
      (r.1, { r.2 with
        response := { r.2.response with
          headers := r.2.response.headers.extend (policy env) } }) := by
  unfold policy
  generalize layers env = security
  obtain ⟨nosniff, frame, referrer, permissions, crossDomain, hsts⟩ := security
  cases hsts <;> rfl

/-- The declared length is read from another header. -/
theorem declared_seen (call : Call Ip) (value : HeaderValue) (scope : Option String) :
    Call.declared { call with headers := call.headers.insert headerName value, scope } =
      call.declared := by
  unfold Call.declared MultiMap.get?
  dsimp only
  rw [MultiMap.getAll_insert_of_ne (by decide)]

/-- The body limit, in terms of the declared length. -/
theorem bodyLimit_eq (tooLarge : Response) (inner : Service Ip σ) (s : σ) (call : Call Ip) :
    requestBodyLimitLayer maxBodyBytes tooLarge inner s call =
      if oversized call then (s, ⟨tooLarge, 0⟩)
      else inner s { call with body := limited (readable call) call.body } := by
  unfold requestBodyLimitLayer oversized readable
  cases call.declared with
  | none => rfl
  | some len => simp only [decide_eq_true_eq]

/-- The layers within the limiter: CORS answers a preflight request, and the routes the
others. -/
theorem cors_eq (http : HeaderValues) (config : Config) (routes : Routes Ip σ) (s : σ)
    (call : Call Ip) :
    corsLayer http (buildCors http config)
        (optionLayer ((layers config.appEnv).hsts.map overriding)
          (overriding (layers config.appEnv).crossDomain
            (overriding (layers config.appEnv).permissions
              (overriding (layers config.appEnv).referrer
                (overriding (layers config.appEnv).frame
                  (overriding (layers config.appEnv).nosniff (router routes))))))) s call =
      if call.method = "OPTIONS" then
        (s, ⟨⟨200, preflightHeaders http (buildCors http config), .empty⟩, 0⟩)
      else
        let r := router routes s call
        (r.1, ⟨decorated http config r.2.response, r.2.elapsed⟩) := by
  unfold corsLayer
  rw [security_eq]
  rfl

variable [DecidableEq Ip]

/-- The limiter, in terms of its decision. -/
theorem governor_eq (config : Config) (tooManyRequests : ℚ → Response) (inner : Service Ip σ)
    (s : State Ip σ) (call : Call Ip) :
    governorLayer (buildRateLimiterConfig config).gcra tooManyRequests inner s call =
      if admitted config s call then
        (⟨spent config s call, (inner s.handlers call).1⟩, (inner s.handlers call).2)
      else
        (s, ⟨tooManyRequests
          ((buildRateLimiterConfig config).gcra.wait (s.limiter call.peer) call.now), 0⟩) := rfl

/-- What the layers within the timeout do with a call. -/
theorem limits_eq (http : HeaderValues) (config : Config) (refusals : Refusals)
    (routes : Routes Ip σ) (s : State Ip σ) (call : Call Ip) :
    requestBodyLimitLayer maxBodyBytes refusals.tooLarge
        (governorLayer (buildRateLimiterConfig config).gcra refusals.tooManyRequests
          (corsLayer http (buildCors http config)
            (optionLayer ((layers config.appEnv).hsts.map overriding)
              (overriding (layers config.appEnv).crossDomain
                (overriding (layers config.appEnv).permissions
                  (overriding (layers config.appEnv).referrer
                    (overriding (layers config.appEnv).frame
                      (overriding (layers config.appEnv).nosniff (router routes))))))))) s call =
      match answerer config s call with
      | .bodyLimit => (s, ⟨refusals.tooLarge, 0⟩)
      | .limiter =>
        (s, ⟨refusals.tooManyRequests
          ((buildRateLimiterConfig config).gcra.wait (s.limiter call.peer) call.now), 0⟩)
      | .cors =>
        (⟨spent config s call, s.handlers⟩,
          ⟨⟨200, preflightHeaders http (buildCors http config), .empty⟩, 0⟩)
      | .routes =>
        let r := router routes s.handlers
          { call with body := limited (readable call) call.body }
        (⟨spent config s call, r.1⟩, ⟨decorated http config r.2.response, r.2.elapsed⟩) := by
  rw [bodyLimit_eq, governor_eq, cors_eq]
  -- The limiter reads the peer and the instant only.
  have hadmitted : admitted config s { call with body := limited (readable call) call.body } =
      admitted config s call := rfl
  have hspent : spent config s { call with body := limited (readable call) call.body } =
      spent config s call := rfl
  rw [hadmitted, hspent]
  unfold answerer
  cases oversized call with
  | true => rfl
  | false =>
    cases admitted config s call with
    | false => rfl
    | true =>
      by_cases hoptions : call.method = "OPTIONS"
      · simp [hoptions]
      · simp [hoptions]

/-- What the stack does with a call. -/
theorem serve_eq (http : HeaderValues) (config : Config) (refusals : Refusals)
    (routes : Routes Ip σ) (s : State Ip σ) (call : Call Ip) :
    buildApp http config refusals routes s call =
      match answerer config s call with
      | .bodyLimit => (s, ⟨withId call refusals.tooLarge, 0⟩)
      | .limiter =>
        (s, ⟨withId call (refusals.tooManyRequests
          ((buildRateLimiterConfig config).gcra.wait (s.limiter call.peer) call.now)), 0⟩)
      | .cors =>
        (⟨spent config s call, s.handlers⟩,
          ⟨withId call ⟨200, preflightHeaders http (buildCors http config), .empty⟩, 0⟩)
      | .routes =>
        let r := router routes s.handlers (seen call)
        (⟨spent config s call, r.1⟩,
          if r.2.elapsed ≤ 30 then
            ⟨withId call (decorated http config r.2.response), r.2.elapsed⟩
          else ⟨withId call ⟨504, [], .empty⟩, 30⟩) := by
  have hzero : (0 : ℚ) ≤ 30 := by norm_num
  let tagged : Call Ip :=
    { call with
      headers := call.headers.insert headerName (HeaderValue.ofText (extractOrGenerate call))
      scope := some (extractOrGenerate call) }
  have hdeclared : tagged.declared = call.declared := declared_seen call _ _
  have hanswerer : answerer config s tagged = answerer config s call := by
    unfold answerer oversized
    rw [hdeclared]
    rfl
  have hseen : { tagged with body := limited (readable tagged) tagged.body } = seen call := by
    rw [readable, hdeclared]
    rfl
  unfold buildApp
  dsimp only
  rw [requestIdLayer_eq]
  unfold timeoutLayer
  dsimp only
  rw [limits_eq, hanswerer, hseen]
  cases answerer config s call with
  | bodyLimit => simp only [hzero, if_true]
  | limiter => simp only [hzero, if_true]
  | cors =>
    simp only [hzero, if_true]
    rfl
  | routes =>
    dsimp only
    split <;> rfl

/-! ### The id on both ends -/

end

end MizanConnect.Proofs.Server
