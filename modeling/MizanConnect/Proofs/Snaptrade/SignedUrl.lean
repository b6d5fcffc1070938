import MizanConnect.Snaptrade.SignedRequest

/-!
# `MizanConnect.Proofs.Snaptrade.SignedUrl`: ids in the path

The query of a request is percent-encoded before it is signed, so the parser of
`reqwest` leaves it alone. An id goes into the path as it is. It is sent as it
was signed, in one segment, exactly when the parser leaves it alone too
(`signed_is_sent_iff`).
-/

set_option autoImplicit false

namespace MizanConnect.Proofs.Snaptrade.SignedUrl

open MizanConnect.Snaptrade.SignedRequest
open Url (EncodeSets CleanSegment isPlain isClean parseTarget parsePath)

/-! ### The query -/

theorem isPlain_byteSerialize {bytes : List UInt8} :
    ∀ c ∈ byteSerialize bytes, isPlain c = true := by
  intro c hc
  obtain ⟨b, -, hcb⟩ := List.mem_flatMap.mp hc
  dsimp only at hcb
  -- A space becomes `+`, some bytes are kept, the others are encoded.
  split at hcb
  · rw [List.mem_singleton.mp hcb]
    decide
  · split at hcb
    · rename_i hkept
      rw [List.mem_singleton.mp hcb]
      have hmark := hkept.2
      simp only [List.mem_cons, List.not_mem_nil, or_false] at hmark
      obtain halnum | hstar | hminus | hdot | hunder := hmark
      · simp [isPlain, halnum]
      · simp [isPlain, hstar]
      · simp [isPlain, hminus]
      · simp [isPlain, hdot]
      · simp [isPlain, hunder]
    · exact Url.isPlain_percentEncode c hcb

theorem isPlain_serializePair {pair : List Char × List Char} :
    ∀ c ∈ serializePair pair, isPlain c = true := by
  intro c hc
  cases List.mem_append.mp hc with
  | inl hkey => exact isPlain_byteSerialize c hkey
  | inr hrest =>
    cases List.mem_cons.mp hrest with
    | inl heq =>
      rw [heq]
      decide
    | inr hvalue => exact isPlain_byteSerialize c hvalue

/-- A query string has plain characters only. -/
theorem isPlain_buildQueryString {params : List (List Char × List Char)} :
    ∀ c ∈ buildQueryString params, isPlain c = true := by
  induction params using buildQueryString.induct with
  | case1 => exact fun _ h => nomatch h
  | case2 pair => exact isPlain_serializePair
  | case3 pair pairs hne ih =>
    intro c hc
    rw [buildQueryString.eq_3 pair pairs hne] at hc
    cases List.mem_append.mp hc with
    | inl hpair => exact isPlain_serializePair c hpair
    | inr hrest =>
      cases List.mem_cons.mp hrest with
      | inl heq =>
        rw [heq]
        decide
      | inr hmem => exact ih c hmem

/-! ### The path -/

/-- The path that is signed has the version in front. -/
theorem fullSigningPath_path (call : IdCall) (id : List Char) :
    fullSigningPath (call.path id) = versionPath ++ call.path id := by
  cases call with
  | accountHoldings => rfl
  | accountActivities extraParams => rfl
  | refreshAuthorization => rfl
  | removeAuthorization => rfl

/-- It is the path of the segments of the method. -/
theorem flatMap_segments (call : IdCall) (id : List Char) :
    (call.segments id).flatMap ('/' :: ·) = versionPath ++ call.path id := by
  unfold IdCall.segments apiVersion versionPath
  cases call with
  | accountHoldings => simp [IdCall.directories, IdCall.last, IdCall.path]
  | accountActivities extraParams => simp [IdCall.directories, IdCall.last, IdCall.path]
  | refreshAuthorization => simp [IdCall.directories, IdCall.last, IdCall.path]
  | removeAuthorization => simp [IdCall.directories, IdCall.last, IdCall.path]

/-- A separator in front of each segment, or behind each but the last. -/
theorem path_eq_directories (call : IdCall) (id : List Char) :
    versionPath ++ call.path id
      = '/' :: ((apiVersion ++ call.directories id).flatMap (· ++ ['/']) ++ call.last id) := by
  unfold apiVersion versionPath
  cases call with
  | accountHoldings => simp [IdCall.directories, IdCall.last, IdCall.path]
  | accountActivities extraParams => simp [IdCall.directories, IdCall.last, IdCall.path]
  | refreshAuthorization => simp [IdCall.directories, IdCall.last, IdCall.path]
  | removeAuthorization => simp [IdCall.directories, IdCall.last, IdCall.path]

section
variable {sets : EncodeSets}

/-- A segment of plain characters that is no dot segment is clean. -/
theorem clean_of_isPlain {segment : List Char} (h : segment.all isPlain = true)
    (hsingle : Url.isSingleDot segment = false) (hdouble : Url.isDoubleDot segment = false) :
    CleanSegment sets.path segment :=
  ⟨fun c hc => Url.isClean_of_isPlain sets.path_plain (List.all_eq_true.mp h c hc), hsingle,
    hdouble⟩

theorem clean_apiVersion : ∀ s ∈ apiVersion, CleanSegment sets.path s := by
  intro s hs
  simp only [apiVersion, List.mem_cons, List.not_mem_nil, or_false] at hs
  cases hs with
  | inl hapi =>
    rw [hapi]
    exact clean_of_isPlain (by decide) (by decide) (by decide)
  | inr hversion =>
    rw [hversion]
    exact clean_of_isPlain (by decide) (by decide) (by decide)

/-- The segments of a method are clean when its id is. -/
theorem clean_directories (call : IdCall) {id : List Char} (hid : CleanSegment sets.path id) :
    ∀ s ∈ apiVersion ++ call.directories id, CleanSegment sets.path s := by
  have haccounts : CleanSegment sets.path accounts :=
    clean_of_isPlain (by decide) (by decide) (by decide)
  have hauthorizations : CleanSegment sets.path authorizations :=
    clean_of_isPlain (by decide) (by decide) (by decide)
  intro s hs
  cases List.mem_append.mp hs with
  | inl hversion => exact clean_apiVersion s hversion
  | inr hdirectory =>
    cases call with
    | accountHoldings =>
      obtain rfl | rfl := by simpa [IdCall.directories] using hdirectory
      · exact haccounts
      · exact hid
    | accountActivities extraParams =>
      obtain rfl | rfl := by simpa [IdCall.directories] using hdirectory
      · exact haccounts
      · exact hid
    | refreshAuthorization =>
      obtain rfl | rfl := by simpa [IdCall.directories] using hdirectory
      · exact hauthorizations
      · exact hid
    | removeAuthorization =>
      obtain rfl := by simpa [IdCall.directories] using hdirectory
      exact hauthorizations

theorem clean_last (call : IdCall) {id : List Char} (hid : CleanSegment sets.path id) :
    CleanSegment sets.path (call.last id) := by
  have hholdings : CleanSegment sets.path holdings :=
    clean_of_isPlain (by decide) (by decide) (by decide)
  have hactivities : CleanSegment sets.path activities :=
    clean_of_isPlain (by decide) (by decide) (by decide)
  have hrefresh : CleanSegment sets.path refresh :=
    clean_of_isPlain (by decide) (by decide) (by decide)
  cases call with
  | accountHoldings => exact hholdings
  | accountActivities extraParams => exact hactivities
  | refreshAuthorization => exact hrefresh
  | removeAuthorization => exact hid

/-- The path of clean segments has no delimiter of another component and
nothing that is dropped. -/
theorem not_special_of_mem_path {segments : List (List Char)}
    (h : ∀ s ∈ segments, CleanSegment sets.path s) :
    ∀ c ∈ segments.flatMap ('/' :: ·), Url.isIgnored c = false ∧ c ≠ '?' ∧ c ≠ '#' := by
  intro c hc
  obtain ⟨s, hs, hcs⟩ := List.mem_flatMap.mp hc
  cases List.mem_cons.mp hcs with
  | inl heq =>
    rw [heq]
    decide
  | inr hmem =>
    obtain ⟨hignored, -, hquestion, hhash, -⟩ := Url.isClean_iff.mp ((h s hs).chars c hmem)
    exact ⟨hignored, hquestion, hhash⟩

/-- With a clean id, the path of the request is that of the base URL and the
segments of the method, and the query is the one that was signed. -/
theorem parseTarget_request (base : BaseUrl) (call : IdCall) {id query : List Char}
    (hid : CleanSegment sets.path id) (hquery : ∀ c ∈ query, isPlain c = true) :
    ∃ front, (parseTarget sets (base.lead ++ versionPath)).segments = front ++ apiVersion ∧
      parseTarget sets (base.lead ++ (versionPath ++ call.path id) ++ '?' :: query)
        = ⟨front ++ call.segments id, some query⟩ := by
  obtain ⟨front, hfront⟩ := Url.parsePath_clean sets.path
    (base.lead.filter fun c => !Url.isIgnored c)
  refine ⟨front, ?_, ?_⟩
  -- The base URL and the version alone.
  · have hversion : ∀ c ∈ versionPath, Url.isIgnored c = false ∧ c ≠ '?' ∧ c ≠ '#' := by
      simp [versionPath, Url.isIgnored]
    have hkept : versionPath.filter (fun c => !Url.isIgnored c) = versionPath := by decide
    have hsegments : versionPath = '/' :: ([['a', 'p', 'i']].flatMap (· ++ ['/']) ++ ['v', '1']) :=
      rfl
    have hapi : CleanSegment sets.path ['a', 'p', 'i'] := clean_apiVersion _ (by decide)
    have hv1 : CleanSegment sets.path ['v', '1'] := clean_apiVersion _ (by decide)
    rw [Url.parseTarget_path sets, List.filter_append, hkept]
    · show parsePath sets.path _ = _
      rw [hsegments, hfront _ _ (by simpa using hapi) hv1, List.append_assoc]
      rfl
    · intro c hc
      cases List.mem_append.mp hc with
      | inl hlead => exact base.noDelimiter c hlead
      | inr hmem => exact (hversion c hmem).2
  -- The whole URL: a clean path keeps its segments, and the query begins at the
  -- `?` of the client.
  · have hsegments : ∀ s ∈ call.segments id, CleanSegment sets.path s := by
      intro s hs
      cases List.mem_append.mp hs with
      | inl hdirectory => exact clean_directories call hid s hdirectory
      | inr hlast => exact List.mem_singleton.mp hlast ▸ clean_last call hid
    have hpath := not_special_of_mem_path hsegments
    rw [flatMap_segments] at hpath
    have hkept : (versionPath ++ call.path id).filter (fun c => !Url.isIgnored c)
        = versionPath ++ call.path id :=
      List.filter_eq_self.mpr fun c hc => by simp [(hpath c hc).1]
    rw [Url.parseTarget_query sets _ hquery, List.filter_append, hkept, path_eq_directories,
      hfront _ _ (clean_directories call hid) (clean_last call hid), List.append_assoc]
    · rfl
    · intro c hc
      cases List.mem_append.mp hc with
      | inl hlead => exact base.noDelimiter c hlead
      | inr hmem => exact (hpath c hmem).2

end

/-! ### What is signed and what is sent -/

/-- The path and the query that are sent are the ones that were signed, and the
path is the endpoint with the id as one of its segments. -/
def SentAsSigned (sets : EncodeSets) (base : BaseUrl) (request : Outgoing)
    (segments : List (List Char)) : Prop :=
  let target := parseTarget sets (request.url.drop base.origin.length)
  target.path = request.signedPath ∧ target.query = some request.signedQuery ∧
    target.segments = segments

/-- The URL behind the authority. -/
theorem drop_url (base : BaseUrl) (call : IdCall) (clientId : List Char) (timestamp : Nat)
    (userId userSecret id : List Char) :
    (call.request ⟨base.text, clientId⟩ timestamp userId userSecret id).url.drop
        base.origin.length
      = base.lead ++ (versionPath ++ call.path id) ++ '?' ::
        (call.request ⟨base.text, clientId⟩ timestamp userId userSecret id).signedQuery := by
  -- `send_signed` puts the URL together from the base URL, the path and the
  -- query.
  show (base.origin ++ (base.lead ++ versionPath) ++ call.path id ++ '?' ::
    (call.request ⟨base.text, clientId⟩ timestamp userId userSecret id).signedQuery).drop
      base.origin.length = _
  simp only [List.append_assoc, List.drop_left]

/-- A request with an id is sent as it was signed, with the id in one segment,
exactly when the path of the base URL is `/api/v1` and the id is a clean
segment: no separator, no delimiter, nothing that is dropped or encoded, and no
dot segment. -/
theorem signed_is_sent_iff (sets : EncodeSets) (base : BaseUrl) (clientId : List Char)
    (timestamp : Nat) (userId userSecret : List Char) (call : IdCall) (id : List Char) :
    SentAsSigned sets base (call.request ⟨base.text, clientId⟩ timestamp userId userSecret id)
        (call.segments id) ↔
      (parseTarget sets (base.lead ++ versionPath)).segments = apiVersion ∧
        CleanSegment sets.path id := by
  unfold SentAsSigned
  dsimp only
  rw [drop_url]
  have hquery : ∀ c ∈ (call.request ⟨base.text, clientId⟩ timestamp userId userSecret
      id).signedQuery, isPlain c = true := isPlain_buildQueryString
  generalize (call.request ⟨base.text, clientId⟩ timestamp userId userSecret id).signedQuery
    = query at hquery ⊢
  constructor
  · intro ⟨_, _, hsegments⟩
    -- Whatever is sent is clean, so the id is when it is sent.
    have hid : CleanSegment sets.path id := by
      apply Url.clean_of_mem_parseTarget sets
      rw [hsegments]
      cases call with
      | accountHoldings => simp [IdCall.segments, IdCall.directories]
      | accountActivities extraParams => simp [IdCall.segments, IdCall.directories]
      | refreshAuthorization => simp [IdCall.segments, IdCall.directories]
      | removeAuthorization => simp [IdCall.segments, IdCall.last]
    obtain ⟨front, hbase, htarget⟩ := parseTarget_request base call hid hquery
    rw [htarget] at hsegments
    have hfront : front = [] := by simpa using hsegments
    rw [hbase, hfront]
    exact ⟨rfl, hid⟩
  · intro ⟨hversion, hid⟩
    obtain ⟨front, hbase, htarget⟩ := parseTarget_request base call hid hquery
    rw [hbase] at hversion
    have hfront : front = [] := by simpa using hversion
    rw [htarget, hfront]
    refine ⟨?_, rfl, rfl⟩
    show (call.segments id).flatMap ('/' :: ·) = fullSigningPath (call.path id)
    rw [flatMap_segments, fullSigningPath_path]

/-! ### One id -/

/-- The percent-encode sets of the standard, with `^` in the path set: controls,
what is not ASCII, and these. -/
def encodesPath (c : Char) : Bool :=
  c.toNat < 0x20 || 0x7E < c.toNat ||
    c.toNat ∈ [0x20, 0x22, 0x23, 0x3C, 0x3E, 0x3F, 0x5E, 0x60, 0x7B, 0x7D]

def encodesQuery (c : Char) : Bool :=
  c.toNat < 0x20 || 0x7E < c.toNat || c.toNat ∈ [0x20, 0x22, 0x23, 0x27, 0x3C, 0x3E]

/-- A plain character is a letter, a digit or one of the marks. -/
theorem toNat_lt_of_isPlain {c : Char} (h : isPlain c = true) : c.toNat < 128 := by
  by_cases halnum : c.isAlphanum = true
  · have hranges : (decide (c.val ≥ 'A'.val ∧ c.val ≤ 'Z'.val) ||
        (decide (c.val ≥ 'a'.val) && decide (c.val ≤ 'z'.val)) ||
        (decide (c.val ≥ '0'.val) && decide (c.val ≤ '9'.val))) = true := halnum
    simp only [Bool.or_eq_true, Bool.and_eq_true, decide_eq_true_eq, ge_iff_le,
      UInt32.le_iff_toNat_le] at hranges
    have hupper : ('Z'.val).toNat = 90 := rfl
    have hlower : ('z'.val).toNat = 122 := rfl
    have hdigit : ('9'.val).toNat = 57 := rfl
    show c.val.toNat < 128
    omega
  · have hmarks : c ∈ ['*', '-', '.', '_', '+', '%', '&', '='] := by
      simpa [isPlain, halnum, or_assoc] using h
    have hall : ['*', '-', '.', '_', '+', '%', '&', '='].all (fun c => decide (c.toNat < 128)) := by
      decide
    exact of_decide_eq_true (List.all_eq_true.mp hall c hmarks)

/-- A set without plain characters: the first 128 characters decide. -/
theorem not_encodes_of_isPlain {encodes : Char → Bool}
    (hall : ∀ n : Fin 128, isPlain (Char.ofNat n) = true → encodes (Char.ofNat n) = false)
    (c : Char) (h : isPlain c = true) : encodes c = false := by
  have hc := hall ⟨c.toNat, toNat_lt_of_isPlain h⟩
  rw [Char.ofNat_toNat] at hc
  exact hc h

/-- The sets of the standard. -/
def whatwg : EncodeSets where
  path := encodesPath
  query := encodesQuery
  path_plain := not_encodes_of_isPlain (by decide)
  query_plain := not_encodes_of_isPlain (by decide)

/-- The default of `SNAPTRADE_API_BASE`. -/
def defaultBase : BaseUrl where
  origin := "https://api.snaptrade.com".toList
  lead := []
  noDelimiter _ h := nomatch h

/-- The id `1#`, which a caller writes as `1%23`: the holdings of an account
become the account, and the query with the credentials is not sent. -/
theorem hash_not_sent :
    ¬ SentAsSigned whatwg defaultBase
      (accountHoldings ⟨defaultBase.text, ['c']⟩ 0 ['u'] ['s'] ['1', '#'])
      (IdCall.accountHoldings.segments ['1', '#']) := by
  intro h
  exact absurd h.2.1 (by decide +kernel)

end MizanConnect.Proofs.Snaptrade.SignedUrl
