import MizanConnect.Lib.Lines
import Mathlib.Data.List.TakeWhile

/-!
# `MizanConnect.Lib.Url`: the path and the query of a parsed URL

What the WHATWG URL parser makes of the text behind the authority of an `https`
URL: tabs and line ends are dropped, `#` starts the fragment, `?` the query,
`/` and `\` separate path segments, dot segments collapse, and the characters
of a percent-encode set are encoded. `Target` is what is sent.

The encode sets are a parameter (`EncodeSets`): the standard has changed them
over the years, but never let them contain a plain character.

`clean_of_mem_parseTarget`: a segment that is sent has no delimiter, no
character of the set, and is no dot segment. `parsePath_clean` is the converse:
such segments are sent as they are, behind whatever the text in front of them
contributes.
-/

set_option autoImplicit false

namespace Url

open Lines (takeLines takeLines_append takeLines_line takeLines_rest)

/-! ### The parser -/

/-- ASCII tab, line feed and carriage return, which are dropped. -/
def isIgnored (c : Char) : Bool := c = '\t' || c = '\n' || c = '\r'

/-- The separators of a path. -/
def isSlash (c : Char) : Bool := c = '/' || c = '\\'

/-- Letters, digits and the marks that no encode set contains. -/
def isPlain (c : Char) : Bool :=
  c.isAlphanum || c = '*' || c = '-' || c = '.' || c = '_' || c = '+' || c = '%' || c = '&' ||
    c = '='

/-- The percent-encode sets of the path and of the query. -/
structure EncodeSets where
  path : Char → Bool
  query : Char → Bool
  path_plain : ∀ c, isPlain c = true → path c = false
  query_plain : ∀ c, isPlain c = true → query c = false

/-- An uppercase hexadecimal digit. -/
def hexDigit (n : Nat) : Char := if n < 10 then Char.ofNat (48 + n) else Char.ofNat (55 + n)

/-- A byte, percent-encoded. -/
def percentEncode (b : UInt8) : List Char :=
  ['%', hexDigit (b.toNat / 16), hexDigit (b.toNat % 16)]

/-- A text with the characters of the set percent-encoded. -/
def encode (set : Char → Bool) (cs : List Char) : List Char :=
  cs.flatMap fun c => if set c then (String.utf8EncodeChar c).flatMap percentEncode else [c]

/-- A segment for the directory itself. -/
def isSingleDot (segment : List Char) : Bool :=
  segment.map Char.toLower = ['.'] || segment.map Char.toLower = ['%', '2', 'e']

/-- A segment for the directory above. -/
def isDoubleDot (segment : List Char) : Bool :=
  segment.map Char.toLower = ['.', '.'] || segment.map Char.toLower = ['.', '%', '2', 'e'] ||
    segment.map Char.toLower = ['%', '2', 'e', '.'] ||
    segment.map Char.toLower = ['%', '2', 'e', '%', '2', 'e']

/-- The path after a segment that a separator ends. -/
def pathStep (set : Char → Bool) (path : List (List Char)) (segment : List Char) :
    List (List Char) :=
  let segment := encode set segment
  if isDoubleDot segment then path.dropLast
  else if isSingleDot segment then path
  else path ++ [segment]

/-- The path after the last segment. -/
def lastStep (set : Char → Bool) (path : List (List Char)) (segment : List Char) :
    List (List Char) :=
  let segment := encode set segment
  if isDoubleDot segment then path.dropLast ++ [[]]
  else if isSingleDot segment then path ++ [[]]
  else path ++ [segment]

/-- The path of a text. The separator it starts with is passed over. -/
def parsePath (set : Char → Bool) (text : List Char) : List (List Char) :=
  let text :=
    match text with
    | c :: rest => if isSlash c then rest else text
    | [] => []
  let segments := takeLines isSlash text
  lastStep set (segments.1.foldl (pathStep set) []) segments.2

/-- The request target: the path segments, and the query if there is one. -/
structure Target where
  segments : List (List Char)
  query : Option (List Char)
deriving DecidableEq, Repr

/-- The path as it is sent. -/
def Target.path (t : Target) : List Char := t.segments.flatMap ('/' :: ·)

/-- The text behind the authority, parsed. -/
def parseTarget (sets : EncodeSets) (input : List Char) : Target :=
  let input := input.filter fun c => !isIgnored c
  let input := input.takeWhile (· ≠ '#')
  { segments := parsePath sets.path (input.takeWhile (· ≠ '?'))
    query :=
      match input.dropWhile (· ≠ '?') with
      | [] => none
      | _ :: query => some (encode sets.query query) }

/-! ### Clean characters and segments -/

/-- The character reaches the path as it is: no delimiter, not dropped and not
encoded. -/
def isClean (set : Char → Bool) (c : Char) : Bool :=
  !isIgnored c && !isSlash c && c ≠ '?' && c ≠ '#' && !set c

/-- The segment reaches the path as it is. -/
structure CleanSegment (set : Char → Bool) (segment : List Char) : Prop where
  chars : ∀ c ∈ segment, isClean set c = true
  notSingle : isSingleDot segment = false
  notDouble : isDoubleDot segment = false

theorem isClean_iff {set : Char → Bool} {c : Char} :
    isClean set c = true ↔
      isIgnored c = false ∧ isSlash c = false ∧ c ≠ '?' ∧ c ≠ '#' ∧ set c = false := by
  simp [isClean, and_assoc]

theorem cleanSegment_nil (set : Char → Bool) : CleanSegment set [] :=
  ⟨fun _ h => (nomatch h), rfl, rfl⟩

/-- The digits of an encoded byte are plain. -/
theorem isPlain_hexDigit {n : Nat} (h : n < 16) : isPlain (hexDigit n) = true := by
  have hall : ∀ n : Fin 16, isPlain (hexDigit n) = true := by decide
  exact hall ⟨n, h⟩

theorem isPlain_percentEncode {b : UInt8} : ∀ c ∈ percentEncode b, isPlain c = true := by
  intro c hc
  have hb : b.toNat < 256 := b.toNat_lt
  simp only [percentEncode, List.mem_cons, List.not_mem_nil, or_false] at hc
  obtain rfl | rfl | rfl := hc
  · decide
  · exact isPlain_hexDigit (by omega)
  · exact isPlain_hexDigit (by omega)

/-- A plain character is none of the delimiters, and is not dropped. -/
theorem not_special_of_isPlain {c : Char} (h : isPlain c = true) :
    isIgnored c = false ∧ isSlash c = false ∧ c ≠ '?' ∧ c ≠ '#' := by
  have hne : ∀ d : Char, isPlain d = false → c ≠ d := by
    intro d hd hcd
    rw [hcd, hd] at h
    exact Bool.false_ne_true h
  refine ⟨?_, ?_, hne _ (by decide), hne _ (by decide)⟩
  · simp [isIgnored, hne '\t' (by decide), hne '\n' (by decide), hne '\r' (by decide)]
  · simp [isSlash, hne '/' (by decide), hne '\\' (by decide)]

theorem isClean_of_isPlain {set : Char → Bool} (hset : ∀ c, isPlain c = true → set c = false)
    {c : Char} (h : isPlain c = true) : isClean set c = true := by
  obtain ⟨hignored, hslash, hquestion, hhash⟩ := not_special_of_isPlain h
  exact isClean_iff.mpr ⟨hignored, hslash, hquestion, hhash, hset c h⟩

/-- Text without a character of the set is not changed by encoding. -/
theorem encode_eq_self {set : Char → Bool} {cs : List Char} (h : ∀ c ∈ cs, set c = false) :
    encode set cs = cs := by
  induction cs with
  | nil => rfl
  | cons c cs ih =>
    have hc := h c List.mem_cons_self
    have hcs := ih fun d hd => h d (List.mem_cons_of_mem c hd)
    show (if set c then _ else [c]) ++ encode set cs = c :: cs
    rw [hcs, hc]
    rfl

/-- Encoding leaves clean characters only, when no delimiter was there. -/
theorem isClean_of_mem_encode {set : Char → Bool}
    (hset : ∀ c, isPlain c = true → set c = false) {cs : List Char}
    (h : ∀ c ∈ cs, isIgnored c = false ∧ isSlash c = false ∧ c ≠ '?' ∧ c ≠ '#') :
    ∀ c ∈ encode set cs, isClean set c = true := by
  intro c hc
  obtain ⟨d, hd, hcd⟩ := List.mem_flatMap.mp hc
  split at hcd
  · obtain ⟨b, -, hcb⟩ := List.mem_flatMap.mp hcd
    exact isClean_of_isPlain hset (isPlain_percentEncode c hcb)
  · rename_i hnot
    rw [List.mem_singleton.mp hcd]
    obtain ⟨hignored, hslash, hquestion, hhash⟩ := h d hd
    exact isClean_iff.mpr ⟨hignored, hslash, hquestion, hhash, by simpa using hnot⟩

/-! ### What is sent is clean -/

section
variable {set : Char → Bool}

/-- A clean segment at the end of a clean path. -/
theorem clean_concat {path : List (List Char)} {last : List Char}
    (hpath : ∀ s ∈ path, CleanSegment set s) (hlast : CleanSegment set last) :
    ∀ s ∈ path ++ [last], CleanSegment set s := by
  intro s hs
  cases List.mem_append.mp hs with
  | inl hold => exact hpath s hold
  | inr hnew =>
    rw [List.mem_singleton.mp hnew]
    exact hlast

theorem clean_dropLast {path : List (List Char)} (hpath : ∀ s ∈ path, CleanSegment set s) :
    ∀ s ∈ path.dropLast, CleanSegment set s :=
  fun s hs => hpath s (List.dropLast_subset path hs)

theorem clean_pathStep {path : List (List Char)} {segment : List Char}
    (hpath : ∀ s ∈ path, CleanSegment set s)
    (hsegment : ∀ c ∈ encode set segment, isClean set c = true) :
    ∀ s ∈ pathStep set path segment, CleanSegment set s := by
  unfold pathStep
  dsimp only
  split
  · exact clean_dropLast hpath
  · rename_i hdouble
    split
    · exact hpath
    · rename_i hsingle
      exact clean_concat hpath ⟨hsegment, by simpa using hsingle, by simpa using hdouble⟩

theorem clean_lastStep {path : List (List Char)} {segment : List Char}
    (hpath : ∀ s ∈ path, CleanSegment set s)
    (hsegment : ∀ c ∈ encode set segment, isClean set c = true) :
    ∀ s ∈ lastStep set path segment, CleanSegment set s := by
  unfold lastStep
  dsimp only
  split
  · exact clean_concat (clean_dropLast hpath) (cleanSegment_nil set)
  · rename_i hdouble
    split
    · exact clean_concat hpath (cleanSegment_nil set)
    · rename_i hsingle
      exact clean_concat hpath ⟨hsegment, by simpa using hsingle, by simpa using hdouble⟩

theorem clean_foldl_pathStep {segments path : List (List Char)}
    (hpath : ∀ s ∈ path, CleanSegment set s)
    (hsegments : ∀ segment ∈ segments, ∀ c ∈ encode set segment, isClean set c = true) :
    ∀ s ∈ segments.foldl (pathStep set) path, CleanSegment set s := by
  induction segments generalizing path with
  | nil => exact hpath
  | cons segment segments ih =>
    exact ih (clean_pathStep hpath (hsegments segment List.mem_cons_self))
      fun s hs => hsegments s (List.mem_cons_of_mem segment hs)

/-- The characters that reach the path parser are no delimiters of the other
components. -/
theorem mem_pathText {input : List Char} {c : Char}
    (h : c ∈ ((input.filter fun c => !isIgnored c).takeWhile (· ≠ '#')).takeWhile (· ≠ '?')) :
    isIgnored c = false ∧ c ≠ '?' ∧ c ≠ '#' := by
  have hquestion := List.mem_takeWhile_imp h
  have hin := (List.takeWhile_sublist _).subset h
  have hhash := List.mem_takeWhile_imp hin
  have hfilter := List.mem_filter.mp ((List.takeWhile_sublist _).subset hin)
  exact ⟨by simpa using hfilter.2, by simpa using hquestion, by simpa using hhash⟩

/-- A segment of a parsed path is clean. -/
theorem clean_of_mem_parseTarget (sets : EncodeSets) (input : List Char) :
    ∀ s ∈ (parseTarget sets input).segments, CleanSegment sets.path s := by
  unfold parseTarget parsePath
  dsimp only
  generalize htext : ((input.filter fun c => !isIgnored c).takeWhile (· ≠ '#')).takeWhile
    (· ≠ '?') = text
  have hplain : ∀ c ∈ text, isIgnored c = false ∧ c ≠ '?' ∧ c ≠ '#' := by
    intro c hc
    rw [← htext] at hc
    exact mem_pathText hc
  -- Dropping the first separator leaves a part of the text.
  have hbody : ∀ c ∈ (match text with
      | c :: rest => if isSlash c then rest else text
      | [] => []), isIgnored c = false ∧ c ≠ '?' ∧ c ≠ '#' := by
    intro c hc
    cases text with
    | nil => exact nomatch hc
    | cons d rest =>
      dsimp only at hc
      split at hc
      · exact hplain c (List.mem_cons_of_mem d hc)
      · exact hplain c hc
  generalize (match text with
      | c :: rest => if isSlash c then rest else text
      | [] => []) = body at hbody ⊢
  have hsegment : ∀ segment : List Char, (∀ c ∈ segment, c ∈ body) →
      (∀ c ∈ segment, isSlash c = false) →
      ∀ c ∈ encode sets.path segment, isClean sets.path c = true := by
    intro segment hmem hslash
    apply isClean_of_mem_encode sets.path_plain
    intro c hc
    obtain ⟨hignored, hquestion, hhash⟩ := hbody c (hmem c hc)
    exact ⟨hignored, hslash c hc, hquestion, hhash⟩
  apply clean_lastStep
  · apply clean_foldl_pathStep
    · exact fun _ h => nomatch h
    · intro segment hs
      exact hsegment segment (fun c hc => Lines.mem_of_mem_lines hs hc)
        (Lines.not_end_of_mem_lines segment hs)
  · exact hsegment _ (fun c hc => Lines.mem_of_mem_rest hc) Lines.not_end_of_mem_rest

/-! ### Clean segments are sent as they are -/

theorem foldl_pathStep_clean {segments : List (List Char)} (path : List (List Char))
    (h : ∀ s ∈ segments, CleanSegment set s) :
    segments.foldl (pathStep set) path = path ++ segments := by
  induction segments generalizing path with
  | nil => simp
  | cons s segments ih =>
    have hs := h s List.mem_cons_self
    have hself : encode set s = s :=
      encode_eq_self fun c hc => (isClean_iff.mp (hs.chars c hc)).2.2.2.2
    have hstep : pathStep set path s = path ++ [s] := by
      simp [pathStep, hself, hs.notDouble, hs.notSingle]
    rw [List.foldl_cons, hstep, ih _ fun t ht => h t (List.mem_cons_of_mem s ht)]
    simp

theorem lastStep_clean {s : List Char} (path : List (List Char)) (hs : CleanSegment set s) :
    lastStep set path s = path ++ [s] := by
  have hself : encode set s = s :=
    encode_eq_self fun c hc => (isClean_iff.mp (hs.chars c hc)).2.2.2.2
  simp [lastStep, hself, hs.notDouble, hs.notSingle]

/-- Segments with a separator behind each are the lines of the path. -/
theorem takeLines_segments {segments : List (List Char)} {last : List Char}
    (h : ∀ s ∈ segments, ∀ c ∈ s, isSlash c = false) (hlast : ∀ c ∈ last, isSlash c = false) :
    takeLines isSlash (segments.flatMap (· ++ ['/']) ++ last) = (segments, last) := by
  induction segments with
  | nil => exact takeLines_rest hlast
  | cons s segments ih =>
    have hs := h s List.mem_cons_self
    have hrest := ih fun t ht => h t (List.mem_cons_of_mem s ht)
    have htext : (s :: segments).flatMap (· ++ ['/']) ++ last
        = s ++ '/' :: (segments.flatMap (· ++ ['/']) ++ last) := by
      simp
    rw [htext, takeLines_line hs (by decide), hrest]

/-- What the text in front of a separator contributes to the path does not
depend on the text behind it. -/
theorem parsePath_behind (set : Char → Bool) (lead : List Char) :
    ∃ front, ∀ rest, parsePath set (lead ++ '/' :: rest)
      = lastStep set ((takeLines isSlash rest).1.foldl (pathStep set) front)
          (takeLines isSlash rest).2 := by
  cases lead with
  | nil => exact ⟨[], fun rest => rfl⟩
  | cons c lead =>
    -- The segments of the text, without the separator it may start with.
    have hbody : ∃ body : List Char, ∀ rest, parsePath set (c :: lead ++ '/' :: rest)
        = lastStep set ((takeLines isSlash (body ++ '/' :: rest)).1.foldl (pathStep set) [])
            (takeLines isSlash (body ++ '/' :: rest)).2 := by
      by_cases hc : isSlash c = true
      · exact ⟨lead, fun rest => by simp [parsePath, hc]⟩
      · exact ⟨c :: lead, fun rest => by simp [parsePath, hc]⟩
    obtain ⟨body, hbody⟩ := hbody
    refine ⟨((takeLines isSlash body).1 ++ [(takeLines isSlash body).2]).foldl (pathStep set) [],
      ?_⟩
    intro rest
    rw [hbody, takeLines_append, takeLines_line Lines.not_end_of_mem_rest (by decide)]
    simp [List.foldl_append]

/-- Clean segments behind a text are sent as they are. -/
theorem parsePath_clean (set : Char → Bool) (lead : List Char) :
    ∃ front, ∀ segments last, (∀ s ∈ segments, CleanSegment set s) → CleanSegment set last →
      parsePath set (lead ++ '/' :: (segments.flatMap (· ++ ['/']) ++ last))
        = front ++ segments ++ [last] := by
  obtain ⟨front, hfront⟩ := parsePath_behind set lead
  refine ⟨front, ?_⟩
  intro segments last hsegments hlast
  have hslash : ∀ {s : List Char}, CleanSegment set s → ∀ c ∈ s, isSlash c = false :=
    fun hs c hc => (isClean_iff.mp (hs.chars c hc)).2.1
  rw [hfront, takeLines_segments (fun s hs => hslash (hsegments s hs)) (hslash hlast)]
  dsimp only
  rw [foldl_pathStep_clean front hsegments, lastStep_clean _ hlast]

end

/-- Text without a delimiter of the other components is all path. -/
theorem parseTarget_path (sets : EncodeSets) {text : List Char}
    (h : ∀ c ∈ text, c ≠ '?' ∧ c ≠ '#') :
    parseTarget sets text
      = ⟨parsePath sets.path (text.filter fun c => !isIgnored c), none⟩ := by
  have hall : ∀ c ∈ text.filter fun c => !isIgnored c, c ≠ '?' ∧ c ≠ '#' := fun c hc =>
    h c (List.mem_filter.mp hc).1
  unfold parseTarget
  generalize (text.filter fun c => !isIgnored c) = kept at hall ⊢
  have hhash : kept.takeWhile (· ≠ '#') = kept :=
    List.takeWhile_eq_self_iff.mpr fun c hc => by simpa using (hall c hc).2
  have hquestion : kept.takeWhile (· ≠ '?') = kept :=
    List.takeWhile_eq_self_iff.mpr fun c hc => by simpa using (hall c hc).1
  have hnone : kept.dropWhile (· ≠ '?') = [] :=
    List.dropWhile_eq_nil_iff.mpr fun c hc => by simpa using (hall c hc).1
  dsimp only
  rw [hhash, hquestion, hnone]

/-- A plain query behind such a text is sent as it is. -/
theorem parseTarget_query (sets : EncodeSets) {text query : List Char}
    (h : ∀ c ∈ text, c ≠ '?' ∧ c ≠ '#') (hquery : ∀ c ∈ query, isPlain c = true) :
    parseTarget sets (text ++ '?' :: query)
      = ⟨parsePath sets.path (text.filter fun c => !isIgnored c), some query⟩ := by
  have hall : ∀ c ∈ text.filter fun c => !isIgnored c, c ≠ '?' ∧ c ≠ '#' := fun c hc =>
    h c (List.mem_filter.mp hc).1
  have hkept : (text ++ '?' :: query).filter (fun c => !isIgnored c)
      = text.filter (fun c => !isIgnored c) ++ '?' :: query := by
    have hself : ('?' :: query).filter (fun c => !isIgnored c) = '?' :: query := by
      apply List.filter_eq_self.mpr
      intro c hc
      cases List.mem_cons.mp hc with
      | inl heq =>
        rw [heq]
        decide
      | inr hmem => simp [(not_special_of_isPlain (hquery c hmem)).1]
    rw [List.filter_append, hself]
  unfold parseTarget
  rw [hkept]
  generalize (text.filter fun c => !isIgnored c) = kept at hall ⊢
  have hhash : (kept ++ '?' :: query).takeWhile (· ≠ '#') = kept ++ '?' :: query := by
    apply List.takeWhile_eq_self_iff.mpr
    intro c hc
    cases List.mem_append.mp hc with
    | inl hmem => simpa using (hall c hmem).2
    | inr hmem =>
      cases List.mem_cons.mp hmem with
      | inl heq =>
        rw [heq]
        decide
      | inr hmem => simpa using (not_special_of_isPlain (hquery c hmem)).2.2.2
  have hquestion : ∀ c ∈ kept, decide (c ≠ '?') = true := fun c hc => by
    simpa using (hall c hc).1
  have htake : (kept ++ '?' :: query).takeWhile (· ≠ '?') = kept := by
    rw [List.takeWhile_append_of_pos hquestion]
    simp
  have hdrop : (kept ++ '?' :: query).dropWhile (· ≠ '?') = '?' :: query := by
    rw [List.dropWhile_append_of_pos hquestion]
    simp
  dsimp only
  rw [hhash, htake, hdrop]
  dsimp only
  rw [encode_eq_self fun c hc => sets.query_plain c (hquery c hc)]

end Url
