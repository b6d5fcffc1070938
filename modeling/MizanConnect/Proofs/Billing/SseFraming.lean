import MizanConnect.Billing.AiProxy

/-!
# `MizanConnect.Proofs.Billing.SseFraming`: re-framing and chunk boundaries

`run_stream` decodes each chunk on its own before it looks for lines. The
lines themselves come out the same for every way of cutting the upstream
bytes (`runStream_eq_lines`), because a line end, the `data: ` prefix, the
`[DONE]` marker and a carriage return are ASCII, and ASCII bytes survive
every cut. What can differ is the text of a payload: a cut inside a
multi-byte sequence leaves replacement characters in its place.

`forwarded` lists the payloads that reach the channel, by the bytes alone.
`runStream_chunking_iff` is the main result. The chunks give the events, the flag
and the usage of the uncut stream, and verbatim payloads when the stream is
UTF-8, exactly when no cut is inside a multi-byte sequence of a forwarded
payload.
-/

set_option autoImplicit false

namespace MizanConnect.Proofs.Billing

open MizanConnect.Billing
open Lines (takeLines takeLines_append takeLines_line takeLines_rest takeLines_map)
open Utf8

/-! ### The lines of a chunked stream -/

/-- `processLines` over two runs of lines. -/
theorem processLines_append (ctx : StreamContext) (connected : Nat → Bool) (p : Progress)
    (xs ys : List (List Char)) :
    processLines ctx connected p (xs ++ ys) =
      match processLines ctx connected p xs with
      | .more p' => processLines ctx connected p' ys
      | flow => flow := by
  induction xs generalizing p with
  | nil => rfl
  | cons line xs ih =>
    simp only [List.cons_append, processLines]
    cases processLine ctx connected p line with
    | more p' => exact ih p'
    | done p' => rfl
    | disconnected sent => rfl
    | panicked sent => rfl

/-- The end of a stream whose lines are all processed. -/
def finish : Flow → StreamEnd
  | .more p => .finished p.sent p.usage false
  | .done p => .finished p.sent p.usage true
  | .disconnected sent => .disconnected sent
  | .panicked sent => .panicked sent

/-- The loop over the chunks processes the lines of the decoded text. -/
theorem pump_eq_lines (ctx : StreamContext) (connected : Nat → Bool) (p : Progress)
    (buf : List Char) (hbuf : ∀ c ∈ buf, decide (c = '\n') = false) (cs : List (List UInt8)) :
    pump ctx connected p buf (cs.map .bytes)
      = finish (processLines ctx connected p
          (takeLines (· = '\n') (buf ++ cs.flatMap fromUtf8Lossy)).1) := by
  induction cs generalizing p buf with
  | nil =>
    rw [List.flatMap_nil, List.append_nil, takeLines_rest hbuf]
    rfl
  | cons bs cs ih =>
    -- The next chunk completes some lines. What is left of it has no line end
    -- and goes to the front of the rest.
    rw [List.flatMap_cons, ← List.append_assoc, takeLines_append, processLines_append]
    simp only [List.map_cons, pump]
    cases processLines ctx connected p
        (takeLines (· = '\n') (buf ++ fromUtf8Lossy bs)).1 with
    | more p' => exact ih p' _ Lines.not_end_of_mem_rest
    | done p' => rfl
    | disconnected sent => rfl
    | panicked sent => rfl

/-- The byte is a line feed. -/
def isLf (x : Marked) : Bool := x.1 = 0x0A

/-- The byte is a carriage return. -/
def isCr (x : Marked) : Bool := x.1 = 0x0D

/-- ASCII bytes and characters name each other. -/
theorem ofNat_toNat_eq_iff {b : UInt8} {c : Char} (hb : b.toNat < 0x80) :
    Char.ofNat b.toNat = c ↔ b.toNat = c.toNat := by
  have hnat : (Char.ofNat b.toNat).toNat = b.toNat := by
    rw [Char.ofNat, dif_pos (Or.inl (by omega))]
    rfl
  constructor
  · rintro rfl
    exact hnat.symm
  · intro h
    rw [h, Char.ofNat_toNat]

/-- An ASCII character is in the text exactly when its byte is. -/
theorem mem_decodeMarked_iff {xs : List Marked} {c : Char} (hc : c.toNat < 0x80) :
    c ∈ decodeMarked none xs ↔ ∃ x ∈ xs, x.1.toNat = c.toNat := by
  constructor
  · intro hmem
    obtain ⟨x, hx, hascii, rfl⟩ := exists_of_mem_decodeMarked hmem hc
    exact ⟨x, hx, (ofNat_toNat_eq_iff hascii).mp rfl⟩
  · rintro ⟨x, hx, heq⟩
    obtain ⟨pre, post, rfl⟩ := List.append_of_mem hx
    have hascii : x.1.toNat < 0x80 := by omega
    rw [decodeMarked_ascii none pre post hascii, (ofNat_toNat_eq_iff hascii).mpr heq]
    simp

theorem isLf_eq_true_iff (x : Marked) : isLf x = true ↔ x.1.toNat = '\n'.toNat := by
  rw [isLf, decide_eq_true_eq, ← UInt8.toNat_inj]
  rfl

theorem isCr_eq_true_iff (x : Marked) : isCr x = true ↔ x.1.toNat = '\r'.toNat := by
  rw [isCr, decide_eq_true_eq, ← UInt8.toNat_inj]
  rfl

/-- The lines of the text are the texts of the lines. -/
theorem takeLines_decodeMarked (xs : List Marked) :
    (takeLines (· = '\n') (decodeMarked none xs)).1
      = (takeLines isLf xs).1.map (decodeMarked none) := by
  -- A line feed in the text is one in the bytes.
  have hfree : ∀ line : List Marked, (∀ x ∈ line, isLf x = false) →
      ∀ c ∈ decodeMarked none line, decide (c = '\n') = false := by
    intro line hline c hc
    rw [decide_eq_false_iff_not]
    rintro rfl
    obtain ⟨x, hx, heq⟩ := (mem_decodeMarked_iff (by decide)).mp hc
    have hlf := (isLf_eq_true_iff x).mpr heq
    rw [hline x hx] at hlf
    cases hlf
  induction xs using Lines.linesInduction isLf with
  | hrest xs h => rw [takeLines_rest h, takeLines_rest (hfree xs h)]; rfl
  | hline line x xs h hx ih =>
    have hnat := (isLf_eq_true_iff x).mp hx
    have hascii : x.1.toNat < 0x80 := by
      rw [hnat]
      decide
    rw [takeLines_line h hx, decodeMarked_ascii none line xs hascii,
      (ofNat_toNat_eq_iff hascii).mpr hnat, takeLines_line (hfree line h) (by decide), ih]
    rfl

/-- The lines of a chunked stream. -/
def linesOf (cs : List (List UInt8)) : List (List Marked) := (takeLines isLf (mark cs)).1

/-- `run_stream` processes the decoded lines. -/
theorem runStream_eq_lines (ctx : StreamContext) (connected : Nat → Bool)
    (cs : List (List UInt8)) :
    runStream ctx connected (cs.map .bytes)
      = finish (processLines ctx connected ⟨TokenUsage.default, []⟩
          ((linesOf cs).map (decodeMarked none))) := by
  have hmark : decodeMarked none (mark cs) = cs.flatMap fromUtf8Lossy := decodeMarked_mark none cs
  rw [runStream, pump_eq_lines ctx connected _ [] (by simp), List.nil_append, ← hmark,
    takeLines_decodeMarked]
  rfl

/-! ### One line, by its bytes -/

/-- The rest after an ASCII prefix. -/
def dropAscii : List Char → List Marked → Option (List Marked)
  | [], xs => some xs
  | _ :: _, [] => none
  | c :: cs, x :: xs => if x.1.toNat = c.toNat then dropAscii cs xs else none

/-- What a line does to the stream. `done` and `data` carry the payload. -/
inductive LineKind where
  | skip
  | done (payload : List Marked)
  | panic
  | data (payload : List Marked)

/-- The kind of a line, by its bytes. -/
def classify (line : List Marked) : LineKind :=
  match dropAscii dataPrefix (line.rdropWhile isCr) with
  | none => .skip
  | some payload =>
    if dropAscii doneMarker payload = some [] then .done payload
    else if payload.any isCr then .panic
    else .data payload

/-- A text is empty when it comes from no byte. -/
theorem decodeMarked_eq_nil_iff (xs : List Marked) : decodeMarked none xs = [] ↔ xs = [] := by
  constructor
  · intro h
    cases xs with
    | nil => rfl
    | cons x xs =>
      exfalso
      -- One byte gives at least one character: itself or a replacement.
      by_cases hx : x.1.toNat < 0x80
      · have hascii := decodeMarked_ascii none [] xs hx
        rw [List.nil_append, h] at hascii
        simp at hascii
      · obtain ⟨c, cs, hcs, -⟩ := head_of_high (Nat.le_of_not_lt hx) xs
        rw [h] at hcs
        cases hcs
  · rintro rfl
    rfl

/-- Dropping an ASCII prefix, on the text and on the bytes. -/
theorem dropPrefix?_decodeMarked (w : List Char) (hw : ∀ c ∈ w, c.toNat < 0x80)
    (xs : List Marked) :
    (decodeMarked none xs).dropPrefix? w = (dropAscii w xs).map (decodeMarked none) := by
  induction w generalizing xs with
  | nil => simp [dropAscii]
  | cons c w ih =>
    have hc := hw c List.mem_cons_self
    have ihw := ih fun c' hc' => hw c' (List.mem_cons_of_mem c hc')
    cases xs with
    | nil => rfl
    | cons x xs =>
      by_cases hx : x.1.toNat < 0x80
      · have hcons : decodeMarked none (x :: xs)
            = Char.ofNat x.1.toNat :: decodeMarked none xs := decodeMarked_ascii none [] xs hx
        rw [hcons, List.dropPrefix?, dropAscii]
        simp only [beq_iff_eq, ofNat_toNat_eq_iff hx]
        split
        · exact ihw xs
        · rfl
      -- A byte that is not ASCII gives a character that is not.
      · obtain ⟨d, ds, hds, hd⟩ := head_of_high (Nat.le_of_not_lt hx) xs
        have hne : d ≠ c := by
          rintro rfl
          omega
        rw [hds, List.dropPrefix?, dropAscii, if_neg (by simpa using hne), if_neg (by omega)]
        rfl

/-- Trimming carriage returns, on the text and on the bytes. -/
theorem rdropWhile_decodeMarked (xs : List Marked) :
    (decodeMarked none xs).rdropWhile (· = '\r') = decodeMarked none (xs.rdropWhile isCr) := by
  induction xs using List.reverseRecOn with
  | nil => rfl
  | append_singleton xs x ih =>
    -- The last byte decides, and only an ASCII one can be a carriage return.
    by_cases hx : x.1.toNat < 0x80
    · have hsnoc : decodeMarked none (xs ++ [x])
          = decodeMarked none xs ++ [Char.ofNat x.1.toNat] := decodeMarked_ascii none xs [] hx
      rw [hsnoc, List.rdropWhile_concat, List.rdropWhile_concat]
      simp only [decide_eq_true_eq, ofNat_toNat_eq_iff hx, isCr_eq_true_iff]
      split
      · exact ih
      · exact hsnoc.symm
    · obtain ⟨cs, c, hcs, hc⟩ := last_of_high (Nat.le_of_not_lt hx) none xs
      have hcr : isCr x = false := by
        rw [Bool.eq_false_iff, Ne, isCr_eq_true_iff]
        have : '\r'.toNat = 0x0D := rfl
        omega
      have hne : decide (c = '\r') = false := by
        rw [decide_eq_false_iff_not]
        rintro rfl
        exact absurd hc (by decide)
      rw [List.rdropWhile_concat, hcr, if_neg Bool.false_ne_true, hcs, List.rdropWhile_concat,
        if_neg (by simpa using hne)]

/-- The `[DONE]` marker, on the text and on the bytes. -/
theorem decodeMarked_eq_doneMarker_iff (payload : List Marked) :
    decodeMarked none payload = doneMarker ↔ dropAscii doneMarker payload = some [] := by
  have hdrop := dropPrefix?_decodeMarked doneMarker (by simp [doneMarker]) payload
  constructor
  · intro h
    rw [h] at hdrop
    have hself : doneMarker.dropPrefix? doneMarker = some [] := by decide
    rw [hself] at hdrop
    obtain ⟨rest, hrest, hnil⟩ := Option.map_eq_some_iff.mp hdrop.symm
    rw [hrest, (decodeMarked_eq_nil_iff rest).mp hnil]
  · intro h
    rw [h] at hdrop
    obtain ⟨w, hw, hbeq⟩ := List.dropPrefix?_eq_some_iff.mp hdrop
    rw [hw, eq_of_beq hbeq]
    rfl

/-- A carriage return, on the text and on the bytes. -/
theorem cr_mem_decodeMarked_iff (payload : List Marked) :
    '\r' ∈ decodeMarked none payload ↔ payload.any isCr = true := by
  rw [mem_decodeMarked_iff (by decide), List.any_eq_true]
  simp only [isCr_eq_true_iff]

/-- What a line does, by the kind of its bytes. -/
theorem processLine_decodeMarked (ctx : StreamContext) (connected : Nat → Bool) (p : Progress)
    (line : List Marked) :
    processLine ctx connected p (decodeMarked none line) =
      match classify line with
      | .skip => .more p
      | .done payload =>
        .done (if connected p.sent.length then
          { p with sent := p.sent ++ [decodeMarked none payload] } else p)
      | .panic => .panicked p.sent
      | .data payload =>
        let text := decodeMarked none payload
        if connected p.sent.length then
          .more ⟨(usageOf ctx text).getD p.usage, p.sent ++ [text]⟩
        else .disconnected p.sent := by
  rw [processLine, rdropWhile_decodeMarked,
    dropPrefix?_decodeMarked dataPrefix (by simp [dataPrefix]), classify]
  cases dropAscii dataPrefix (line.rdropWhile isCr) with
  | none => rfl
  | some payload =>
    simp only [Option.map_some, decodeMarked_eq_doneMarker_iff, cr_mem_decodeMarked_iff]
    by_cases hdone : dropAscii doneMarker payload = some []
    · simp only [if_pos hdone]
    · by_cases hcr : payload.any isCr = true
      · simp only [if_neg hdone, if_pos hcr]
      · simp only [if_neg hdone, if_neg hcr]

/-! ### The forwarded payloads -/

/-- The payloads that the lines send, `[DONE]` last: up to the line that
ends the stream or panics. -/
def forwarded : List (List Marked) → List (List Marked)
  | [] => []
  | line :: lines =>
    match classify line with
    | .skip => forwarded lines
    | .done payload => [payload]
    | .panic => []
    | .data payload => payload :: forwarded lines

/-- The events that a stream sent. -/
def sentOf : StreamEnd → List (List Char)
  | .finished sent _ _ => sent
  | .disconnected sent => sent
  | .panicked sent => sent

/-- A receiver that stays connected gets the text of each forwarded payload. -/
theorem sentOf_processLines (ctx : StreamContext) (p : Progress) (lines : List (List Marked)) :
    sentOf (finish (processLines ctx (fun _ => true) p (lines.map (decodeMarked none))))
      = p.sent ++ (forwarded lines).map (decodeMarked none) := by
  induction lines generalizing p with
  | nil => simp [processLines, finish, sentOf, forwarded]
  | cons line lines ih =>
    rw [List.map_cons, processLines, processLine_decodeMarked, forwarded]
    cases classify line with
    | skip => exact ih p
    | done payload => rfl
    | panic => simp [finish, sentOf]
    | data payload =>
      simp only [if_true, ih]
      simp

/-- Forget where the chunks start. -/
def unmark (x : Marked) : Marked := (x.1, false)

theorem map_unmark (xs : List Marked) : xs.map unmark = unmarked (xs.map Prod.fst) := by
  simp [unmarked, unmark, Function.comp_def]

theorem dropAscii_unmark (w : List Char) (xs : List Marked) :
    dropAscii w (xs.map unmark) = (dropAscii w xs).map (List.map unmark) := by
  induction w generalizing xs with
  | nil => rfl
  | cons c w ih =>
    cases xs with
    | nil => rfl
    | cons x xs =>
      simp only [List.map_cons, dropAscii, unmark]
      split
      · exact ih xs
      · rfl

theorem rdropWhile_unmark (xs : List Marked) :
    (xs.map unmark).rdropWhile isCr = (xs.rdropWhile isCr).map unmark := by
  rw [List.rdropWhile, List.rdropWhile, ← List.map_reverse, List.dropWhile_map, List.map_reverse]
  rfl

/-- The kind of a line does not depend on where the chunks start. -/
theorem classify_unmark (line : List Marked) :
    classify (line.map unmark) =
      match classify line with
      | .skip => .skip
      | .done payload => .done (payload.map unmark)
      | .panic => .panic
      | .data payload => .data (payload.map unmark) := by
  have hnil : ∀ o : Option (List Marked), o.map (List.map unmark) = some [] ↔ o = some [] := by
    intro o
    cases o <;> simp
  have hany : ∀ payload : List Marked, (payload.map unmark).any isCr = payload.any isCr := by
    intro payload
    rw [List.any_map]
    rfl
  rw [classify, classify, rdropWhile_unmark, dropAscii_unmark]
  cases dropAscii dataPrefix (line.rdropWhile isCr) with
  | none => rfl
  | some payload =>
    simp only [Option.map_some, dropAscii_unmark, hnil, hany]
    by_cases hdone : dropAscii doneMarker payload = some []
    · simp only [if_pos hdone]
    · by_cases hcr : payload.any isCr = true
      · simp only [if_neg hdone, if_pos hcr]
      · simp only [if_neg hdone, if_neg hcr]

/-- The forwarded payloads do not depend on where the chunks start. -/
theorem forwarded_unmark (lines : List (List Marked)) :
    forwarded (lines.map (List.map unmark)) = (forwarded lines).map (List.map unmark) := by
  induction lines with
  | nil => rfl
  | cons line lines ih =>
    rw [List.map_cons, forwarded, forwarded, classify_unmark]
    cases classify line with
    | skip => exact ih
    | done payload => rfl
    | panic => rfl
    | data payload => exact congrArg (payload.map unmark :: ·) ih

/-- When every forwarded payload has the text it has in one piece, so has
the whole stream. -/
theorem processLines_unmark (ctx : StreamContext) (connected : Nat → Bool) (p : Progress)
    (lines : List (List Marked))
    (h : ∀ payload ∈ forwarded lines,
      decodeMarked none (payload.map unmark) = decodeMarked none payload) :
    processLines ctx connected p ((lines.map (List.map unmark)).map (decodeMarked none))
      = processLines ctx connected p (lines.map (decodeMarked none)) := by
  induction lines generalizing p with
  | nil => rfl
  | cons line lines ih =>
    simp only [List.map_cons, processLines, processLine_decodeMarked, classify_unmark]
    rw [forwarded] at h
    cases hkind : classify line with
    | skip =>
      rw [hkind] at h
      exact ih p h
    | done payload =>
      rw [hkind] at h
      dsimp only
      rw [h payload (by simp)]
    | panic => rfl
    | data payload =>
      rw [hkind] at h
      dsimp only
      rw [h payload List.mem_cons_self]
      split
      · exact ih _ fun q hq => h q (List.mem_cons_of_mem _ hq)
      · rfl

/-! ### Chunk boundaries -/

/-- No cut between two chunks is inside a multi-byte sequence of a forwarded
payload. -/
def CutsOutside (cs : List (List UInt8)) : Prop :=
  ∀ payload ∈ forwarded (linesOf cs), cutInside none payload = false

/-- The lines of the uncut stream. -/
theorem linesOf_flatten (cs : List (List UInt8)) :
    (takeLines isLf (unmarked cs.flatten)).1 = (linesOf cs).map (List.map unmark) := by
  rw [← map_fst_mark, ← map_unmark, takeLines_map]
  rfl

/-- The uncut stream processes the same lines without their marks. -/
theorem runStream_flatten_eq_lines (ctx : StreamContext) (connected : Nat → Bool)
    (cs : List (List UInt8)) :
    runStream ctx connected [.bytes cs.flatten]
      = finish (processLines ctx connected ⟨TokenUsage.default, []⟩
          (((linesOf cs).map (List.map unmark)).map (decodeMarked none))) := by
  have hpump := pump_eq_lines ctx connected ⟨TokenUsage.default, []⟩ [] (by simp) [cs.flatten]
  have htext : [cs.flatten].flatMap fromUtf8Lossy = decodeMarked none (unmarked cs.flatten) := by
    rw [decodeMarked_unmarked]
    simp [fromUtf8Lossy]
  rw [List.nil_append, htext, takeLines_decodeMarked, linesOf_flatten] at hpump
  exact hpump

/-- A payload has the text it has in one piece exactly when no cut is inside
one of its sequences. -/
theorem decodeMarked_unmark_eq_iff (payload : List Marked) :
    decodeMarked none (payload.map unmark) = decodeMarked none payload ↔
      cutInside none payload = false := by
  rw [map_unmark, decodeMarked_unmarked, ← decodeMarked_eq_iff, eq_comm]
  rfl

/-- The chunks give the result of the uncut stream exactly when the cuts are
outside. -/
theorem runStream_eq_flatten_iff (ctx : StreamContext) (cs : List (List UInt8)) :
    runStream ctx (fun _ => true) (cs.map .bytes)
        = runStream ctx (fun _ => true) [.bytes cs.flatten] ↔ CutsOutside cs := by
  rw [runStream_eq_lines, runStream_flatten_eq_lines]
  constructor
  · intro h payload hmem
    -- Equal results have equal events, one for each forwarded payload.
    have hsent := congrArg sentOf h
    rw [sentOf_processLines, sentOf_processLines, List.nil_append, List.nil_append,
      forwarded_unmark, List.map_map] at hsent
    exact (decodeMarked_unmark_eq_iff payload).mp (List.map_inj_left.mp hsent payload hmem).symm
  · intro h
    rw [processLines_unmark]
    exact fun payload hmem => (decodeMarked_unmark_eq_iff payload).mpr (h payload hmem)

/-! ### Verbatim payloads -/

/-- `payload` is what follows `data: ` on a complete line of `bs`. Carriage
returns before the line feed belong to the line end. -/
def DataText (bs payload : List UInt8) : Prop :=
  ∃ line ∈ (takeLines (· = 0x0A) bs).1, ∃ crs, (∀ b ∈ crs, b = 0x0D) ∧
    line = encode dataPrefix ++ payload ++ crs

/-- A line is its text and the carriage returns behind it. -/
theorem rdropWhile_append_crs (line : List Marked) :
    ∃ crs, (∀ x ∈ crs, isCr x = true) ∧ line = line.rdropWhile isCr ++ crs := by
  induction line using List.reverseRecOn with
  | nil => exact ⟨[], by simp, rfl⟩
  | append_singleton line x ih =>
    obtain ⟨crs, hcrs, hline⟩ := ih
    rw [List.rdropWhile_concat]
    split
    · rename_i hx
      refine ⟨crs ++ [x], ?_, ?_⟩
      · intro y hy
        rcases List.mem_append.mp hy with hy | hy
        · exact hcrs y hy
        · rw [List.mem_singleton.mp hy, hx]
      · rw [← List.append_assoc, ← hline]
    · exact ⟨[], by simp, by simp⟩

/-- A prefix that is dropped was there. -/
theorem dropAscii_eq_some {w : List Char} {xs rest : List Marked} (hw : ∀ c ∈ w, c.toNat < 0x80)
    (h : dropAscii w xs = some rest) : xs.map Prod.fst = encode w ++ rest.map Prod.fst := by
  induction w generalizing xs with
  | nil =>
    cases h
    rfl
  | cons c w ih =>
    cases xs with
    | nil => cases h
    | cons x xs =>
      rw [dropAscii] at h
      split at h
      · rename_i hx
        have hc := hw c List.mem_cons_self
        rw [List.map_cons, ih (fun d hd => hw d (List.mem_cons_of_mem c hd)) h, encode_cons,
          utf8EncodeChar_of_toNat (by omega) hx]
        rfl
      · cases h

/-- A forwarded payload is the payload of one of the lines. -/
theorem exists_line_of_forwarded {lines : List (List Marked)} {payload : List Marked}
    (h : payload ∈ forwarded lines) :
    ∃ line ∈ lines, dropAscii dataPrefix (line.rdropWhile isCr) = some payload := by
  induction lines with
  | nil => cases h
  | cons line lines ih =>
    -- The payload of this line, or of a line behind it.
    have hrest : payload ∈ forwarded lines → ∃ l ∈ line :: lines,
        dropAscii dataPrefix (l.rdropWhile isCr) = some payload := by
      intro h
      obtain ⟨l, hl, hdrop⟩ := ih h
      exact ⟨l, List.mem_cons_of_mem line hl, hdrop⟩
    rw [forwarded, classify] at h
    cases hdrop : dropAscii dataPrefix (line.rdropWhile isCr) with
    | none =>
      rw [hdrop] at h
      exact hrest h
    | some q =>
      have hhere : ∃ l ∈ line :: lines, dropAscii dataPrefix (l.rdropWhile isCr) = some q :=
        ⟨line, List.mem_cons_self, hdrop⟩
      simp only [hdrop] at h
      by_cases hdone : dropAscii doneMarker q = some []
      · simp only [if_pos hdone, List.mem_singleton] at h
        exact h ▸ hhere
      · by_cases hcr : q.any isCr = true
        · simp [if_neg hdone, hcr] at h
        · simp only [if_neg hdone, if_neg hcr, List.mem_cons] at h
          rcases h with rfl | h
          · exact hhere
          · exact hrest h

/-- The bytes of a forwarded payload are the text on its line. -/
theorem dataText_of_forwarded {cs : List (List UInt8)} {payload : List Marked}
    (h : payload ∈ forwarded (linesOf cs)) : DataText cs.flatten (payload.map Prod.fst) := by
  obtain ⟨line, hline, hdrop⟩ := exists_line_of_forwarded h
  obtain ⟨crs, hcrs, happend⟩ := rdropWhile_append_crs line
  refine ⟨line.map Prod.fst, ?_, crs.map Prod.fst, ?_, ?_⟩
  · rw [← map_fst_mark, takeLines_map]
    exact List.mem_map_of_mem hline
  · intro b hb
    obtain ⟨x, hx, rfl⟩ := List.mem_map.mp hb
    exact of_decide_eq_true (hcrs x hx)
  · rw [← dropAscii_eq_some (by simp [dataPrefix]) hdrop, ← List.map_append, ← happend]

/-- Every complete line of a UTF-8 stream is UTF-8. -/
theorem valid_line {bs line : List UInt8} (hbs : Valid bs)
    (hline : line ∈ (takeLines (· = 0x0A) bs).1) : Valid line := by
  induction bs using Lines.linesInduction (fun b : UInt8 => decide (b = 0x0A)) with
  | hrest xs h => simp [takeLines_rest h] at hline
  | hline l x xs h hx ih =>
    obtain rfl := of_decide_eq_true hx
    -- A line feed is ASCII, so the bytes before and behind it are UTF-8.
    obtain ⟨hl, hxs⟩ := valid_of_append_ascii (by decide) hbs
    rw [takeLines_line h hx] at hline
    rcases List.mem_cons.mp hline with rfl | hline
    · exact hl
    · exact ih hxs hline

/-- The text of a line of a UTF-8 stream is UTF-8. -/
theorem valid_dataText {bs payload : List UInt8} (hbs : Valid bs) (h : DataText bs payload) :
    Valid payload := by
  obtain ⟨line, hline, crs, hcrs, rfl⟩ := h
  have hvalid := valid_line hbs hline
  -- The space behind `data:` and the first carriage return cut the line.
  have hspace : encode dataPrefix ++ payload ++ crs
      = [0x64, 0x61, 0x74, 0x61, 0x3A] ++ 0x20 :: (payload ++ crs) := rfl
  rw [hspace] at hvalid
  obtain ⟨-, hrest⟩ := valid_of_append_ascii (by decide) hvalid
  cases crs with
  | nil => simpa using hrest
  | cons b crs =>
    obtain rfl := hcrs b List.mem_cons_self
    exact (valid_of_append_ascii (by decide) hrest).1

/-- With a receiver that stays connected, the chunks give the events, the
`saw_done` flag and the usage of the uncut stream, and verbatim payloads
when the stream is UTF-8, exactly when no cut is inside a multi-byte sequence
of a forwarded payload. Two ways of cutting that keep to this give the same
result. -/
theorem runStream_chunking_iff (ctx : StreamContext) (cs : List (List UInt8)) :
    (runStream ctx (fun _ => true) (cs.map .bytes)
          = runStream ctx (fun _ => true) [.bytes cs.flatten] ∧
        (Valid cs.flatten →
          ∀ payload ∈ sentOf (runStream ctx (fun _ => true) (cs.map .bytes)),
            DataText cs.flatten (encode payload))) ↔
      CutsOutside cs := by
  rw [runStream_eq_flatten_iff]
  refine ⟨fun h => h.1, fun h => ⟨h, fun hvalid payload hmem => ?_⟩⟩
  rw [runStream_eq_lines, sentOf_processLines, List.nil_append] at hmem
  obtain ⟨q, hq, rfl⟩ := List.mem_map.mp hmem
  have hdata := dataText_of_forwarded hq
  rw [decodeMarked_eq_of_not_inside (h q hq)]
  have hencode : encode (decode none (q.map Prod.fst)) = q.map Prod.fst :=
    encode_fromUtf8Lossy (valid_dataText hvalid hdata)
  rw [hencode]
  exact hdata

/-! ### A cut character -/

/-- No payload has a usage. -/
def plainContext : StreamContext := ⟨fun _ => none, fun _ => none⟩

/-- `data: é` and `data: [DONE]`. -/
def accentStream : List UInt8 :=
  [0x64, 0x61, 0x74, 0x61, 0x3A, 0x20, 0xC3, 0xA9, 0x0A,
    0x64, 0x61, 0x74, 0x61, 0x3A, 0x20, 0x5B, 0x44, 0x4F, 0x4E, 0x45, 0x5D, 0x0A]

/-- The two chunks of `accentStream` around a cut. -/
def accentChunks (cut : Nat) : List (List UInt8) :=
  [accentStream.take cut, accentStream.drop cut]

/-- Cut after the line feed, the stream sends `é`. Cut between the two bytes
of `é`, it sends two replacement characters. -/
theorem cut_inside_character_changes_payload :
    (accentChunks 9).flatten = accentStream ∧ (accentChunks 7).flatten = accentStream ∧
    Valid accentStream ∧
    runStream plainContext (fun _ => true) ((accentChunks 9).map .bytes)
      = .finished [['é'], doneMarker] TokenUsage.default true ∧
    runStream plainContext (fun _ => true) ((accentChunks 7).map .bytes)
      = .finished [[replacement, replacement], doneMarker] TokenUsage.default true :=
  ⟨rfl, rfl, ⟨"data: é\ndata: [DONE]\n".toList, by decide⟩, by decide, by decide⟩

end MizanConnect.Proofs.Billing
