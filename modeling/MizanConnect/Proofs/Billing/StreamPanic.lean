import MizanConnect.Proofs.Billing.SseFraming

/-!
# `MizanConnect.Proofs.Billing.StreamPanic`: carriage returns in payloads

The loops of `run_stream` come down to one loop over the payloads of the
complete data lines (`runStream_eq_payloads`). A payload ends where the line
ends, less its trailing carriage returns. One in the middle stays, and
`Event::data` panics on it. `no_panic_iff` says which streams never get there.
-/

set_option autoImplicit false

namespace MizanConnect.Proofs.Billing

open MizanConnect.Billing
open Lines (takeLines)
open Utf8 (fromUtf8Lossy)

/-! ### The payloads of a stream -/

/-- The payload of a data line. -/
def payloadOf (line : List Char) : Option (List Char) :=
  (line.rdropWhile (· = '\r')).dropPrefix? dataPrefix

/-- The chunks before the first failed read. -/
def received : List Chunk → List (List UInt8)
  | .bytes bs :: chunks => bs :: received chunks
  | _ => []

/-- The payloads of the complete data lines that were received. -/
def dataPayloads (chunks : List Chunk) : List (List Char) :=
  (takeLines (· = '\n') ((received chunks).flatMap fromUtf8Lossy)).1.filterMap payloadOf

/-- What `run_stream` does with one payload. -/
def processPayload (ctx : StreamContext) (connected : Nat → Bool) (p : Progress)
    (payload : List Char) : Flow :=
  if payload = doneMarker then
    .done (if connected p.sent.length then { p with sent := p.sent ++ [payload] } else p)
  else
    let p := { p with usage := (usageOf ctx payload).getD p.usage }
    if '\r' ∈ payload then .panicked p.sent
    else if connected p.sent.length then .more { p with sent := p.sent ++ [payload] }
    else .disconnected p.sent

/-- What it does with one payload after the other. -/
def processPayloads (ctx : StreamContext) (connected : Nat → Bool) (p : Progress) :
    List (List Char) → Flow
  | [] => .more p
  | payload :: payloads =>
    match processPayload ctx connected p payload with
    | .more p' => processPayloads ctx connected p' payloads
    | flow => flow

section
variable (ctx : StreamContext) (connected : Nat → Bool)

/-- A line without a payload is passed over. -/
theorem processLine_eq_payload (p : Progress) (line : List Char) :
    processLine ctx connected p line =
      match payloadOf line with
      | none => .more p
      | some payload => processPayload ctx connected p payload :=
  rfl

theorem processLines_eq_payloads (p : Progress) (lines : List (List Char)) :
    processLines ctx connected p lines
      = processPayloads ctx connected p (lines.filterMap payloadOf) := by
  induction lines generalizing p with
  | nil => rfl
  | cons line lines ih =>
    rw [processLines, processLine_eq_payload]
    cases hpayload : payloadOf line with
    | none =>
      rw [List.filterMap_cons_none hpayload]
      exact ih p
    | some payload =>
      rw [List.filterMap_cons_some hpayload, processPayloads]
      dsimp only
      -- Only `more` goes on; the other three leave both loops.
      cases processPayload ctx connected p payload with
      | more p' => exact ih p'
      | done p' => rfl
      | disconnected sent => rfl
      | panicked sent => rfl

/-- A failed read ends the stream: what comes behind it is never read. -/
theorem pump_received (p : Progress) (buf : List Char) (chunks : List Chunk) :
    pump ctx connected p buf chunks
      = pump ctx connected p buf ((received chunks).map .bytes) := by
  induction chunks generalizing p buf with
  | nil => rfl
  | cons chunk chunks ih =>
    cases chunk with
    | failed => rfl
    | bytes bs =>
      -- Both sides read the same chunk, and differ in what comes behind it.
      show pump ctx connected p buf (.bytes bs :: chunks)
        = pump ctx connected p buf (.bytes bs :: (received chunks).map .bytes)
      simp only [pump]
      cases processLines ctx connected p
          (takeLines (· = '\n') (buf ++ fromUtf8Lossy bs)).1 with
      | more p' => exact ih p' _
      | done p' => rfl
      | disconnected sent => rfl
      | panicked sent => rfl

/-- `run_stream` processes the payloads of its data lines. -/
theorem runStream_eq_payloads (chunks : List Chunk) :
    runStream ctx connected chunks
      = finish (processPayloads ctx connected ⟨TokenUsage.default, []⟩ (dataPayloads chunks)) := by
  rw [runStream, pump_received, pump_eq_lines ctx connected _ [] (by simp), List.nil_append,
    processLines_eq_payloads]
  rfl

/-! ### Which payload panics -/

/-- The loop gets past the payloads: none of them ends the stream, and the
receiver takes an event for each. `k` events were sent before. -/
def Passed (connected : Nat → Bool) (k : Nat) (payloads : List (List Char)) : Prop :=
  doneMarker ∉ payloads ∧ ∀ j < payloads.length, connected (k + j) = true

variable {connected}

theorem passed_nil (k : Nat) : Passed connected k [] :=
  ⟨List.not_mem_nil, fun _ hj => absurd hj (Nat.not_lt_zero _)⟩

theorem passed_cons {k : Nat} {payload : List Char} {payloads : List (List Char)} :
    Passed connected k (payload :: payloads) ↔
      payload ≠ doneMarker ∧ connected k = true ∧ Passed connected (k + 1) payloads := by
  unfold Passed
  constructor
  · intro ⟨hdone, hconnected⟩
    refine ⟨fun h => hdone (h ▸ List.mem_cons_self), hconnected 0 (by simp),
      fun h => hdone (List.mem_cons_of_mem _ h), ?_⟩
    intro j hj
    have hnext := hconnected (j + 1) (by simpa using hj)
    rwa [← Nat.add_assoc, Nat.add_right_comm] at hnext
  · intro ⟨hpayload, hk, hdone, hconnected⟩
    constructor
    · intro hmem
      cases List.mem_cons.mp hmem with
      | inl heq => exact hpayload heq.symm
      | inr hmem => exact hdone hmem
    · intro j hj
      cases j with
      | zero => exact hk
      | succ j =>
        have hnext := hconnected j (by simpa using hj)
        rwa [Nat.add_right_comm, Nat.add_assoc] at hnext

theorem cr_not_mem_doneMarker : '\r' ∉ doneMarker := by decide

variable (connected) in
/-- The payloads make `Event::data` panic exactly when one that the loop gets to
has a carriage return. The induction follows the loop; its three exits are the
marker, a carriage return and a receiver that is gone. -/
theorem processPayloads_ne_panicked_iff (p : Progress) (payloads : List (List Char)) :
    (∀ sent, processPayloads ctx connected p payloads ≠ .panicked sent) ↔
      ∀ earlier payload rest, payloads = earlier ++ payload :: rest →
        Passed connected p.sent.length earlier → '\r' ∉ payload := by
  induction payloads generalizing p with
  | nil =>
    constructor
    · intro _ earlier payload rest h
      exact absurd h.symm (by simp)
    · intro _ sent h
      exact nomatch h
  | cons q payloads ih =>
    -- The payload that is reached is `q`, or lies behind `q`.
    have hreached : (∀ earlier payload rest, q :: payloads = earlier ++ payload :: rest →
          Passed connected p.sent.length earlier → '\r' ∉ payload) ↔
        '\r' ∉ q ∧ (q ≠ doneMarker → connected p.sent.length = true →
          ∀ earlier payload rest, payloads = earlier ++ payload :: rest →
            Passed connected (p.sent.length + 1) earlier → '\r' ∉ payload) := by
      constructor
      · intro h
        refine ⟨h [] q payloads rfl (passed_nil _), ?_⟩
        intro hq hk earlier payload rest hsplit hpassed
        exact h (q :: earlier) payload rest (by rw [hsplit]; rfl)
          (passed_cons.mpr ⟨hq, hk, hpassed⟩)
      · intro ⟨hq, hrest⟩ earlier payload rest hsplit hpassed
        cases earlier with
        | nil =>
          cases hsplit
          exact hq
        | cons first earlier =>
          cases hsplit
          obtain ⟨hfirst, hk, hpassed⟩ := passed_cons.mp hpassed
          exact hrest hfirst hk earlier payload rest rfl hpassed
    rw [hreached, processPayloads]
    unfold processPayload
    -- `[DONE]` is sent without a look for carriage returns, and has none. A
    -- payload with one panics before it is sent.
    by_cases hdone : q = doneMarker
    · simp [hdone, cr_not_mem_doneMarker]
    · by_cases hcr : '\r' ∈ q
      · simp [hdone, hcr]
      · by_cases hk : connected p.sent.length = true
        -- The event is sent, and the loop goes on with one event more.
        · have hnext := ih ⟨(usageOf ctx q).getD p.usage, p.sent ++ [q]⟩
          simp only [List.length_append, List.length_singleton] at hnext
          simpa [hdone, hcr, hk] using hnext
        · simp [hdone, hcr, hk]

end

/-- `run_stream` never panics exactly when no payload that it gets to, with no
`[DONE]` before it and every event before it taken, has a carriage return. -/
theorem no_panic_iff (ctx : StreamContext) (connected : Nat → Bool) (chunks : List Chunk) :
    (∀ sent, runStream ctx connected chunks ≠ .panicked sent) ↔
      ∀ earlier payload rest, dataPayloads chunks = earlier ++ payload :: rest →
        Passed connected 0 earlier → '\r' ∉ payload := by
  have hpayloads := processPayloads_ne_panicked_iff ctx connected ⟨TokenUsage.default, []⟩
    (dataPayloads chunks)
  rw [List.length_nil] at hpayloads
  rw [← hpayloads, runStream_eq_payloads]
  cases processPayloads ctx connected ⟨TokenUsage.default, []⟩ (dataPayloads chunks) with
  | more p => simp [finish]
  | done p => simp [finish]
  | disconnected sent => simp [finish]
  | panicked sent => simp [finish]

/-- `data: a`, a carriage return, `b` and a line feed: the stream of one chunk
aborts the process. -/
theorem interior_cr_panics :
    ¬ ∀ sent, runStream plainContext (fun _ => true)
      [.bytes [0x64, 0x61, 0x74, 0x61, 0x3A, 0x20, 0x61, 0x0D, 0x62, 0x0A]] ≠ .panicked sent := by
  intro h
  exact h [] (by decide)

end MizanConnect.Proofs.Billing
