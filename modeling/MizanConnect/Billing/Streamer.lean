import MizanConnect.Billing.System

/-!
# `MizanConnect.Billing.Streamer`: `run_stream` from the first chunk to the charge

The loop over the lines of one chunk is spelled out here as the source has it,
with a bound on its turns. `streamLoop_eq` shows that the bound is never
reached and that the loop is that of `Billing.AiProxy`. `runStreamTask` adds
the ledger transaction, on a database whose statements fail by constraints
only.
-/

set_option autoImplicit false

namespace MizanConnect.Billing

open Subscriptions (afterMigrations)

/-- The loop over the complete lines of the buffer, in at most `fuel` turns:
where it goes on, and what it leaves in the buffer. -/
def lineLoop (ctx : StreamContext) (connected : Nat → Bool) :
    Nat → Progress → List Char → Option (Flow × List Char)
  | 0, _, _ => none
  | fuel + 1, p, buf =>
    match buf.dropWhile (· ≠ '\n') with
    | [] => some (.more p, buf)
    | _ :: rest =>
      match processLine ctx connected p (buf.takeWhile (· ≠ '\n')) with
      | .more p' => lineLoop ctx connected fuel p' rest
      | flow => some (flow, rest)

/-- The loop of `run_stream` over the chunks, with one turn of the line loop
for each character in the buffer and one more. -/
def streamLoop (ctx : StreamContext) (connected : Nat → Bool) (p : Progress) (buf : List Char) :
    List Chunk → Option StreamEnd
  | [] => some (.finished p.sent p.usage false)
  | .failed :: _ => some (.finished p.sent p.usage false)
  | .bytes bs :: chunks =>
    let buf := buf ++ Utf8.fromUtf8Lossy bs
    match lineLoop ctx connected (buf.length + 1) p buf with
    | none => none
    | some (.more p', rest) => streamLoop ctx connected p' rest chunks
    | some (.done p', _) => some (.finished p'.sent p'.usage true)
    | some (.disconnected sent, _) => some (.disconnected sent)
    | some (.panicked sent, _) => some (.panicked sent)

/-- The ledger transaction of `run_stream`: the row, then the counter. -/
def ledgerTx (ctx : SysContext) (task : ChatTask) (usage : TokenUsage)
    (db : BillingDb afterMigrations) : Except DbError (BillingDb afterMigrations) := do
  let row ← (chargeLedgerRow task.userId (task.request.model.getD defaultModel)
    task.request.requestKind usage (usage.credits ctx.quotient)).mapError .violation
  chargeTx task.userId task.txTime row db

/-- The reconciliation of `run_stream`. A statement that fails rolls the
transaction back. -/
def reconcile (ctx : SysContext) (task : ChatTask) (usage : TokenUsage)
    (db : BillingDb afterMigrations) : BillingDb afterMigrations :=
  (ledgerTx ctx task usage db).toOption.getD db

/-- `run_stream`: the tables it leaves, when its line loop terminates. -/
def runStreamTask (ctx : SysContext) (task : ChatTask) (connected : Nat → Bool)
    (chunks : List Chunk) (db : BillingDb afterMigrations) :
    Option (BillingDb afterMigrations) :=
  (streamLoop ctx.stream connected ⟨TokenUsage.default, []⟩ [] chunks).map fun streamEnd =>
    (streamEnd.charged.map fun usage => reconcile ctx task usage db).getD db

/-! ### The line loop terminates -/

/-- A buffer with a line feed, cut at the first one. -/
theorem takeWhile_dropWhile_lf (buf : List Char) :
    (buf.dropWhile (· ≠ '\n') = [] ∧ ∀ c ∈ buf, decide (c = '\n') = false) ∨
      ∃ rest, buf.dropWhile (· ≠ '\n') = '\n' :: rest ∧
        buf = buf.takeWhile (· ≠ '\n') ++ '\n' :: rest ∧
        ∀ c ∈ buf.takeWhile (· ≠ '\n'), decide (c = '\n') = false := by
  cases hdrop : buf.dropWhile (· ≠ '\n') with
  | nil =>
    refine Or.inl ⟨rfl, ?_⟩
    intro c hc
    have hall := List.dropWhile_eq_nil_iff.mp hdrop c hc
    simpa using hall
  | cons x rest =>
    have hx : x = '\n' := by
      have hne : buf.dropWhile (· ≠ '\n') ≠ [] := by
        rw [hdrop]
        exact List.cons_ne_nil x rest
      have hhead := List.head_dropWhile_not (fun c : Char => decide (c ≠ '\n')) hne
      simp only [hdrop, List.head_cons] at hhead
      simpa using hhead
    subst hx
    refine Or.inr ⟨rest, rfl, ?_, ?_⟩
    · rw [← hdrop, List.takeWhile_append_dropWhile]
    · intro c hc
      have hne := List.mem_takeWhile_imp hc
      simpa using hne

/-- With more turns than characters the loop processes the complete lines, and
leaves the rest when it goes on. Every turn takes a line feed out of the
buffer. -/
theorem lineLoop_eq (ctx : StreamContext) (connected : Nat → Bool) (fuel : Nat) (p : Progress)
    (buf : List Char) (h : buf.length < fuel) :
    ∃ rest, lineLoop ctx connected fuel p buf
        = some (processLines ctx connected p (Lines.takeLines (· = '\n') buf).1, rest) ∧
      ∀ p', processLines ctx connected p (Lines.takeLines (· = '\n') buf).1 = .more p' →
        rest = (Lines.takeLines (· = '\n') buf).2 := by
  induction fuel generalizing p buf with
  | zero => exact absurd h (Nat.not_lt_zero _)
  | succ fuel ih =>
    rw [lineLoop]
    cases takeWhile_dropWhile_lf buf with
    | inl hnone =>
      obtain ⟨hdrop, hfree⟩ := hnone
      rw [hdrop, Lines.takeLines_rest hfree]
      exact ⟨buf, rfl, fun _ _ => rfl⟩
    | inr hsome =>
      obtain ⟨rest, hdrop, hbuf, hfree⟩ := hsome
      have hlines : Lines.takeLines (· = '\n') buf
          = (buf.takeWhile (· ≠ '\n') :: (Lines.takeLines (· = '\n') rest).1,
            (Lines.takeLines (· = '\n') rest).2) := by
        conv_lhs => rw [hbuf]
        exact Lines.takeLines_line hfree (by decide)
      have hshorter : rest.length < fuel := by
        have hlength := congrArg List.length hbuf
        rw [List.length_append, List.length_cons] at hlength
        omega
      rw [hdrop, hlines]
      simp only [processLines]
      cases processLine ctx connected p (buf.takeWhile (· ≠ '\n')) with
      | more p' => exact ih p' rest hshorter
      | done p' => exact ⟨rest, rfl, fun _ h => nomatch h⟩
      | disconnected sent => exact ⟨rest, rfl, fun _ h => nomatch h⟩
      | panicked sent => exact ⟨rest, rfl, fun _ h => nomatch h⟩

/-- The line loop terminates on every chunk, and the stream ends as that of
`runStream`. -/
theorem streamLoop_eq (ctx : StreamContext) (connected : Nat → Bool) (p : Progress)
    (buf : List Char) (chunks : List Chunk) :
    streamLoop ctx connected p buf chunks = some (pump ctx connected p buf chunks) := by
  induction chunks generalizing p buf with
  | nil => rfl
  | cons chunk chunks ih =>
    cases chunk with
    | failed => rfl
    | bytes bs =>
      obtain ⟨rest, hloop, hrest⟩ := lineLoop_eq ctx connected
        ((buf ++ Utf8.fromUtf8Lossy bs).length + 1) p (buf ++ Utf8.fromUtf8Lossy bs) (by omega)
      rw [streamLoop, pump]
      simp only [hloop]
      cases hflow : processLines ctx connected p
          (Lines.takeLines (· = '\n') (buf ++ Utf8.fromUtf8Lossy bs)).1 with
      | more p' =>
        rw [hrest p' hflow]
        exact ih p' _
      | done p' => rfl
      | disconnected sent => rfl
      | panicked sent => rfl

end MizanConnect.Billing
