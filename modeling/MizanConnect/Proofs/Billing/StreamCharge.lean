import MizanConnect.Billing.Streamer
import MizanConnect.Proofs.Billing.CreditCap
import MizanConnect.Proofs.Billing.WebhookAtomic
import MizanConnect.Proofs.Billing.StreamPanic

/-!
# `MizanConnect.Proofs.Billing.StreamCharge`: what a stream costs

A stream is charged once when its loop reaches `[DONE]` with every event before
it taken by the receiver (`Reached`), and the counter of the user can hold the
charge. Otherwise nothing is written. `processPayloads_eq_done_iff` has the
first half, `reconcile_some` and `reconcile_none` the second.
-/

set_option autoImplicit false

namespace MizanConnect.Proofs.Billing

open MizanConnect.Billing
open Repository
open Subscriptions (Row afterMigrations)
open Sql (Table)

/-! ### Reaching `[DONE]` -/

/-- The last usage in the payloads, or none spent. -/
def lastUsage (ctx : StreamContext) (initial : TokenUsage) (payloads : List (List Char)) :
    TokenUsage :=
  (payloads.filterMap (usageOf ctx)).getLast?.getD initial

theorem lastUsage_cons (ctx : StreamContext) (initial : TokenUsage) (payload : List Char)
    (payloads : List (List Char)) :
    lastUsage ctx initial (payload :: payloads)
      = lastUsage ctx ((usageOf ctx payload).getD initial) payloads := by
  unfold lastUsage
  cases husage : usageOf ctx payload with
  | none =>
    rw [List.filterMap_cons_none husage]
    rfl
  | some usage =>
    rw [List.filterMap_cons_some husage, List.getLast?_cons, Option.getD_some, Option.getD_some]

/-- The payloads are all sent: each has an event that the receiver takes, and
none ends the stream. -/
def Sent (connected : Nat → Bool) (k : Nat) (payloads : List (List Char)) : Prop :=
  Passed connected k payloads ∧ ∀ payload ∈ payloads, '\r' ∉ payload

theorem sent_nil {connected : Nat → Bool} (k : Nat) : Sent connected k [] :=
  ⟨passed_nil k, fun _ h => nomatch h⟩

theorem sent_cons {connected : Nat → Bool} {k : Nat} {payload : List Char}
    {payloads : List (List Char)} :
    Sent connected k (payload :: payloads) ↔
      payload ≠ doneMarker ∧ connected k = true ∧ '\r' ∉ payload ∧
        Sent connected (k + 1) payloads := by
  unfold Sent
  rw [passed_cons, List.forall_mem_cons]
  constructor
  · intro ⟨⟨hdone, hk, hpassed⟩, hcr, hrest⟩
    exact ⟨hdone, hk, hcr, hpassed, hrest⟩
  · intro ⟨hdone, hk, hcr, hpassed, hrest⟩
    exact ⟨⟨hdone, hk, hpassed⟩, hcr, hrest⟩

/-- The loop is left at `[DONE]` with a usage exactly when all payloads before
the first `[DONE]` are sent and their last usage is this one. -/
theorem processPayloads_eq_done_iff (ctx : StreamContext) (connected : Nat → Bool)
    (p : Progress) (payloads : List (List Char)) (usage : TokenUsage) :
    (∃ sent, processPayloads ctx connected p payloads = .done ⟨usage, sent⟩) ↔
      ∃ earlier rest, payloads = earlier ++ doneMarker :: rest ∧
        Sent connected p.sent.length earlier ∧ usage = lastUsage ctx p.usage earlier := by
  induction payloads generalizing p with
  | nil => simp [processPayloads]
  | cons q payloads ih =>
    -- `[DONE]` is `q`, or lies behind a `q` that is sent.
    have hreached : (∃ earlier rest, q :: payloads = earlier ++ doneMarker :: rest ∧
          Sent connected p.sent.length earlier ∧ usage = lastUsage ctx p.usage earlier) ↔
        (q = doneMarker ∧ usage = p.usage) ∨
        (q ≠ doneMarker ∧ connected p.sent.length = true ∧ '\r' ∉ q ∧
          ∃ earlier rest, payloads = earlier ++ doneMarker :: rest ∧
            Sent connected (p.sent.length + 1) earlier ∧
            usage = lastUsage ctx ((usageOf ctx q).getD p.usage) earlier) := by
      constructor
      · rintro ⟨earlier, rest, hsplit, hsent, husage⟩
        cases earlier with
        | nil =>
          cases hsplit
          exact Or.inl ⟨rfl, husage⟩
        | cons first earlier =>
          cases hsplit
          obtain ⟨hdone, hk, hcr, hsent⟩ := sent_cons.mp hsent
          rw [lastUsage_cons] at husage
          exact Or.inr ⟨hdone, hk, hcr, earlier, rest, rfl, hsent, husage⟩
      · intro h
        cases h with
        | inl hfirst =>
          obtain ⟨rfl, husage⟩ := hfirst
          exact ⟨[], payloads, rfl, sent_nil _, husage⟩
        | inr hbehind =>
          obtain ⟨hdone, hk, hcr, earlier, rest, rfl, hsent, husage⟩ := hbehind
          refine ⟨q :: earlier, rest, rfl, sent_cons.mpr ⟨hdone, hk, hcr, hsent⟩, ?_⟩
          rw [lastUsage_cons]
          exact husage
    rw [hreached, processPayloads]
    unfold processPayload
    by_cases hdone : q = doneMarker
    -- `[DONE]` ends the stream also when the receiver is gone.
    · by_cases hk : connected p.sent.length = true
      · simp [hdone, hk, eq_comm]
      · simp only [hdone, hk, Bool.false_eq_true, if_true, if_false, Flow.done.injEq, ne_eq,
          not_true_eq_false, false_and, or_false, true_and]
        constructor
        · rintro ⟨sent, h⟩
          exact (congrArg Progress.usage h).symm
        · intro h
          exact ⟨p.sent, by rw [h]⟩
    · by_cases hcr : '\r' ∈ q
      · simp [hdone, hcr]
      · by_cases hk : connected p.sent.length = true
        -- The event is sent, and the loop goes on with its usage.
        · have hnext := ih ⟨(usageOf ctx q).getD p.usage, p.sent ++ [q]⟩
          simp only [List.length_append, List.length_singleton] at hnext
          simpa [hdone, hcr, hk] using hnext
        · simp [hdone, hcr, hk]

/-- A complete line `data: [DONE]` is reached with every data event before it
taken, and `usage` is the last usage before it. -/
def Reached (ctx : StreamContext) (connected : Nat → Bool) (chunks : List Chunk)
    (usage : TokenUsage) : Prop :=
  ∃ earlier rest, dataPayloads chunks = earlier ++ doneMarker :: rest ∧
    Sent connected 0 earlier ∧ usage = lastUsage ctx TokenUsage.default earlier

theorem charged_runStream (ctx : StreamContext) (connected : Nat → Bool) (chunks : List Chunk)
    (usage : TokenUsage) :
    (runStream ctx connected chunks).charged = some usage ↔
      Reached ctx connected chunks usage := by
  have hdone := processPayloads_eq_done_iff ctx connected ⟨TokenUsage.default, []⟩
    (dataPayloads chunks) usage
  rw [List.length_nil] at hdone
  unfold Reached
  rw [← hdone, runStream_eq_payloads]
  cases processPayloads ctx connected ⟨TokenUsage.default, []⟩ (dataPayloads chunks) with
  | more p => simp [finish, StreamEnd.charged]
  | done p =>
    obtain ⟨last, sent⟩ := p
    simp [finish, StreamEnd.charged]
  | disconnected sent => simp [finish, StreamEnd.charged]
  | panicked sent => simp [finish, StreamEnd.charged]

/-! ### The ledger transaction -/

/-- One charge: a ledger row with the tokens and the price of the usage, and
the price on the counter of the user's billable row. -/
structure Charged (ctx : SysContext) (task : ChatTask) (usage : TokenUsage)
    (db db' : BillingDb afterMigrations) : Prop where
  ledger : ∃ row : LedgerRow, db'.ledger = db.ledger ++ [row] ∧ row.userId = task.userId ∧
    row.metric = .aiReply ∧ row.units = usage.totalTokens.toNat ∧
    row.costCredits = usage.credits ctx.quotient ∧
    row.model = some (task.request.model.getD defaultModel) ∧
    row.kind = some task.request.requestKind.asStr
  counter : db'.subscriptions.rows = db.subscriptions.rows.map fun r =>
    if billableFor task.userId r then chargeRow task.txTime (usage.credits ctx.quotient) r else r
  events : db'.events = db.events

section
variable {ctx : SysContext} {task : ChatTask} {usage : TokenUsage}
  {db db' : BillingDb afterMigrations}

/-- The price is positive, so the ledger takes every usage below 2^31
tokens. -/
theorem chargeLedgerRow_some (ctx : SysContext) (task : ChatTask)
    (htotal : usage.totalTokens.toNat < 2 ^ 31) :
    ∃ row, chargeLedgerRow task.userId (task.request.model.getD defaultModel)
        task.request.requestKind usage (usage.credits ctx.quotient) = .ok row ∧
      row.userId = task.userId ∧ row.metric = .aiReply ∧
      row.units = usage.totalTokens.toNat ∧ row.costCredits = usage.credits ctx.quotient ∧
      row.model = some (task.request.model.getD defaultModel) ∧
      row.kind = some task.request.requestKind.asStr := by
  -- `as i32` keeps a count below 2^31.
  have hunits : wrapI32 usage.totalTokens.toNat = usage.totalTokens.toNat := by
    apply wrapI32_eq
    simp only [isI32, decide_eq_true_eq]
    omega
  have hcost : 1 ≤ usage.credits ctx.quotient := one_le_creditsForTokens _ _ _
  have hmetric : UsageMetric.ofStr? "ai_reply" = some .aiReply := by decide
  unfold chargeLedgerRow recordUsage
  rw [hunits, hmetric]
  dsimp only
  rw [dif_pos (by omega), dif_pos (by omega)]
  exact ⟨_, rfl, rfl, rfl, rfl, rfl, rfl, rfl⟩

/-- The one billable row of a user is all that `billableFor` selects. -/
theorem filter_eq_singleton {t : Table afterMigrations} {userId : Uuid} {r : Row}
    (hr : r ∈ t.rows) (hbill : billableFor userId r = true) :
    t.rows.filter (billableFor userId) = [r] := by
  have hmem : r ∈ t.rows.filter (billableFor userId) := List.mem_filter.mpr ⟨hr, hbill⟩
  cases filter_billableFor t userId with
  | inl hnone =>
    rw [hnone] at hmem
    exact nomatch hmem
  | inr hsome =>
    obtain ⟨x, -, -, hone⟩ := hsome
    rw [hone, List.mem_singleton] at hmem
    rw [hone, hmem]

/-- The rows of a charge can be committed. -/
theorem write_of_addAiCreditsUsed {t : Table afterMigrations} {userId : Uuid} {now : Timestamp}
    {credits : Int} {rows : List Row} (h : addAiCreditsUsed t now userId credits = .ok rows) :
    ∃ t', t.write rows = .ok t' := by
  unfold addAiCreditsUsed at h
  split at h
  · exact nomatch h
  · exact nomatch h
  · rename_i versions _ hexec
    cases h
    exact (Table.exec_ok_iff.mp hexec).1 ▸ (Table.exec_ok_iff.mp hexec).2

/-- A counter that can hold the charge gets it, with a ledger row. -/
theorem reconcile_some {r : Row} (hr : r ∈ db.subscriptions.rows)
    (hbill : billableFor task.userId r = true) (htotal : usage.totalTokens.toNat < 2 ^ 31)
    (hrange : isI32 (r.aiCreditsUsed + usage.credits ctx.quotient) = true) :
    Charged ctx task usage db (reconcile ctx task usage db) := by
  obtain ⟨row, hrow, huser, hmetric, hunits, hcost, hmodel, hkind⟩ :=
    chargeLedgerRow_some ctx task htotal
  have hone := filter_eq_singleton hr hbill
  have hadd : addAiCreditsUsed db.subscriptions task.txTime task.userId row.costCredits
      = .ok [chargeRow task.txTime (usage.credits ctx.quotient) r] := by
    rw [hcost, addAiCreditsUsed_some _ _ hr hone, if_pos hrange]
  obtain ⟨subscriptions, hwrite⟩ := write_of_addAiCreditsUsed hadd
  -- The ledger row, the counter, and the commit of both.
  have htx : ledgerTx ctx task usage db
      = .ok { db with subscriptions, ledger := db.ledger ++ [row] } :=
    except_bind_eq_ok.mpr ⟨row, mapError_eq_ok.mpr hrow,
      chargeTx_ok.mpr ⟨_, subscriptions, hadd, hwrite, rfl⟩⟩
  have hdb : reconcile ctx task usage db
      = { db with subscriptions, ledger := db.ledger ++ [row] } := by
    unfold reconcile
    rw [htx]
    rfl
  rw [hdb]
  refine ⟨⟨row, rfl, huser, hmetric, hunits, hcost, hmodel, hkind⟩, ?_, rfl⟩
  -- The one new version, as an UPDATE of the billable rows.
  have hversions : [chargeRow task.txTime (usage.credits ctx.quotient) r]
      = db.subscriptions.updated (billableFor task.userId)
          (chargeRow task.txTime (usage.credits ctx.quotient)) := by
    rw [Table.updated, hone, List.map_singleton]
  rw [hversions] at hwrite
  exact Table.write_updated_rows (fun _ => rfl) hwrite

/-- A counter that cannot hold it rolls the ledger row back. -/
theorem reconcile_none {r : Row} (hr : r ∈ db.subscriptions.rows)
    (hbill : billableFor task.userId r = true)
    (hrange : isI32 (r.aiCreditsUsed + usage.credits ctx.quotient) = false) :
    reconcile ctx task usage db = db := by
  have hone := filter_eq_singleton hr hbill
  unfold reconcile
  cases htx : ledgerTx ctx task usage db with
  | error e => rfl
  | ok db' =>
    -- The UPDATE overflows, so no commit is reached.
    exfalso
    obtain ⟨row, hrow, htx⟩ := except_bind_eq_ok.mp htx
    obtain ⟨rows, _, hadd, -, -⟩ := chargeTx_ok.mp htx
    rw [(chargeLedgerRow_ok (mapError_eq_ok.mp hrow)).2, addAiCreditsUsed_some _ _ hr hone,
      hrange, if_neg Bool.false_ne_true] at hadd
    exact nomatch hadd

end

/-! ### The whole task -/

/-- The task ends, and leaves the tables as the charge of its usage does. -/
theorem runStreamTask_eq (ctx : SysContext) (task : ChatTask) (connected : Nat → Bool)
    (chunks : List Chunk) (db : BillingDb afterMigrations) :
    runStreamTask ctx task connected chunks db
      = some (((runStream ctx.stream connected chunks).charged.map
          fun usage => reconcile ctx task usage db).getD db) := by
  unfold runStreamTask
  rw [streamLoop_eq, Option.map_some]
  rfl

/-- A stream of a user with a billable row is charged once, with its last usage
before `[DONE]`, when it gets there with every event before it taken and the
counter can hold the charge. In every other case nothing is written. -/
theorem charged_once_or_never (ctx : SysContext) (task : ChatTask) (connected : Nat → Bool)
    (chunks : List Chunk) (db : BillingDb afterMigrations) (r : Row)
    (hr : r ∈ db.subscriptions.rows) (hbill : billableFor task.userId r = true)
    (htotal : ∀ usage, Reached ctx.stream connected chunks usage →
      usage.totalTokens.toNat < 2 ^ 31) :
    ∃ db', runStreamTask ctx task connected chunks db = some db' ∧
      ((∃ usage, Reached ctx.stream connected chunks usage ∧
          r.aiCreditsUsed + usage.credits ctx.quotient ≤ 2147483647 ∧
          Charged ctx task usage db db') ∨
        (∀ usage, Reached ctx.stream connected chunks usage →
          2147483647 < r.aiCreditsUsed + usage.credits ctx.quotient) ∧ db' = db) := by
  refine ⟨_, runStreamTask_eq ctx task connected chunks db, ?_⟩
  cases hcharged : (runStream ctx.stream connected chunks).charged with
  | none =>
    refine Or.inr ⟨?_, rfl⟩
    intro usage hreached
    rw [(charged_runStream ctx.stream connected chunks usage).mpr hreached] at hcharged
    exact nomatch hcharged
  | some usage =>
    have hreached := (charged_runStream ctx.stream connected chunks usage).mp hcharged
    have hused := isI32_used hr
    have hcost : 1 ≤ usage.credits ctx.quotient := one_le_creditsForTokens _ _ _
    simp only [isI32, decide_eq_true_eq] at hused
    rw [Option.map_some, Option.getD_some]
    by_cases hfits : r.aiCreditsUsed + usage.credits ctx.quotient ≤ 2147483647
    · have hrange : isI32 (r.aiCreditsUsed + usage.credits ctx.quotient) = true := by
        simp only [isI32, decide_eq_true_eq]
        omega
      exact Or.inl ⟨usage, hreached, hfits,
        reconcile_some hr hbill (htotal usage hreached) hrange⟩
    · have hrange : isI32 (r.aiCreditsUsed + usage.credits ctx.quotient) = false := by
        simp only [isI32, decide_eq_false_iff_not]
        omega
      refine Or.inr ⟨?_, reconcile_none hr hbill hrange⟩
      intro other hother
      -- The stream reaches `[DONE]` once, with one usage.
      have hsame := (charged_runStream ctx.stream connected chunks other).mpr hother
      rw [hcharged] at hsame
      rw [← Option.some.inj hsame]
      omega

/-- A chat of the user of `payingDb`. -/
def payingTask : ChatTask := ⟨stubRow.userId, ⟨none, none⟩, 1⟩

/-- An event without a usage, one with a usage of 5000 tokens, and `[DONE]`. The
second chunk begins inside the usage. -/
def eventChunks : List Chunk :=
  let text := asBytes ("data: \x7b\"choices\":[]\x7d\n\ndata: " ++ String.ofList usageReply ++
    "\n\ndata: [DONE]\n\n")
  [.bytes (text.take 40), .bytes (text.drop 40)]

theorem reached_eventChunks {usage : TokenUsage} :
    Reached sampleStream (fun _ => true) eventChunks usage ↔ usage = ⟨5000, 0, 5000⟩ := by
  have hcharged : (runStream sampleStream (fun _ => true) eventChunks).charged
      = some ⟨5000, 0, 5000⟩ := by decide +kernel
  rw [← charged_runStream, hcharged, Option.some.injEq]
  exact eq_comm

/-- Seven credits and five for the reply. -/
theorem charged_once_or_never_done :
    ∃ db', runStreamTask (sampleContext []) payingTask (fun _ => true) eventChunks
        (payingDb 7 (by decide)) = some db' ∧
      db'.subscriptions.rows.map (·.aiCreditsUsed) = [12] ∧ db'.ledger.length = 1 := by
  obtain ⟨db', hdb', houtcome⟩ := charged_once_or_never (sampleContext []) payingTask
    (fun _ => true) eventChunks (payingDb 7 (by decide)) (payingRow 7) List.mem_cons_self
    (by decide) (fun usage h => by
      rw [reached_eventChunks.mp h]
      decide)
  refine ⟨db', hdb', ?_⟩
  have hcredits : TokenUsage.credits (sampleContext []).quotient ⟨5000, 0, 5000⟩ = 5 := by
    decide +kernel
  cases houtcome with
  | inl hcharged =>
    obtain ⟨usage, hreached, -, hcharged⟩ := hcharged
    rw [reached_eventChunks.mp hreached] at hcharged
    obtain ⟨row, hledger, -⟩ := hcharged.ledger
    rw [hcharged.counter, hledger, hcredits]
    exact ⟨by decide, rfl⟩
  | inr hnothing =>
    have hover := hnothing.1 ⟨5000, 0, 5000⟩ (reached_eventChunks.mpr rfl)
    rw [hcredits] at hover
    exact absurd hover (by decide)

/-- The line `data: [DONE]` and nothing else. -/
def doneChunks : List Chunk :=
  [.bytes [0x64, 0x61, 0x74, 0x61, 0x3A, 0x20, 0x5B, 0x44, 0x4F, 0x4E, 0x45, 0x5D, 0x0A]]

theorem reached_doneChunks (ctx : StreamContext) {usage : TokenUsage} :
    Reached ctx (fun _ => true) doneChunks usage ↔ usage = TokenUsage.default := by
  have hpayloads : dataPayloads doneChunks = [] ++ doneMarker :: [] := by decide
  constructor
  · intro ⟨earlier, rest, hsplit, _, husage⟩
    rw [hpayloads] at hsplit
    cases earlier with
    | nil => exact husage
    | cons first earlier => simp at hsplit
  · intro h
    exact ⟨[], [], hpayloads, sent_nil 0, h⟩

/-- With a full counter a stream reaches `[DONE]` and is not charged. -/
theorem full_counter_not_charged :
    Reached (sampleContext []).stream (fun _ => true) doneChunks TokenUsage.default ∧
      TokenUsage.default.totalTokens.toNat < 2 ^ 31 ∧
      ¬ ∃ db', runStreamTask (sampleContext []) payingTask (fun _ => true) doneChunks
          (payingDb 2147483647 (by decide)) = some db' ∧
        ∃ row, db'.ledger = (payingDb 2147483647 (by decide)).ledger ++ [row] := by
  refine ⟨(reached_doneChunks _).mpr rfl, by decide, ?_⟩
  rintro ⟨db', hdb', row, hledger⟩
  have hlength : (runStreamTask (sampleContext []) payingTask (fun _ => true) doneChunks
      (payingDb 2147483647 (by decide))).map (·.ledger.length) = some 0 := by decide +kernel
  rw [hdb', Option.map_some, hledger] at hlength
  simp at hlength

end MizanConnect.Proofs.Billing
