import MizanConnect.Proofs.Billing.PaidAccess
import MizanConnect.Users.Handlers

/-!
# `MizanConnect.Proofs.Billing.PlansFrozen`: nobody gets a plan, nobody loses one

After the migrations the INSERTs of the service into `subscriptions` fail, and so does
every snapshot of a subscription that Stripe delivers. What is left are the charges and
the resets, and they write the counter columns and `updated_at`. So the plans are those of
the table that the service starts on, whatever Stripe delivers.

The user sees this at `/v1/me` (`shown_eq`), and the paid model is open to those only
who had it then.
-/

set_option autoImplicit false

namespace MizanConnect.Proofs.Billing

open MizanConnect.Billing
open MizanConnect.Billing.Repository
open MizanConnect.Billing.Subscriptions (Row afterMigrations)
open MizanConnect.Users (MeResponse TeamDto User buildMe)
open Sql (Table)
open Transition (run)

/-- What `fetch_active` selects, without the counter columns. -/
def planOf (sub : SubscriptionRow) : SubscriptionRow :=
  { sub with aiCreditsUsed := 0, aiCreditsPeriodStart := none }

/-- The team of a `/v1/me` answer, without the credits used. -/
def shown (me : MeResponse) : Option TeamDto :=
  me.team.map fun team => { team with aiCredits := { team.aiCredits with used := 0 } }

section
variable {ctx : SysContext} {db₀ : BillingDb afterMigrations} {as : List Action} {s : Sys}

/-- No commit changes a frozen column. -/
theorem frozen_rows (hrun : run (next ctx) (Sys.init db₀) as = some s) :
    s.db.subscriptions.rows.map frozen = db₀.subscriptions.rows.map frozen := by
  -- The induction is on the commit log, which gives the tables.
  refine Transition.run_invariant
    (P := fun db => db.subscriptions.rows.map frozen = db₀.subscriptions.rows.map frozen)
    (C := fun _ _ => True) (fun db c db' hdb _ hc => ?_) rfl (Transition.along_true _ _)
    (inv_run hrun).replay
  rw [rows_run hc, List.map_map, ← hdb]
  exact List.map_congr_left fun r _ => frozen_effect r

/-- A condition on frozen columns selects the same rows. -/
theorem filter_frozen {p : Row → Bool} (hp : OnFrozen p) (rows : List Row) :
    (rows.filter p).map frozen = (rows.map frozen).filter p := by
  have hsame : (p ∘ frozen) = p := funext fun r => hp (frozen r) r rfl
  rw [List.filter_map, hsame]

/-- The plan is read off frozen columns. -/
theorem planOf_frozen {r r' : Row} (h : frozen r = frozen r') :
    planOf (SubscriptionRow.ofRow r) = planOf (SubscriptionRow.ofRow r') := by
  have hread : ∀ r : Row, planOf (SubscriptionRow.ofRow r) =
      planOf (SubscriptionRow.ofRow (frozen r)) := fun _ => rfl
  rw [hread r, hread r', h]

/-- What is selected of a user's row, without the counter columns. There is one billable
row at most, so the order by the instant of the last update selects nothing. -/
theorem fetchActive_frozen {t t' : Table afterMigrations}
    (h : t'.rows.map frozen = t.rows.map frozen) (userId : Uuid) :
    (fetchActive t' userId).map planOf = (fetchActive t userId).map planOf := by
  have hrows : (t'.rows.filter (billableFor userId)).map frozen =
      (t.rows.filter (billableFor userId)).map frozen := by
    rw [filter_frozen (onFrozen_billableFor userId), h, filter_frozen (onFrozen_billableFor userId)]
  unfold fetchActive
  rcases filter_billableFor t' userId with hnone' | ⟨r', -, -, hone'⟩ <;>
    rcases filter_billableFor t userId with hnone | ⟨r, -, -, hone⟩
  · rw [hnone', hnone]
  · rw [hnone', hone] at hrows
    cases hrows
  · rw [hone', hnone] at hrows
    cases hrows
  · rw [hone', hone, List.map_singleton, List.map_singleton] at hrows
    rw [hone', hone]
    exact congrArg some (planOf_frozen (List.singleton_inj.mp hrows))

/-- What `/v1/me` says about the plan. -/
theorem shown_eq (formatRfc3339 : Timestamp → Option String) (user : User)
    {sub sub' : Option SubscriptionRow} (h : sub.map planOf = sub'.map planOf) :
    shown (buildMe formatRfc3339 user sub) = shown (buildMe formatRfc3339 user sub') := by
  have hread : ∀ sub : Option SubscriptionRow, shown (buildMe formatRfc3339 user sub) =
      shown (buildMe formatRfc3339 user (sub.map planOf)) := by
    intro sub
    cases sub <;> rfl
  rw [hread sub, hread sub', h]

/-- A row that pays for managed AI was there from the start, but for what is not
frozen. -/
theorem paid_from_start (hrun : run (next ctx) (Sys.init db₀) as = some s) {userId : Uuid}
    {kind : RequestKind} (h : PaidRow userId kind s.db.subscriptions) :
    ∃ r ∈ db₀.subscriptions.rows, r.userId = userId ∧
      (r.status = .active ∨ r.status = .trialing) ∧
      (entitlementsOf (some (SubscriptionRow.ofRow r))).managedAi = true := by
  obtain ⟨r, hr, howner, hstatus, hmanaged, -⟩ := h
  obtain ⟨x, hx, hfrozen⟩ := (inv_run hrun).frozen_eq hr
  have huser := congrArg Row.userId hfrozen
  have hsame := congrArg Row.status hfrozen
  have htier := congrArg Row.tier hfrozen
  simp only [frozen] at huser hsame htier
  have hentitled : entitlementsOf (some (SubscriptionRow.ofRow x)) =
      entitlementsOf (some (SubscriptionRow.ofRow r)) := by
    simp only [entitlementsOf, Option.map_some, SubscriptionRow.ofRow, hsame, htier]
  rw [← hentitled] at hmanaged
  exact ⟨x, hx, huser.symm.trans howner, by rwa [← hsame], hmanaged⟩

/-- In every run of deliveries, chats and usage reports, with any failures: the table
keeps its rows and every column but the two counter columns and `updated_at`. So what
`fetch_active` and `/v1/me` say about the plan of a user is what they said at the start,
and the paid model is open to those only who had it at the start. No delivery of Stripe
gives or takes a plan. -/
theorem plans_frozen (ctx : SysContext) (db₀ : BillingDb afterMigrations)
    (hrun : run (next ctx) (Sys.init db₀) as = some s) :
    s.db.subscriptions.rows.map frozen = db₀.subscriptions.rows.map frozen ∧
    (∀ userId, (fetchActive s.db.subscriptions userId).map planOf =
      (fetchActive db₀.subscriptions userId).map planOf) ∧
    (∀ formatRfc3339 user,
      shown (buildMe formatRfc3339 user (fetchActive s.db.subscriptions user.id)) =
        shown (buildMe formatRfc3339 user (fetchActive db₀.subscriptions user.id))) ∧
    ∀ (i : Nat) task phase, s.jobs[i]? = some (.chat task phase) → spends phase = true →
      ∃ r ∈ db₀.subscriptions.rows, r.userId = task.userId ∧
        (r.status = .active ∨ r.status = .trialing) ∧
        (entitlementsOf (some (SubscriptionRow.ofRow r))).managedAi = true := by
  have hrows := frozen_rows hrun
  refine ⟨hrows, fetchActive_frozen hrows,
    fun formatRfc3339 user => shown_eq formatRfc3339 user (fetchActive_frozen hrows user.id), ?_⟩
  intro i task phase hi hspends
  have hjob := (funded_run hrun).jobs i _ hi
  have hearlier : Earlier ctx db₀ as (PaidRow task.userId task.request.requestKind) := by
    cases phase with
    | received => cases hspends
    | fetched sub => cases hspends
    | finished => cases hspends
    | _ => exact hjob
  obtain ⟨pre, post, m, -, hm, hpaid⟩ := hearlier
  exact paid_from_start hm hpaid

end

/-- `plans_frozen` at the run of `paid_access_charged`: a charge and a reset later, the
row of the user has its plan. -/
theorem plans_frozen_charged :
    ∃ s, run (next (sampleContext [invoiceSample])) (Sys.init (payingDb 0 (by decide)))
        ledgerRun = some s ∧
      s.log.map Prod.fst = [0, 1, 2] ∧
      s.db.subscriptions.rows.map frozen =
        (payingDb 0 (by decide)).subscriptions.rows.map frozen := by
  have hsome : (run (next (sampleContext [invoiceSample])) (Sys.init (payingDb 0 (by decide)))
      ledgerRun).map (fun s => s.log.map Prod.fst) = some [0, 1, 2] := by
    decide +kernel
  obtain ⟨s, hs, hlog⟩ := Option.map_eq_some_iff.mp hsome
  exact ⟨s, hs, hlog, (plans_frozen _ _ hs).1⟩

end MizanConnect.Proofs.Billing
