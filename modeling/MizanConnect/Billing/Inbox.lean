import MizanConnect.Billing.ReportsCron

/-!
# `MizanConnect.Billing.Inbox`: the reports of a user

`GET /v1/reports/monthly` of `src/billing/reports.rs`. The query has no ties, since a user
has one report for a period.
-/

set_option autoImplicit false

namespace MizanConnect.Billing.Reports

open Sql (Table)

/-- `limit.clamp(1, 24)` of an `i64`. -/
def pageSize (limit : Int) : Nat := (max 1 (min limit 24)).toNat

/-- `list_for_user`. -/
def listForUser (t : Table monthlyReports) (userId : Uuid) (limit : Int) : List MonthlyReport :=
  ((t.rows.filter (·.userId = userId)).insertionSort
    fun a b => b.periodStart ≤ a.periodStart).take (pageSize limit)

/-- `list_monthly_reports`. The limit of the query string is optional. -/
def listMonthlyReports (t : Table monthlyReports) (attempt : Attempt) (userId : Uuid)
    (limit : Option Int) : Except AppError (List MonthlyReport) :=
  attempt.query (listForUser t userId (limit.getD 12))

end MizanConnect.Billing.Reports
