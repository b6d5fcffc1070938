import Mathlib.Data.List.Sort
import MizanConnect.Error
import MizanConnect.Lib.Calendar
import MizanConnect.Types

/-!
# `MizanConnect.Billing.Reports`: the monthly reports

`src/billing/reports.rs` over the table `monthly_reports` of the migration
0004. The foreign key to `users` is left out, because no query here can break
it.
-/

set_option autoImplicit false

namespace MizanConnect.Billing.Reports

open Calendar (Date Month)
open Sql (Schema Table Violation uniqueOn)

/-! ### The table -/

/-- A row of `monthly_reports`. -/
structure MonthlyReport where
  id : Uuid
  userId : Uuid
  periodStart : Date
  periodEnd : Date
  summaryMd : Option String
  model : Option String
  creditsCharged : Int
  status : String
  error : Option String
  requestedAt : Timestamp
  generatedAt : Option Timestamp
deriving DecidableEq

/-- `monthly_reports`. -/
def monthlyReports : Schema MonthlyReport Uuid where
  key := MonthlyReport.id
  violation r :=
    if isI32 r.creditsCharged = false then some (.outOfRange "credits_charged")
    else if r.status ∉ ["pending", "succeeded", "failed"] then
      some (.check "monthly_reports_status_check")
    else none
  clash := uniqueOn fun r => some (r.userId, r.periodStart)
  clash_comm := Sql.uniqueOn_comm _

/-! ### The queries -/

/-- `enqueue_pending`: the table after it, and whether it inserted the row. -/
def enqueuePending (t : Table monthlyReports) (now : Timestamp) (newId userId : Uuid)
    (periodStart periodEnd : Date) : Except Violation (Table monthlyReports × Bool) :=
  if t.rows.any fun r => r.userId = userId ∧ r.periodStart = periodStart then .ok (t, false)
  else
    (t.insert
      { id := newId, userId, periodStart, periodEnd, summaryMd := none, model := none,
        creditsCharged := 0, status := "pending", error := none, requestedAt := now,
        generatedAt := none }).map fun t => (t, true)

/-- `fetch_pending`. Rows that tie keep the table order. -/
def fetchPending (t : Table monthlyReports) (limit : Nat) : List MonthlyReport :=
  ((t.rows.filter (·.status = "pending")).insertionSort
    fun a b => a.requestedAt ≤ b.requestedAt).take limit

/-- `fetch_one_by_period`. -/
def fetchOneByPeriod (t : Table monthlyReports) (userId : Uuid) (periodStart : Date) :
    Option MonthlyReport :=
  t.rows.find? fun r => r.userId = userId ∧ r.periodStart = periodStart

/-- The SET list of `mark_succeeded`. -/
def succeededRow (now : Timestamp) (summaryMd model : String) (credits : Int)
    (r : MonthlyReport) : MonthlyReport :=
  { r with
    status := "succeeded"
    summaryMd := some summaryMd
    model := some model
    creditsCharged := credits
    generatedAt := some now
    error := none }

/-- `mark_succeeded`. -/
def markSucceeded (t : Table monthlyReports) (now : Timestamp) (id : Uuid)
    (summaryMd model : String) (credits : Int) : Except Violation (Table monthlyReports) :=
  t.updateWhere (·.id = id) (succeededRow now summaryMd model credits)

/-- The SET list of `mark_failed`. -/
def failedRow (now : Timestamp) (reason : String) (r : MonthlyReport) : MonthlyReport :=
  { r with status := "failed", error := some reason, generatedAt := some now }

/-- `mark_failed`. -/
def markFailed (t : Table monthlyReports) (now : Timestamp) (id : Uuid) (reason : String) :
    Except Violation (Table monthlyReports) :=
  t.updateWhere (·.id = id) (failedRow now reason)

/-! ### The period -/

/-- `previous_month_window`. The years that `time::Date` cannot hold are left
out. -/
def previousMonthWindow (today : Date) : Date × Date :=
  let year := if today.month.1 = 1 then today.year - 1 else today.year
  let start := Date.firstOf year today.month.previous
  let nextMonthFirst :=
    if start.month.1 = 12 then Date.firstOf (start.year + 1) .january
    else Date.firstOf start.year start.month.next
  (start, nextMonthFirst.previousDay)

/-- The window is the whole month before. -/
theorem previousMonthWindow_eq (today : Date) : previousMonthWindow today =
    (Date.firstOf (if today.month.1 = 1 then today.year - 1 else today.year) today.month.previous,
      (Date.firstOf today.year today.month).previousDay) := by
  have hnext := today.month.next_previous
  rw [previousMonthWindow, Prod.mk.injEq]
  refine ⟨rfl, congrArg Date.previousDay ?_⟩
  by_cases hjanuary : today.month.1 = 1
  · have hmonth : today.month = Month.january := Subtype.ext hjanuary
    rw [hmonth]
    simp [Date.firstOf, Month.previous, Month.january, Month.december]
  · have hother : ¬ today.month.previous.1 = 12 := by
      have hle := today.month.2.2
      simp only [Month.previous, dif_neg hjanuary]
      omega
    simp only [if_neg hjanuary, Date.firstOf, if_neg hother, hnext]

/-- A date that `time::Date` can hold: its years are -9999 to 9999, as the
feature `large-dates` is off. -/
def Representable (d : Date) : Prop := -9999 ≤ d.year ∧ d.year ≤ 9999

instance (d : Date) : Decidable (Representable d) :=
  inferInstanceAs (Decidable (_ ∧ _))

/-- `Date::from_calendar_date`. -/
def fromCalendarDate (year : Int) (month : Month) (day : Nat) : Option Date :=
  if h : 1 ≤ day ∧ day ≤ Calendar.daysInMonth year month then
    if Representable ⟨year, month, day, h⟩ then some ⟨year, month, day, h⟩ else none
  else none

/-- `date - Duration::days(1)`, which panics below the first date. -/
def subOneDay (d : Date) : Option Date :=
  if Representable d.previousDay then some d.previousDay else none

/-- The `next_month_first` of `previous_month_window`. -/
def nextMonthFirst (start : Date) : Option Date :=
  if start.month.1 = 12 then fromCalendarDate (start.year + 1) .january 1
  else fromCalendarDate start.year start.month.next 1

/-- `previous_month_window` with the range of `time::Date`: `none` where an
`expect` fires or the subtraction panics. -/
def checkedPreviousMonthWindow (today : Date) : Option (Date × Date) := do
  let year := if today.month.1 = 1 then today.year - 1 else today.year
  let start ← fromCalendarDate year today.month.previous 1
  let last ← (← nextMonthFirst start) |> subOneDay
  return (start, last)

theorem fromCalendarDate_first {year : Int} {month : Month}
    (hyear : Representable (Date.firstOf year month)) :
    fromCalendarDate year month 1 = some (Date.firstOf year month) := by
  rw [fromCalendarDate, dif_pos ⟨Nat.le_refl 1, Calendar.one_le_daysInMonth year month⟩]
  exact if_pos hyear

/-- 2026-06-12 reports on May 2026. -/
example : previousMonthWindow ⟨2026, ⟨6, by decide⟩, 12, by decide⟩ =
    (⟨2026, ⟨5, by decide⟩, 1, by decide⟩, ⟨2026, ⟨5, by decide⟩, 31, by decide⟩) := by decide

/-- February of a leap year has 29 days. -/
example : (previousMonthWindow ⟨2024, ⟨3, by decide⟩, 1, by decide⟩).2 =
    ⟨2024, ⟨2, by decide⟩, 29, by decide⟩ := by decide

end MizanConnect.Billing.Reports
