import MizanConnect.Billing.Reports

/-!
# `MizanConnect.Proofs.Billing.CalendarWindows`: the reporting months tile time

`previous_month_window` returns the whole month before today
(`checkedPreviousMonthWindow_eq`), so a date lies in the window of today if
and only if it is a date of that month (`mem_monthWindow_iff`). The windows
of two months running follow each other without a gap.
-/

set_option autoImplicit false

namespace MizanConnect.Proofs.Billing

open Calendar (Date Month YearMonth daysInMonth)
open MizanConnect.Billing.Reports

/-- The first and the last day of a month. -/
def monthWindow (p : YearMonth) : Date × Date :=
  (Date.firstOf p.1 p.2, Date.lastOf p.1 p.2)

/-- The months that `time::Date` can hold. -/
def RepresentableMonth (p : YearMonth) : Prop := Representable (Date.firstOf p.1 p.2)

/-- The window is one whole month, and the month of today follows it. -/
structure WholeMonthBefore (today : Date) (window : Date × Date) : Prop where
  firstDay : window.1.day = 1
  sameMonth : window.2.yearMonth = window.1.yearMonth
  lastDay : window.2.day = daysInMonth window.2.year window.2.month
  ordered : window.1 ≤ window.2
  before : window.2 < today
  follows : window.2.nextDay = Date.firstOf today.year today.month

/-- The `next_month_first` of the first of a month. -/
theorem nextMonthFirst_firstOf {p : YearMonth} (hnext : RepresentableMonth p.next) :
    nextMonthFirst (Date.firstOf p.1 p.2) = some (Date.firstOf p.next.1 p.next.2) := by
  rw [← fromCalendarDate_first hnext]
  by_cases htwelve : p.2.1 = 12
  · have hjanuary : p.2.next = Month.january := dif_pos htwelve
    simp only [YearMonth.next, if_pos htwelve, hjanuary]
    exact if_pos htwelve
  · simp only [YearMonth.next, if_neg htwelve]
    exact if_neg htwelve

/-- The day before the first of a month does not leave the range when the month
before has not left it. -/
theorem subOneDay_firstOf {p : YearMonth} (hprevious : RepresentableMonth p.previous) :
    subOneDay (Date.firstOf p.1 p.2) = some (Date.lastOf p.previous.1 p.previous.2) := by
  rw [subOneDay, Date.previousDay_firstOf p]
  exact if_pos hprevious

/-- No `expect` fires, and the window is the month before. -/
theorem checkedPreviousMonthWindow_eq {today : Date} (htoday : Representable today)
    (hprevious : RepresentableMonth today.yearMonth.previous) :
    checkedPreviousMonthWindow today = some (monthWindow today.yearMonth.previous) := by
  have hstart := fromCalendarDate_first hprevious
  have hfollowing := nextMonthFirst_firstOf (p := today.yearMonth.previous)
    (by rwa [YearMonth.next_previous])
  rw [YearMonth.next_previous] at hfollowing
  have hlast := subOneDay_firstOf hprevious
  calc checkedPreviousMonthWindow today
      = (fromCalendarDate today.yearMonth.previous.1 today.yearMonth.previous.2 1).bind
          fun start => (nextMonthFirst start).bind fun first =>
            (subOneDay first).bind fun last => some (start, last) := rfl
    _ = some (monthWindow today.yearMonth.previous) := by
        rw [hstart, Option.bind_some, hfollowing, Option.bind_some, hlast]
        rfl

/-- The checks of `time` aside, it is the unchecked function. -/
theorem checkedPreviousMonthWindow_eq_some {today : Date} (htoday : Representable today)
    (hprevious : RepresentableMonth today.yearMonth.previous) :
    checkedPreviousMonthWindow today = some (previousMonthWindow today) := by
  have hunchecked : previousMonthWindow today = monthWindow today.yearMonth.previous := by
    rw [previousMonthWindow_eq]
    exact Prod.ext rfl (Date.previousDay_firstOf today.yearMonth)
  rw [checkedPreviousMonthWindow_eq htoday hprevious, hunchecked]

/-- A date lies in the window if and only if it is a date of the month. -/
theorem mem_monthWindow_iff (p : YearMonth) (d : Date) :
    (monthWindow p).1 ≤ d ∧ d ≤ (monthWindow p).2 ↔ d.yearMonth = p :=
  Date.mem_month_iff p d

/-- The day after the window is the first day of the next one. -/
theorem nextDay_monthWindow (p : YearMonth) :
    (monthWindow p).2.nextDay = (monthWindow p.next).1 :=
  Date.nextDay_lastOf p

theorem monthWindow_ordered (p : YearMonth) : (monthWindow p).1 ≤ (monthWindow p).2 :=
  ((mem_monthWindow_iff p (monthWindow p).2).mpr rfl).1

/-- The window of the month before today. -/
theorem wholeMonthBefore (today : Date) :
    WholeMonthBefore today (monthWindow today.yearMonth.previous) := by
  have hfollows : (monthWindow today.yearMonth.previous).2.nextDay =
      Date.firstOf today.year today.month := by
    rw [nextDay_monthWindow, YearMonth.next_previous]
    rfl
  have hbefore : (monthWindow today.yearMonth.previous).2 < today := by
    rw [Date.lt_iff_nextDay_le, hfollows]
    exact ((Date.mem_month_iff today.yearMonth today).mpr rfl).1
  exact ⟨rfl, rfl, rfl, monthWindow_ordered _, hbefore, hfollows⟩

/-- The windows tile time. -/
theorem windows_tile (today : Date) (htoday : Representable today)
    (hprevious : RepresentableMonth today.yearMonth.previous) :
    ∃ window, checkedPreviousMonthWindow today = some window ∧
      WholeMonthBefore today window ∧
      (∀ other : Date, other.yearMonth = today.yearMonth →
        checkedPreviousMonthWindow other = some window) ∧
      ∀ later : Date, later.yearMonth = today.yearMonth.next → Representable later →
        ∃ following, checkedPreviousMonthWindow later = some following ∧
          window.2.nextDay = following.1 ∧
          ∀ d : Date, ¬ ((window.1 ≤ d ∧ d ≤ window.2) ∧ (following.1 ≤ d ∧ d ≤ following.2)) := by
  refine ⟨monthWindow today.yearMonth.previous, checkedPreviousMonthWindow_eq htoday hprevious,
    wholeMonthBefore today, ?_, ?_⟩
  · intro other hmonth
    have hother : Representable other := by
      have hyear : other.year = today.year := congrArg Prod.fst hmonth
      simpa only [Representable, hyear] using htoday
    rw [← hmonth] at hprevious ⊢
    exact checkedPreviousMonthWindow_eq hother hprevious
  · intro later hmonth hlater
    have hmiddle : later.yearMonth.previous = today.yearMonth := by
      rw [hmonth, YearMonth.previous_next]
    refine ⟨monthWindow today.yearMonth, ?_, ?_, ?_⟩
    · rw [← hmiddle]
      exact checkedPreviousMonthWindow_eq hlater (by rwa [hmiddle])
    · rw [nextDay_monthWindow, YearMonth.next_previous]
    · rintro d ⟨hwindow, hfollowing⟩
      -- a date is of one month only, and a month is not the one before it
      rw [mem_monthWindow_iff] at hwindow hfollowing
      have hsame : today.yearMonth.previous = today.yearMonth := by
        rw [← hwindow, hfollowing]
      exact YearMonth.previous_ne _ hsame

/-- March 2024: the window is February with its 29 days, and that of April
follows it. -/
theorem windows_tile_march :
    ∃ window, checkedPreviousMonthWindow (Date.firstOf 2024 ⟨3, by decide⟩) = some window ∧
      WholeMonthBefore (Date.firstOf 2024 ⟨3, by decide⟩) window := by
  obtain ⟨window, hwindow, hwhole, -⟩ :=
    windows_tile (Date.firstOf 2024 ⟨3, by decide⟩) (by decide)
      (show Representable (Date.firstOf 2024 ⟨2, by decide⟩) by decide)
  exact ⟨window, hwindow, hwhole⟩

end MizanConnect.Proofs.Billing
