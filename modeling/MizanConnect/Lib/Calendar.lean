import Mathlib.Data.Int.Notation
import Mathlib.Tactic.SplitIfs

/-!
# `MizanConnect.Lib.Calendar`: days of the Gregorian calendar

A `Date` carries the proof that its day exists, so that the first day of a
month and the day before a date are total functions.
-/

set_option autoImplicit false

namespace Calendar

/-- The number of a month. -/
abbrev Month := { m : Nat // 1 ≤ m ∧ m ≤ 12 }

namespace Month

def january : Month := ⟨1, by decide⟩
def december : Month := ⟨12, by decide⟩

/-- The month after, January after December. -/
def next (m : Month) : Month :=
  if h : m.1 = 12 then january else ⟨m.1 + 1, by omega⟩

/-- The month before, December before January. -/
def previous (m : Month) : Month :=
  if h : m.1 = 1 then december else ⟨m.1 - 1, by omega⟩

theorem val_next (m : Month) : m.next.1 = if m.1 = 12 then 1 else m.1 + 1 := by
  unfold next
  split_ifs <;> rfl

theorem next_previous (m : Month) : m.previous.next = m := by
  obtain ⟨m, hm⟩ := m
  by_cases hone : m = 1
  · subst hone
    rfl
  · have hother : m - 1 ≠ 12 := by omega
    simp only [previous, next, dif_neg hone, dif_neg hother]
    exact Subtype.ext (Nat.sub_add_cancel hm.1)

theorem previous_next (m : Month) : m.next.previous = m := by
  obtain ⟨m, hm⟩ := m
  by_cases htwelve : m = 12
  · subst htwelve
    rfl
  · have hother : m + 1 ≠ 1 := by omega
    simp only [previous, next, dif_neg htwelve, dif_neg hother]
    exact Subtype.ext (Nat.add_sub_cancel m 1)

end Month

/-- A month of a year. -/
abbrev YearMonth := Int × Month

namespace YearMonth

/-- The month after, in the next year after December. -/
def next (p : YearMonth) : YearMonth :=
  (if p.2.1 = 12 then p.1 + 1 else p.1, p.2.next)

/-- The month before, in the year before for January. -/
def previous (p : YearMonth) : YearMonth :=
  (if p.2.1 = 1 then p.1 - 1 else p.1, p.2.previous)

theorem next_previous (p : YearMonth) : p.previous.next = p := by
  refine Prod.ext ?_ (Month.next_previous p.2)
  by_cases hone : p.2.1 = 1
  · simp [previous, next, Month.previous, Month.december, hone]
  · have hother : p.2.1 - 1 ≠ 12 := by
      have := p.2.2
      omega
    simp [previous, next, Month.previous, hone, hother]

theorem previous_next (p : YearMonth) : p.next.previous = p := by
  refine Prod.ext ?_ (Month.previous_next p.2)
  by_cases htwelve : p.2.1 = 12
  · simp [previous, next, Month.next, Month.january, htwelve]
  · have hother : p.2.1 ≠ 0 := by
      have := p.2.2
      omega
    simp [previous, next, Month.next, htwelve, hother]

theorem previous_ne (p : YearMonth) : p.previous ≠ p := by
  intro h
  have hyear := congrArg Prod.fst h
  have hmonth := congrArg (fun q : YearMonth => q.2.1) h
  by_cases hone : p.2.1 = 1
  · simp only [previous, if_pos hone] at hyear
    omega
  · have hpos := p.2.2.1
    simp [previous, Month.previous, hone] at hmonth
    omega

end YearMonth

/-- A leap year of the Gregorian calendar. -/
def isLeapYear (year : Int) : Bool :=
  year % 4 = 0 && (year % 100 ≠ 0 || year % 400 = 0)

/-- The length of a month. -/
def daysInMonth (year : Int) (month : Month) : Nat :=
  if month.1 = 2 then if isLeapYear year then 29 else 28
  else if month.1 = 4 ∨ month.1 = 6 ∨ month.1 = 9 ∨ month.1 = 11 then 30
  else 31

theorem one_le_daysInMonth (year : Int) (month : Month) : 1 ≤ daysInMonth year month := by
  unfold daysInMonth
  split_ifs <;> decide

/-- A day. -/
structure Date where
  year : Int
  month : Month
  day : Nat
  valid : 1 ≤ day ∧ day ≤ daysInMonth year month
deriving DecidableEq

namespace Date

/-- The first day of a month. -/
def firstOf (year : Int) (month : Month) : Date :=
  ⟨year, month, 1, Nat.le_refl 1, one_le_daysInMonth year month⟩

/-- The last day of a month. -/
def lastOf (year : Int) (month : Month) : Date :=
  ⟨year, month, daysInMonth year month, one_le_daysInMonth year month, Nat.le_refl _⟩

/-- The day before. -/
def previousDay (d : Date) : Date :=
  if h : 1 < d.day then ⟨d.year, d.month, d.day - 1, by have := d.valid; omega⟩
  else if d.month.1 = 1 then lastOf (d.year - 1) .december
  else lastOf d.year d.month.previous

/-- The month of a date. -/
def yearMonth (d : Date) : YearMonth := (d.year, d.month)

/-- The day after. -/
def nextDay (d : Date) : Date :=
  if h : d.day < daysInMonth d.year d.month then ⟨d.year, d.month, d.day + 1, by omega⟩
  else firstOf d.yearMonth.next.1 d.yearMonth.next.2

/-- The day before the first of a month is the last of the month before. -/
theorem previousDay_firstOf (p : YearMonth) :
    (firstOf p.1 p.2).previousDay = lastOf p.previous.1 p.previous.2 := by
  obtain ⟨year, m, hm⟩ := p
  by_cases hone : m = 1
  · subst hone
    simp [previousDay, firstOf, YearMonth.previous, Month.previous]
  · simp [previousDay, firstOf, YearMonth.previous, hone]

/-- The day after the last of a month is the first of the month after. -/
theorem nextDay_lastOf (p : YearMonth) :
    (lastOf p.1 p.2).nextDay = firstOf p.next.1 p.next.2 := by
  simp [nextDay, lastOf, yearMonth]

/-! ### Dates in order -/

/-- `a` comes before `b`: in an earlier year, or in an earlier month of the
year, or on an earlier day of the month. -/
instance : LT Date where
  lt a b := a.year < b.year ∨
    (a.year = b.year ∧ (a.month.1 < b.month.1 ∨ (a.month.1 = b.month.1 ∧ a.day < b.day)))

instance : LE Date where
  le a b := a.year < b.year ∨
    (a.year = b.year ∧ (a.month.1 < b.month.1 ∨ (a.month.1 = b.month.1 ∧ a.day ≤ b.day)))

theorem lt_iff (a b : Date) : a < b ↔ a.year < b.year ∨
    (a.year = b.year ∧ (a.month.1 < b.month.1 ∨ (a.month.1 = b.month.1 ∧ a.day < b.day))) :=
  Iff.rfl

theorem le_iff (a b : Date) : a ≤ b ↔ a.year < b.year ∨
    (a.year = b.year ∧ (a.month.1 < b.month.1 ∨ (a.month.1 = b.month.1 ∧ a.day ≤ b.day))) :=
  Iff.rfl

instance (a b : Date) : Decidable (a < b) := decidable_of_iff _ (lt_iff a b).symm

instance (a b : Date) : Decidable (a ≤ b) := decidable_of_iff _ (le_iff a b).symm

theorem le_total (a b : Date) : a ≤ b ∨ b ≤ a := by
  rw [le_iff, le_iff]
  omega

theorem le_trans {a b c : Date} (hab : a ≤ b) (hbc : b ≤ c) : a ≤ c := by
  rw [le_iff] at *
  omega

theorem lt_of_le_of_ne {a b : Date} (hle : a ≤ b) (hne : a ≠ b) : a < b := by
  obtain ⟨year, month, day, hday⟩ := a
  obtain ⟨year', month', day', hday'⟩ := b
  rw [le_iff] at hle
  rw [lt_iff]
  refine Decidable.byContradiction fun hlt => hne ?_
  obtain ⟨hyear, hmonth, hsame⟩ : year = year' ∧ month.1 = month'.1 ∧ day = day' := by
    simp only at hle hlt
    omega
  cases hyear
  cases Subtype.ext hmonth
  cases hsame
  rfl

/-- Nothing lies between a day and the day after. -/
theorem lt_iff_nextDay_le (a b : Date) : a < b ↔ a.nextDay ≤ b := by
  have hb := b.valid
  have hmonth := b.month.2
  by_cases hday : a.day < daysInMonth a.year a.month
  · -- inside the month the day alone counts up
    rw [lt_iff, le_iff]
    simp only [nextDay, dif_pos hday]
    omega
  · have ha := a.valid
    have hlast : a.year = b.year → a.month.1 = b.month.1 → b.day ≤ a.day := by
      intro hyear hm
      have : daysInMonth a.year a.month = daysInMonth b.year b.month := by
        rw [hyear, Subtype.ext hm]
      omega
    rw [lt_iff, le_iff]
    simp only [nextDay, dif_neg hday, firstOf, yearMonth, YearMonth.next, Month.val_next]
    split_ifs <;> omega

/-- The dates from the first to the last of a month are the dates of that
month. -/
theorem mem_month_iff (p : YearMonth) (d : Date) :
    firstOf p.1 p.2 ≤ d ∧ d ≤ lastOf p.1 p.2 ↔ d.yearMonth = p := by
  have hvalid := d.valid
  constructor
  · rintro ⟨hfirst, hlast⟩
    rw [le_iff] at hfirst hlast
    simp only [firstOf, lastOf] at hfirst hlast
    exact Prod.ext (by simp only [yearMonth]; omega)
      (Subtype.ext (by simp only [yearMonth]; omega))
  · rintro rfl
    exact ⟨Or.inr ⟨rfl, Or.inr ⟨rfl, hvalid.1⟩⟩, Or.inr ⟨rfl, Or.inr ⟨rfl, hvalid.2⟩⟩⟩

end Date

end Calendar
