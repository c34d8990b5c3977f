import CoreFlightSystem.Library.Decimal

/-!
# The proleptic Gregorian calendar

Years of 365 or 366 days, counted from the year 0. A moment is given by its year, the day of that
year, the time of that day and the number of parts of a second, of which `scale` make a second. It
is an instant, a number of parts of a second since the start of the year 0.

## Main results

`Moment.instant_lt_iff`, `Moment.instant_injective`
-/

open Decimal

namespace Calendar

/-! ## Years -/

/-- A year is a leap year if 4 divides it, but 100 does not, or 400 does. -/
def IsLeap (year : ℕ) : Prop :=
  4 ∣ year ∧ (¬ 100 ∣ year ∨ 400 ∣ year)

instance : DecidablePred IsLeap := fun year =>
  inferInstanceAs (Decidable (4 ∣ year ∧ (¬ 100 ∣ year ∨ 400 ∣ year)))

def daysIn (year : ℕ) : ℕ :=
  if IsLeap year then 366 else 365

/-- The days from the start of the year 0 to the start of a year. -/
def daysBefore : ℕ → ℕ
  | 0 => 0
  | year + 1 => daysBefore year + daysIn year

theorem daysIn_le (year : ℕ) : daysIn year ≤ 366 := by
  unfold daysIn
  split <;> omega

theorem le_daysIn (year : ℕ) : 365 ≤ daysIn year := by
  unfold daysIn
  split <;> omega

theorem daysBefore_le {year year' : ℕ} (hlt : year < year') :
    daysBefore year + daysIn year ≤ daysBefore year' := by
  induction hlt with
  | refl => exact le_refl _
  | step _ ih => exact ih.trans (Nat.le_add_right _ _)

theorem day_lt_iff {year year' day day' : ℕ} (hday : day < daysIn year)
    (hday' : day' < daysIn year') :
    daysBefore year + day < daysBefore year' + day' ↔ year < year' ∨ year = year' ∧ day < day' := by
  rcases Nat.lt_trichotomy year year' with hlt | rfl | hgt
  · have hle := daysBefore_le hlt
    constructor <;> intro h <;> omega
  · simp
  · have hle := daysBefore_le hgt
    constructor <;> intro h <;> omega

theorem day_eq_iff {year year' day day' : ℕ} (hday : day < daysIn year)
    (hday' : day' < daysIn year') :
    daysBefore year + day = daysBefore year' + day' ↔ year = year' ∧ day = day' := by
  have hlt := day_lt_iff hday hday'
  have hgt := day_lt_iff hday' hday
  constructor
  · intro heq
    omega
  · rintro ⟨rfl, rfl⟩
    rfl

/-! ## Moments -/

/-- A moment: its date, its time of the day and the parts of a second. -/
@[ext]
structure Moment where
  year : ℕ
  day : ℕ
  hour : ℕ
  minute : ℕ
  second : ℕ
  fraction : ℕ

namespace Moment

variable {scale : ℕ} {m m' : Moment}

/-- The fields of a moment are in their ranges; the days of a year are counted from 1. -/
structure Valid (scale : ℕ) (m : Moment) : Prop where
  one_le_day : 1 ≤ m.day
  day_le : m.day ≤ daysIn m.year
  hour_lt : m.hour < 24
  minute_lt : m.minute < 60
  second_lt : m.second < 60
  fraction_lt : m.fraction < scale

def days (m : Moment) : ℕ :=
  daysBefore m.year + (m.day - 1)

def instant (scale : ℕ) (m : Moment) : ℕ :=
  (((m.days * 24 + m.hour) * 60 + m.minute) * 60 + m.second) * scale + m.fraction

/-- The first field in which two moments differ is lower in the first one. -/
def Before (m m' : Moment) : Prop :=
  m.year < m'.year ∨ m.year = m'.year ∧ (m.day < m'.day ∨ m.day = m'.day ∧
    (m.hour < m'.hour ∨ m.hour = m'.hour ∧ (m.minute < m'.minute ∨ m.minute = m'.minute ∧
      (m.second < m'.second ∨ m.second = m'.second ∧ m.fraction < m'.fraction))))

theorem days_lt_iff (hm : m.Valid scale) (hm' : m'.Valid scale) :
    m.days < m'.days ↔ m.year < m'.year ∨ m.year = m'.year ∧ m.day < m'.day := by
  obtain ⟨hone, hday, -⟩ := hm
  obtain ⟨hone', hday', -⟩ := hm'
  rw [days, days, day_lt_iff (by omega) (by omega)]
  omega

theorem days_eq_iff (hm : m.Valid scale) (hm' : m'.Valid scale) :
    m.days = m'.days ↔ m.year = m'.year ∧ m.day = m'.day := by
  obtain ⟨hone, hday, -⟩ := hm
  obtain ⟨hone', hday', -⟩ := hm'
  rw [days, days, day_eq_iff (by omega) (by omega)]
  omega

/-- **A moment is earlier if its first differing field is lower.** -/
theorem instant_lt_iff (hm : m.Valid scale) (hm' : m'.Valid scale) :
    m.instant scale < m'.instant scale ↔ m.Before m' := by
  rw [instant, instant, mul_add_lt_iff hm.fraction_lt hm'.fraction_lt,
    mul_add_lt_iff hm.second_lt hm'.second_lt, mul_add_eq_iff hm.second_lt hm'.second_lt,
    mul_add_lt_iff hm.minute_lt hm'.minute_lt, mul_add_eq_iff hm.minute_lt hm'.minute_lt,
    mul_add_lt_iff hm.hour_lt hm'.hour_lt, mul_add_eq_iff hm.hour_lt hm'.hour_lt,
    days_lt_iff hm hm', days_eq_iff hm hm', Before]
  simp only [or_assoc, and_assoc, ← and_or_left]

theorem instant_injective (hm : m.Valid scale) (hm' : m'.Valid scale)
    (heq : m.instant scale = m'.instant scale) : m = m' := by
  rw [instant, instant, mul_add_eq_iff hm.fraction_lt hm'.fraction_lt,
    mul_add_eq_iff hm.second_lt hm'.second_lt, mul_add_eq_iff hm.minute_lt hm'.minute_lt,
    mul_add_eq_iff hm.hour_lt hm'.hour_lt, days_eq_iff hm hm'] at heq
  obtain ⟨⟨⟨⟨⟨hyear, hday⟩, hhour⟩, hminute⟩, hsecond⟩, hfraction⟩ := heq
  exact Moment.ext hyear hday hhour hminute hsecond hfraction

end Moment

end Calendar
