import ExtractionContract.Time.Instant

/-!
# The calendar

The date of a day and the number of a date undo one another. Both count in eras of four hundred
years that begin with March, so a leap day is the last day of its year. A place in an era is a
century, four years of it, a year of these and a day (`DayOfEra`), and each of the quotients that
`Instant.dateOf` takes is a sum over the place: it overestimates the leap days by one at most, and
only so late in a year that the quotient does not change.

* `Instant.dayNumber_dateOf`: a day is the day of its date.
* `Instant.date_bounds`, `Instant.isDate_dateOf`: the date of a day stands in the calendar.
-/

namespace ExtractionContract

namespace Instant

/-! ### Eras -/

/-- A place in an era of four hundred years: which century, which four years of it, which of these
years and which day. The fourth of four years has a day more, but in the last four years of a
century only if the century is the last. -/
structure DayOfEra where
  century : Nat
  quad : Nat
  year : Nat
  day : Nat
  century_le : century ≤ 3
  quad_le : quad ≤ 24
  year_le : year ≤ 3
  day_le : day ≤ 365
  leap : day = 365 → year = 3 ∧ (quad = 24 → century = 3)

namespace DayOfEra

variable (p : DayOfEra)

/-- The years of the era that have passed. -/
def years : Nat :=
  100 * p.century + 4 * p.quad + p.year

/-- The days of the era that have passed. -/
def days : Nat :=
  36524 * p.century + 1461 * p.quad + 365 * p.year + p.day

theorem years_lt : p.years < 400 := by
  have := p.century_le
  have := p.quad_le
  have := p.year_le
  unfold years
  omega

theorem days_lt : p.days < 146097 := by
  obtain ⟨c, q, y, d, hc, hq, hy, hd, hleap⟩ := p
  simp only [days]
  omega

/-- Every day of an era has a place. -/
theorem exists_days {n : Nat} (hn : n < 146097) : ∃ p : DayOfEra, p.days = n := by
  -- The last day of the last century would begin a fifth one, so the quotient is cut off.
  have hcentury : ∃ c r, c ≤ 3 ∧ r ≤ 36524 ∧ (r = 36524 → c = 3) ∧ n = 36524 * c + r :=
    ⟨min (n / 36524) 3, n - 36524 * min (n / 36524) 3, by omega, by omega, by omega, by omega⟩
  obtain ⟨c, r, hc, hr, hlast, rfl⟩ := hcentury
  -- Likewise the leap day would begin a fifth year.
  have hyear : ∃ y d, y ≤ 3 ∧ d ≤ 365 ∧ (d = 365 → y = 3) ∧ r % 1461 = 365 * y + d :=
    ⟨min (r % 1461 / 365) 3, r % 1461 - 365 * min (r % 1461 / 365) 3, by omega, by omega,
      by omega, by omega⟩
  obtain ⟨y, d, hy, hd, hleap, hrest⟩ := hyear
  refine ⟨⟨c, r / 1461, y, d, hc, by omega, hy, hd, fun h => ⟨hleap h, by omega⟩⟩, ?_⟩
  simp only [days]
  omega

/-- The days of an era are those of its years and the leap days among them. -/
theorem days_eq : p.days = 365 * p.years + p.years / 4 - p.years / 100 + p.day := by
  have := p.century_le
  have := p.quad_le
  have := p.year_le
  unfold days years
  omega

/-- The last day of an era is counted as one of a fifth century. -/
theorem days_div_century : p.days / 36524 = p.century + p.days / 146096 := by
  have := p.century_le
  have := p.quad_le
  have := p.year_le
  have := p.day_le
  have := p.leap
  by_cases hlast : p.days = 146096
  · -- The quotient is four, and so is the sum.
    have hcentury : p.century = 3 := by
      unfold days at hlast
      omega
    rw [hlast, hcentury]
  · -- Any other day stands before the end of its century.
    have hlt : p.days < 36524 * (p.century + 1) := by
      unfold days at hlast ⊢
      omega
    have hge : 36524 * p.century ≤ p.days := by
      unfold days
      omega
    have hnone : p.days / 146096 = 0 := by
      have := p.days_lt
      omega
    rw [hnone]
    omega

/-- What is counted besides the leap days up to the last four full years: one more, late in a
year of 366 days. -/
def surplus : Nat :=
  (24 * p.century + p.quad + 365 * p.year + p.day) / 1460

theorem days_div_quad : p.days / 1460 = 25 * p.century + p.quad + p.surplus := by
  unfold days surplus
  omega

theorem surplus_le : p.surplus ≤ p.day ∧ p.day - p.surplus < 365 := by
  have := p.century_le
  have := p.quad_le
  have := p.year_le
  have := p.day_le
  have := p.leap
  unfold surplus
  rcases Nat.lt_or_ge (24 * p.century + p.quad + 365 * p.year + p.day) 1460 with hlt | hge
  · rw [Nat.div_eq_of_lt hlt]
    omega
  · have hone : (24 * p.century + p.quad + 365 * p.year + p.day) / 1460 = 1 := by omega
    rw [hone]
    omega

/-- **The year of a day** is the quotient of the days without the leap days. -/
theorem years_of_days :
    (p.days - p.days / 1460 + p.days / 36524 - p.days / 146096) / 365 = p.years := by
  obtain ⟨hsurplus, hlt⟩ := p.surplus_le
  -- Less the leap days, and one day more late in a leap year, all years have 365 days.
  have hwithout : p.days - (25 * p.century + p.quad + p.surplus) + p.century =
      365 * p.years + (p.day - p.surplus) := by
    unfold days years
    omega
  rw [p.days_div_century, p.days_div_quad, ← Nat.add_assoc, Nat.add_sub_cancel, hwithout,
    Nat.mul_add_div (by decide), Nat.div_eq_of_lt hlt, Nat.add_zero]

end DayOfEra

/-! ### Dates -/

/-- The date of a day of a year that begins with March. -/
def marchDate (year : Int) (dayOfYear : Nat) : Date :=
  let monthFromMarch := (5 * dayOfYear + 2) / 153
  let month := if monthFromMarch < 10 then monthFromMarch + 3 else monthFromMarch - 9
  { year := year + if month ≤ 2 then 1 else 0
    month
    day := dayOfYear - (153 * monthFromMarch + 2) / 5 + 1 }

/-- The date of a place in an era is told by its year from March and the day of this year. -/
theorem dateOf_days (era : Int) (p : DayOfEra) :
    dateOf (era * 146097 + p.days - 719468) = marchDate (p.years + era * 400) p.day := by
  have hlt := p.days_lt
  have hera : (era * 146097 + p.days - 719468 + 719468) / 146097 = era := by omega
  have hdays : (era * 146097 + p.days - 719468 + 719468 - era * 146097).toNat = p.days := by omega
  have hday : p.days - (365 * p.years + p.years / 4 - p.years / 100) = p.day := by
    have := p.days_eq
    omega
  simp only [dateOf, hera, hdays, p.years_of_days, hday, marchDate]

/-- The number of a date is told by its year from March and the day of this year. -/
theorem dayNumber_marchDate (y : Int) {d : Nat} (hd : d ≤ 365) :
    dayNumber (marchDate y d) = y / 400 * 146097 +
      ((y - y / 400 * 400) * 365 + (y - y / 400 * 400) / 4 - (y - y / 400 * 400) / 100 + d) -
        719468 := by
  -- The days up to a month, and the rest, make the day again.
  have hback : (153 * ((5 * d + 2) / 153) + 2) / 5 +
      (d - (153 * ((5 * d + 2) / 153) + 2) / 5 + 1) - 1 = d := by
    omega
  by_cases hmonth : (5 * d + 2) / 153 < 10
  · -- From March to December.
    have hlate : ¬(5 * d + 2) / 153 + 3 ≤ 2 := by omega
    simp only [marchDate, dayNumber, if_pos hmonth, if_neg hlate, Nat.add_sub_cancel, hback,
      Int.add_zero]
  · -- January and February belong to the year before.
    have hearly : (5 * d + 2) / 153 - 9 ≤ 2 := by omega
    have hfrom : (5 * d + 2) / 153 - 9 + 9 = (5 * d + 2) / 153 := by omega
    simp only [marchDate, dayNumber, if_neg hmonth, if_pos hearly, hfrom, hback,
      Int.add_sub_cancel]

/-- Every day is a place of an era. -/
theorem exists_era (n : Int) :
    ∃ (era : Int) (p : DayOfEra), n = era * 146097 + p.days - 719468 := by
  have hlt : (n + 719468 - (n + 719468) / 146097 * 146097).toNat < 146097 := by omega
  obtain ⟨p, hp⟩ := DayOfEra.exists_days hlt
  exact ⟨(n + 719468) / 146097, p, by omega⟩

/-- **A day is the day of its date.** -/
theorem dayNumber_dateOf (n : Int) : dayNumber (dateOf n) = n := by
  obtain ⟨era, p, rfl⟩ := exists_era n
  have hlt := p.years_lt
  have hera : ((p.years : Int) + era * 400) / 400 = era := by omega
  have hyears : (p.years : Int) + era * 400 - era * 400 = p.years := by omega
  have hdays := p.days_eq
  rw [dateOf_days, dayNumber_marchDate _ p.day_le, hera, hyears]
  omega

/-- Every date has one of twelve months and one of 31 days. -/
theorem date_bounds (n : Int) :
    1 ≤ (dateOf n).month ∧ (dateOf n).month ≤ 12 ∧ 1 ≤ (dateOf n).day ∧ (dateOf n).day ≤ 31 := by
  obtain ⟨era, p, rfl⟩ := exists_era n
  have hd := p.day_le
  -- No month has more than 31 days before the next one begins.
  have hlast : p.day ≤ (153 * ((5 * p.day + 2) / 153) + 2) / 5 + 30 := by omega
  rw [dateOf_days]
  by_cases hmonth : (5 * p.day + 2) / 153 < 10
  · simp only [marchDate, if_pos hmonth]
    omega
  · simp only [marchDate, if_neg hmonth]
    omega

/-- The date of a day stands in the calendar if its year does. -/
theorem isDate_dateOf {n : Int} (hge : firstYear ≤ (dateOf n).year)
    (hle : (dateOf n).year ≤ lastYear) : isDate (dateOf n) = true := by
  obtain ⟨hmonth, hmonth', hday, -⟩ := date_bounds n
  simp only [isDate, dayNumber_dateOf, hge, hle, hmonth, hmonth', hday, decide_true, Bool.and_self,
    beq_self_eq_true]

end Instant

end ExtractionContract
