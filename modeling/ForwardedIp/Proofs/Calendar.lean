import ForwardedIp.Timestamp
import Mathlib.Tactic.IntervalCases
/-!
# The calendar

Every day has a date, and the day of that date is the day. Days are split as the calendar repeats:
into eras of four hundred years, and in an era into centuries, spans of four years, years that
begin in March, and days.
-/
namespace ForwardedIp.Timestamp

/-- A day of an era, by its century, its span of four years, its year and its day of the year. Only
the last year of a span has a last day more, and that of a century's last span only if the century
is the last of the era. -/
structure Within (dayOfEra c q k j : Nat) : Prop where
  day_eq : dayOfEra = 36524 * c + 1461 * q + 365 * k + j
  c_le : c ≤ 3
  q_le : q ≤ 24
  k_le : k ≤ 3
  j_le : j ≤ 365
  last : j = 365 → k = 3 ∧ (q = 24 → c = 3)

variable {dayOfEra c q k j : Nat}

theorem exists_within (h : dayOfEra < 146097) : ∃ c q k j, Within dayOfEra c q k j := by
  let c := min (dayOfEra / 36524) 3
  let r := dayOfEra - 36524 * c
  let k := min (r % 1461 / 365) 3
  refine ⟨c, r / 1461, k, r % 1461 - 365 * k, ?_, ?_, ?_, ?_, ?_, ?_⟩ <;> omega

namespace Within

/-- A century has 36524 days, but for the last one of the era. -/
theorem day_le (h : Within dayOfEra c q k j) : 1461 * q + 365 * k + j ≤ 36523 ∨
    c = 3 ∧ q = 24 ∧ k = 3 ∧ j = 365 := by
  obtain ⟨-, hc, hq, hk, hj, hlast⟩ := h
  by_cases hj' : j = 365
  · obtain ⟨rfl, hcentury⟩ := hlast hj'
    by_cases hq' : q = 24
    · exact .inr ⟨hcentury hq', hq', rfl, hj'⟩
    · exact .inl (by omega)
  · exact .inl (by omega)

/-- The year of the era of a day. -/
theorem yearOfEra_eq (h : Within dayOfEra c q k j) :
    (dayOfEra - dayOfEra / 1460 + dayOfEra / 36524 - dayOfEra / 146096) / 365 =
      100 * c + 4 * q + k := by
  have hday := h.day_eq
  rcases h.day_le with hle | ⟨rfl, rfl, rfl, rfl⟩
  · obtain ⟨-, hc, hq, hk, hj, hlast⟩ := h
    have hcentury : dayOfEra / 36524 = c := by omega
    have hera : dayOfEra / 146096 = 0 := by omega
    have hspan : dayOfEra / 1460 = 25 * c + q + (24 * c + q + 365 * k + j) / 1460 := by omega
    have hcarry : (24 * c + q + 365 * k + j) / 1460 ≤ 1 := by omega
    omega
  · subst hday
    rfl

theorem dayOfYear_eq (h : Within dayOfEra c q k j) :
    let year := 100 * c + 4 * q + k
    dayOfEra - (365 * year + year / 4 - year / 100) = j := by
  obtain ⟨hday, hc, hq, hk, -, -⟩ := h
  intro year
  have hspans : year / 4 = 25 * c + q := by omega
  have hcenturies : year / 100 = c := by omega
  omega

end Within

/-- The months of a year that begins in March, by the day of the year. -/
theorem month_spec (hj : j ≤ 365) :
    let m := (5 * j + 2) / 153
    let month := if m < 10 then m + 3 else m - 9
    let day := j - (153 * m + 2) / 5 + 1
    1 ≤ month ∧ month ≤ 12 ∧ (month + 9) % 12 = m ∧ (153 * m + 2) / 5 + day = j + 1 ∧ 1 ≤ day ∧
      (month = 2 → day ≤ 29 ∧ (day = 29 → j = 365)) ∧
      (month = 4 ∨ month = 6 ∨ month = 9 ∨ month = 11 → day ≤ 30) ∧ day ≤ 31 := by
  intro m
  have hm : m ≤ 11 := by omega
  have hlow : 153 * m ≤ 5 * j + 2 := by omega
  have hhigh : 5 * j + 2 < 153 * m + 153 := by omega
  clear_value m
  interval_cases m <;> (simp; omega)

/-- The date of a day, by the parts of the day. -/
theorem dateOfDay_eq (era : Int) (h : Within dayOfEra c q k j) :
    dateOfDay (era * 146097 + dayOfEra - 719468) =
      let m := (5 * j + 2) / 153
      let month := if m < 10 then m + 3 else m - 9
      (era * 400 + (100 * c + 4 * q + k : Nat) + (if month ≤ 2 then 1 else 0), month,
        j - (153 * m + 2) / 5 + 1) := by
  have hlt : (dayOfEra : Int) < 146097 := by
    have hday := h.day_eq
    rcases h.day_le with hle | ⟨rfl, rfl, rfl, rfl⟩ <;> have hc := h.c_le <;> omega
  have hera : (era * 146097 + dayOfEra - 719468 + 719468) / 146097 = era := by omega
  have hdayOfEra : ((era * 146097 + dayOfEra - 719468 + 719468) % 146097).toNat = dayOfEra := by
    omega
  have hyear := h.yearOfEra_eq
  have hday := h.dayOfYear_eq
  simp only at hday
  unfold dateOfDay
  simp only [hera, hdayOfEra, hyear, hday]

/-- The day of a date, by the parts of the day. -/
theorem dayOfDate_eq (era : Int) (h : Within dayOfEra c q k j) {month day : Nat}
    (hmonth : (153 * ((month + 9) % 12) + 2) / 5 + day = j + 1) :
    dayOfDate (era * 400 + (100 * c + 4 * q + k : Nat) + (if month ≤ 2 then 1 else 0)) month day =
      era * 146097 + dayOfEra - 719468 := by
  obtain ⟨hday, hc, hq, hk, -, -⟩ := h
  have hstart : (if month ≤ 2 then era * 400 + ((100 * c + 4 * q + k : Nat) : Int) +
      (if month ≤ 2 then 1 else 0) - 1 else era * 400 + ((100 * c + 4 * q + k : Nat) : Int) +
      (if month ≤ 2 then 1 else 0)) = era * 400 + (100 * c + 4 * q + k : Nat) := by
    split <;> omega
  have hera : (era * 400 + ((100 * c + 4 * q + k : Nat) : Int)) / 400 = era := by omega
  have hyear : (era * 400 + ((100 * c + 4 * q + k : Nat) : Int)) % 400 =
      ((100 * c + 4 * q + k : Nat) : Int) := by omega
  have hspans : ((100 * c + 4 * q + k : Nat) : Int) / 4 = 25 * c + q := by omega
  have hcenturies : ((100 * c + 4 * q + k : Nat) : Int) / 100 = c := by omega
  have hdayOfYear : (153 * (((month : Int) + 9) % 12) + 2) / 5 + day = j + 1 := by
    exact_mod_cast hmonth
  unfold dayOfDate
  simp only [hstart, hera, hyear, hspans, hcenturies]
  omega

/-- The last day of the longest year of the calendar falls in a leap year. -/
theorem isLeapYear_of_last (era : Int) (h : Within dayOfEra c q k 365) :
    isLeapYear (era * 400 + (100 * c + 4 * q + k : Nat) + 1) = true := by
  obtain ⟨rfl, hcentury⟩ := h.last rfl
  have hq := h.q_le
  have hc := h.c_le
  simp only [isLeapYear, Bool.and_eq_true, Bool.or_eq_true, beq_iff_eq, bne_iff_ne, ne_eq]
  refine ⟨by omega, ?_⟩
  by_cases hlast : q = 24
  · have hera := hcentury hlast
    exact .inr (by omega)
  · exact .inl (by omega)

/-- Every day has a date of the calendar, and the day of that date is the day. -/
theorem dateOfDay_spec (day : Int) :
    let date := dateOfDay day
    (1 ≤ date.2.1 ∧ date.2.1 ≤ 12) ∧ (1 ≤ date.2.2 ∧ date.2.2 ≤ daysInMonth date.1 date.2.1) ∧
      dayOfDate date.1 date.2.1 date.2.2 = day := by
  obtain ⟨era, dayOfEra, hlt, rfl⟩ : ∃ (era : Int) (dayOfEra : Nat), dayOfEra < 146097 ∧
      day = era * 146097 + dayOfEra - 719468 :=
    ⟨(day + 719468) / 146097, ((day + 719468) % 146097).toNat, by omega, by omega⟩
  obtain ⟨c, q, k, j, h⟩ := exists_within hlt
  rw [dateOfDay_eq era h]
  obtain ⟨hlow, hhigh, hm, hday, hfirst, hfebruary, hshort, hlong⟩ := month_spec h.j_le
  simp only at hlow hhigh hm hday hfirst hfebruary hshort hlong ⊢
  -- From here on only what is known of the month and the day in it counts.
  generalize hmonth : (if (5 * j + 2) / 153 < 10 then (5 * j + 2) / 153 + 3
    else (5 * j + 2) / 153 - 9) = month at *
  generalize j - (153 * ((5 * j + 2) / 153) + 2) / 5 + 1 = d at *
  refine ⟨⟨hlow, hhigh⟩, ⟨hfirst, ?_⟩, dayOfDate_eq era h (by rw [hm]; exact hday)⟩
  unfold daysInMonth
  split
  · next htwo =>
    obtain ⟨hle, hlast⟩ := hfebruary htwo
    rw [if_pos (show month ≤ 2 by omega)]
    by_cases hleap : isLeapYear (era * 400 + (100 * c + 4 * q + k : Nat) + 1) = true
    · rw [if_pos hleap]
      exact hle
    · have hshorter : d ≠ 29 := by
        intro hd
        obtain rfl := hlast hd
        exact hleap (isLeapYear_of_last era h)
      rw [if_neg hleap]
      omega
  · split
    · next hmonths => exact hshort hmonths
    · exact hlong

end ForwardedIp.Timestamp
