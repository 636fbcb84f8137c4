import FinanceKing.Data.Corpus

/-! The calendar: a day lies in the month that `yearMonth` gives it, and in no other. Years are counted from
    March, where a leap day comes last. -/

namespace FinanceKing.Data

/-! ### Years from March -/

/-- The first day of a month of a year that starts in March. -/
def marchDay (year month : ℤ) : ℤ :=
  year / 400 * 146097 + year % 400 * 365 + year % 400 / 4 - year % 400 / 100 + (153 * month + 2) / 5 - 719468

theorem firstDayOf_of_late {year month : ℤ} (h : 2 < month) :
    firstDayOf (year, month) = marchDay year (month - 3) := by
  simp only [firstDayOf, marchDay, if_neg (not_le.mpr h), if_pos h]

theorem firstDayOf_of_early {year month : ℤ} (h : month ≤ 2) :
    firstDayOf (year, month) = marchDay (year - 1) (month + 9) := by
  simp only [firstDayOf, marchDay, if_pos h, if_neg (not_lt.mpr h), gt_iff_lt]

theorem marchDay_next (year month : ℤ) : marchDay year month < marchDay year (month + 1) := by
  simp only [marchDay]
  omega

theorem marchDay_year (year : ℤ) : marchDay year 11 < marchDay (year + 1) 0 := by
  have hcarry : (year + 1) % 400 = year % 400 + 1 ∧ (year + 1) / 400 = year / 400 ∨
      year % 400 = 399 ∧ (year + 1) % 400 = 0 ∧ (year + 1) / 400 = year / 400 + 1 := by
    omega
  simp only [marchDay]
  rcases hcarry with ⟨hyear, hera⟩ | ⟨hlast, hyear, hera⟩
  · rw [hyear, hera]
    omega
  · rw [hlast, hyear, hera]
    omega

/-! ### Days of an era -/

/-- A day of an era as centuries, olympiads, years and days; a leap day is the last day of its year. -/
structure EraDay (day century olympiad year rest : ℤ) : Prop where
  centuries : 0 ≤ century ∧ century ≤ 3
  olympiads : 0 ≤ olympiad ∧ olympiad ≤ 24
  years : 0 ≤ year ∧ year ≤ 3
  days : 0 ≤ rest ∧ rest ≤ 365
  leap : rest = 365 → year = 3 ∧ (olympiad = 24 → century = 3)
  sum : day = 36524 * century + 1461 * olympiad + 365 * year + rest

theorem exists_eraDay {day : ℤ} (hfirst : 0 ≤ day) (hlast : day < 146097) :
    ∃ century olympiad year rest, EraDay day century olympiad year rest := by
  obtain ⟨century, hcentury, hday, hend⟩ : ∃ century : ℤ, (0 ≤ century ∧ century ≤ 3) ∧
      0 ≤ day - 36524 * century ∧
      (day - 36524 * century < 36524 ∨ century = 3 ∧ day - 36524 * century ≤ 36524) := by
    by_cases h : day / 36524 ≤ 3
    · exact ⟨day / 36524, by omega, by omega, by omega⟩
    · exact ⟨3, by omega, by omega, by omega⟩
  obtain ⟨olympiad, holympiad, hday', hend'⟩ : ∃ olympiad : ℤ, (0 ≤ olympiad ∧ olympiad ≤ 24) ∧
      0 ≤ day - 36524 * century - 1461 * olympiad ∧ day - 36524 * century - 1461 * olympiad < 1461 :=
    ⟨(day - 36524 * century) / 1461, by omega, by omega, by omega⟩
  by_cases h : (day - 36524 * century - 1461 * olympiad) / 365 ≤ 3
  · exact ⟨century, olympiad, (day - 36524 * century - 1461 * olympiad) / 365,
      (day - 36524 * century - 1461 * olympiad) % 365, hcentury, holympiad, by omega, by omega, by omega,
      by omega⟩
  · exact ⟨century, olympiad, 3, 365, hcentury, holympiad, by omega, by omega, by omega, by omega⟩

theorem EraDay.yearOfEra {day century olympiad year rest : ℤ} (h : EraDay day century olympiad year rest) :
    (day - day / 1460 + day / 36524 - day / 146096) / 365 = 100 * century + 4 * olympiad + year := by
  obtain ⟨hcentury, holympiad, hyear, hrest, hleap, hsum⟩ := h
  by_cases hwhole : rest = 365 ∧ olympiad = 24 ∧ year = 3 ∧ century = 3
  · obtain ⟨rfl, rfl, rfl, rfl⟩ := hwhole
    subst hsum
    norm_num
  · have hcenturies : day / 36524 = century := by omega
    have hera : day / 146096 = 0 := by omega
    by_cases hshort : 24 * century + olympiad + 365 * year + rest < 1460
    · have holympiads : day / 1460 = 25 * century + olympiad := by omega
      omega
    · have holympiads : day / 1460 = 25 * century + olympiad + 1 := by omega
      omega

/-- The leap years before a year of an era. -/
theorem EraDay.leapYears {day century olympiad year rest : ℤ} (h : EraDay day century olympiad year rest) :
    (100 * century + 4 * olympiad + year) / 4 = 25 * century + olympiad ∧
      (100 * century + 4 * olympiad + year) / 100 = century := by
  have holympiad := h.olympiads
  have hyear := h.years
  exact ⟨by omega, by omega⟩

theorem EraDay.lt {day century olympiad year rest : ℤ} (h : EraDay day century olympiad year rest) :
    day < 146097 := by
  have hcentury := h.centuries
  have holympiad := h.olympiads
  have hyear := h.years
  have hrest := h.days
  have hsum := h.sum
  omega

/-- A year that is not the last of its era ends before the next begins. -/
theorem EraDay.yearEnd {day century olympiad year rest : ℤ} (h : EraDay day century olympiad year rest)
    (hlast : 100 * century + 4 * olympiad + year ≠ 399) :
    day < (100 * century + 4 * olympiad + year + 1) * 365 + (100 * century + 4 * olympiad + year + 1) / 4 -
      (100 * century + 4 * olympiad + year + 1) / 100 := by
  have hcentury := h.centuries
  have holympiad := h.olympiads
  have hyear := h.years
  have hrest := h.days
  have hleap := h.leap
  have hsum := h.sum
  by_cases hcarry : year = 3
  · by_cases hcarries : olympiad = 24
    · have hquarters : (100 * century + 4 * olympiad + year + 1) / 4 = 25 * century + 25 := by omega
      have hhundreds : (100 * century + 4 * olympiad + year + 1) / 100 = century + 1 := by omega
      omega
    · have hquarters : (100 * century + 4 * olympiad + year + 1) / 4 = 25 * century + olympiad + 1 := by omega
      have hhundreds : (100 * century + 4 * olympiad + year + 1) / 100 = century := by omega
      omega
  · have hquarters : (100 * century + 4 * olympiad + year + 1) / 4 = 25 * century + olympiad := by omega
    have hhundreds : (100 * century + 4 * olympiad + year + 1) / 100 = century := by omega
    omega

/-! ### Days and months -/

/-- The first day of the month after a month of a year from March. -/
def marchEnd (year month : ℤ) : ℤ := if month = 11 then marchDay (year + 1) 0 else marchDay year (month + 1)

/-- The month of the calendar that a month counted from March is. -/
def ofMarch (year month : ℤ) : YearMonth := if month < 10 then (year, month + 3) else (year + 1, month - 9)

/-- A year of an era, counted in days from its first day. -/
theorem marchDay_era {era year month : ℤ} (h : 0 ≤ year ∧ year ≤ 399) : marchDay (year + era * 400) month =
    era * 146097 + (year * 365 + year / 4 - year / 100) + (153 * month + 2) / 5 - 719468 := by
  have hera : (year + era * 400) / 400 = era := by omega
  have hyear : (year + era * 400) % 400 = year := by omega
  rw [marchDay, hera, hyear]
  ring

theorem marchDay_lastYear (era : ℤ) : marchDay (399 + era * 400 + 1) 0 = (era + 1) * 146097 - 719468 := by
  have hera : (399 + era * 400 + 1) / 400 = era + 1 := by omega
  have hyear : (399 + era * 400 + 1) % 400 = 0 := by omega
  rw [marchDay, hera, hyear]
  omega

/-- The day of its year that a day of an era is, against the first days of the months either side. -/
theorem EraDay.march {day century olympiad year rest : ℤ} (h : EraDay day century olympiad year rest)
    (era : ℤ) : marchDay (100 * century + 4 * olympiad + year + era * 400) ((5 * rest + 2) / 153) ≤
      era * 146097 + day - 719468 ∧
    era * 146097 + day - 719468 <
      marchEnd (100 * century + 4 * olympiad + year + era * 400) ((5 * rest + 2) / 153) := by
  have hyear : 0 ≤ 100 * century + 4 * olympiad + year ∧ 100 * century + 4 * olympiad + year ≤ 399 := by
    have := h.centuries
    have := h.olympiads
    have := h.years
    omega
  obtain ⟨hquarters, hhundreds⟩ := h.leapYears
  have hrest := h.days
  have hsum := h.sum
  constructor
  · rw [marchDay_era hyear, hquarters, hhundreds]
    omega
  · rw [marchEnd]
    split
    · next hlast =>
      by_cases hwhole : 100 * century + 4 * olympiad + year = 399
      · rw [hwhole, marchDay_lastYear]
        have hday := h.lt
        omega
      · have hnext : 0 ≤ 100 * century + 4 * olympiad + year + 1 ∧
            100 * century + 4 * olympiad + year + 1 ≤ 399 := by
          omega
        rw [add_right_comm, marchDay_era hnext]
        have hend := h.yearEnd hwhole
        omega
    · rw [marchDay_era hyear, hquarters, hhundreds]
      omega

theorem exists_march (day : ℤ) : ∃ year month : ℤ, (0 ≤ month ∧ month ≤ 11) ∧
    yearMonth day = ofMarch year month ∧ marchDay year month ≤ day ∧ day < marchEnd year month := by
  obtain ⟨century, olympiad, year, rest, hera⟩ :=
    exists_eraDay (Int.emod_nonneg (day + 719468) (by decide)) (Int.emod_lt_of_pos (day + 719468) (by decide))
  have hday : (day + 719468) / 146097 * 146097 + (day + 719468) % 146097 - 719468 = day := by
    rw [Int.ediv_mul_add_emod, add_sub_cancel_right]
  have hmarch := hera.march ((day + 719468) / 146097)
  rw [hday] at hmarch
  refine ⟨_, _, ?_, ?_, hmarch⟩
  · have hrest := hera.days
    clear hday hmarch hera
    omega
  · obtain ⟨hquarters, hhundreds⟩ := hera.leapYears
    have hrest : (day + 719468) % 146097 - (365 * (100 * century + 4 * olympiad + year) +
        (25 * century + olympiad) - century) = rest := by
      rw [hera.sum]
      ring
    simp only [yearMonth, hera.yearOfEra, hquarters, hhundreds, hrest, ofMarch]

/-- A month of the calendar. -/
def IsMonth (period : YearMonth) : Prop := 1 ≤ period.2 ∧ period.2 ≤ 12

theorem firstDayOf_ofMarch {year month : ℤ} (h : 0 ≤ month ∧ month ≤ 11) :
    firstDayOf (ofMarch year month) = marchDay year month := by
  rw [ofMarch]
  split
  · rw [firstDayOf_of_late (by omega), add_sub_cancel_right]
  · rw [firstDayOf_of_early (by omega), add_sub_cancel_right, sub_add_cancel]

theorem firstDayOf_nextMonth_ofMarch {year month : ℤ} (h : 0 ≤ month ∧ month ≤ 11) :
    firstDayOf (nextMonth (ofMarch year month)) = marchEnd year month := by
  rw [marchEnd, nextMonth, ofMarch]
  by_cases hlast : month = 11
  · subst hlast
    rw [if_pos rfl, if_neg (by decide : ¬(11 : ℤ) < 10), if_neg (by decide : ¬(11 : ℤ) - 9 = 12)]
    exact firstDayOf_of_late (by decide : (2 : ℤ) < 3)
  · rw [if_neg hlast]
    by_cases hlate : month < 10
    · rw [if_pos hlate]
      by_cases hdecember : month = 9
      · subst hdecember
        rw [if_pos (by decide : (9 : ℤ) + 3 = 12), firstDayOf_of_early (by decide), add_sub_cancel_right]
        rfl
      · rw [if_neg (by omega), firstDayOf_of_late (by omega)]
        congr 1
        omega
    · rw [if_neg hlate, if_neg (by omega), firstDayOf_of_early (by omega), add_sub_cancel_right]
      congr 1
      omega

theorem isMonth_ofMarch {year month : ℤ} (h : 0 ≤ month ∧ month ≤ 11) : IsMonth (ofMarch year month) := by
  rw [ofMarch]
  split
  · exact ⟨by omega, by omega⟩
  · exact ⟨by omega, by omega⟩

theorem isMonth_yearMonth (day : Date) : IsMonth (yearMonth day) := by
  obtain ⟨year, month, hmonth, hsame, _⟩ := exists_march day
  exact hsame ▸ isMonth_ofMarch hmonth

/-- A day lies in its month. -/
theorem firstDayOf_yearMonth_le (day : Date) : firstDayOf (yearMonth day) ≤ day := by
  obtain ⟨year, month, hmonth, hsame, hfirst, _⟩ := exists_march day
  rw [hsame, firstDayOf_ofMarch hmonth]
  exact hfirst

theorem lt_firstDayOf_nextMonth (day : Date) : day < firstDayOf (nextMonth (yearMonth day)) := by
  obtain ⟨year, month, hmonth, hsame, _, hlast⟩ := exists_march day
  rw [hsame, firstDayOf_nextMonth_ofMarch hmonth]
  exact hlast

theorem isMonth_nextMonth {period : YearMonth} (h : IsMonth period) : IsMonth (nextMonth period) := by
  rw [nextMonth]
  split
  · exact ⟨le_refl (1 : ℤ), (by decide : (1 : ℤ) ≤ 12)⟩
  · next hdecember => exact ⟨by have := h.1; omega, by have := h.2; omega⟩

theorem monthIndex_nextMonth (period : YearMonth) : monthIndex (nextMonth period) = monthIndex period + 1 := by
  rw [nextMonth, monthIndex, monthIndex]
  split
  · next hdecember => rw [hdecember]; ring
  · ring

theorem exists_ofMarch {period : YearMonth} (h : IsMonth period) :
    ∃ year month, (0 ≤ month ∧ month ≤ 11) ∧ period = ofMarch year month := by
  obtain ⟨year, month⟩ := period
  obtain ⟨hlow, hhigh⟩ := h
  by_cases hlate : 2 < month
  · refine ⟨year, month - 3, by omega, ?_⟩
    rw [ofMarch, if_pos (by omega), sub_add_cancel]
  · refine ⟨year - 1, month + 9, by omega, ?_⟩
    rw [ofMarch, if_neg (by omega), sub_add_cancel, add_sub_cancel_right]

/-- A month has a day. -/
theorem firstDayOf_lt_nextMonth {period : YearMonth} (h : IsMonth period) :
    firstDayOf period < firstDayOf (nextMonth period) := by
  obtain ⟨year, month, hmonth, rfl⟩ := exists_ofMarch h
  rw [firstDayOf_ofMarch hmonth, firstDayOf_nextMonth_ofMarch hmonth, marchEnd]
  split
  · next hlast => exact hlast ▸ marchDay_year year
  · exact marchDay_next year month

theorem monthIndex_injective {period other : YearMonth} (h : IsMonth period) (hother : IsMonth other)
    (hsame : monthIndex period = monthIndex other) : period = other := by
  obtain ⟨year, month⟩ := period
  obtain ⟨year', month'⟩ := other
  obtain ⟨hlow, hhigh⟩ := h
  obtain ⟨hlow', hhigh'⟩ := hother
  simp only [monthIndex] at hsame hlow hhigh hlow' hhigh'
  rw [Prod.mk.injEq]
  omega

/-- A month ends before a later one begins. -/
theorem firstDayOf_nextMonth_le {period : YearMonth} (h : IsMonth period) : ∀ {other : YearMonth},
    IsMonth other → monthIndex period < monthIndex other → firstDayOf (nextMonth period) ≤ firstDayOf other := by
  intro other hother hlt
  obtain ⟨count, hcount⟩ : ∃ count : ℕ, monthIndex other = monthIndex (nextMonth period) + count :=
    ⟨(monthIndex other - monthIndex period - 1).toNat, by rw [monthIndex_nextMonth]; omega⟩
  have hafter : ∀ (count : ℕ) {later : YearMonth}, IsMonth later →
      firstDayOf later ≤ firstDayOf (nextMonth^[count] later) ∧ IsMonth (nextMonth^[count] later) ∧
      monthIndex (nextMonth^[count] later) = monthIndex later + count := by
    intro count
    induction count with
    | zero => exact fun hlater => ⟨le_rfl, hlater, by simp⟩
    | succ count ih =>
      intro later hlater
      obtain ⟨hle, hmonth, hindex⟩ := ih (isMonth_nextMonth hlater)
      rw [Function.iterate_succ_apply]
      refine ⟨(firstDayOf_lt_nextMonth hlater).le.trans hle, hmonth, ?_⟩
      rw [hindex, monthIndex_nextMonth]
      push_cast
      ring
  obtain ⟨hle, hmonth, hindex⟩ := hafter count (isMonth_nextMonth h)
  rwa [← monthIndex_injective hmonth hother (hindex.trans hcount.symm)]

/-- Only its own month holds a day. -/
theorem yearMonth_eq {period : YearMonth} {day : Date} (h : IsMonth period) (hfirst : firstDayOf period ≤ day)
    (hlast : day < firstDayOf (nextMonth period)) : yearMonth day = period := by
  have hmonth := isMonth_yearMonth day
  rcases lt_trichotomy (monthIndex (yearMonth day)) (monthIndex period) with hlt | heq | hgt
  · have hbefore := firstDayOf_nextMonth_le hmonth h hlt
    exact absurd ((lt_firstDayOf_nextMonth day).trans_le hbefore) (not_lt.mpr hfirst)
  · exact monthIndex_injective hmonth h heq
  · have hafter := firstDayOf_nextMonth_le h hmonth hgt
    exact absurd (hlast.trans_le (hafter.trans (firstDayOf_yearMonth_le day))) (lt_irrefl _)

theorem yearMonth_firstDayOf {period : YearMonth} (h : IsMonth period) : yearMonth (firstDayOf period) = period :=
  yearMonth_eq h le_rfl (firstDayOf_lt_nextMonth h)

/-- An earlier day has no later month. -/
theorem monthIndex_mono {day later : Date} (h : day ≤ later) :
    monthIndex (yearMonth day) ≤ monthIndex (yearMonth later) := by
  by_contra hlt
  have hbefore := firstDayOf_nextMonth_le (isMonth_yearMonth later) (isMonth_yearMonth day) (not_le.mp hlt)
  have hlast := (lt_firstDayOf_nextMonth later).trans_le (hbefore.trans (firstDayOf_yearMonth_le day))
  exact absurd hlast (not_lt.mpr h)

end FinanceKing.Data
