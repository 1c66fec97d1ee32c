import Scaffold.Time.Calendar

/-! The calendar counts right: the day of a number exists (`isValid_ofNumber`) and has that number
    (`number_ofNumber`). Years begin in March here. An era is cut into centuries, groups of four years, and years
    (`EraDay`), each of which is a day shorter than its part of the era but for the last. -/

namespace Scaffold

/-- A day of an era by century, group of four years, year, and day of the year. -/
structure EraDay (n century group year day : Nat) : Prop where
  century_le : century ≤ 3
  group_le : group ≤ 24
  year_le : year ≤ 3
  day_le : day ≤ 365
  /-- a leap day is at the end of the last year of a group, but for the groups at the end of the first centuries -/
  leap : day = 365 → year = 3 ∧ (group < 24 ∨ century = 3)
  sum : n = 36524 * century + 1461 * group + 365 * year + day

theorem exists_eraDay {n : Nat} (h : n < daysInEra) : ∃ century group year day, EraDay n century group year day := by
  have hera : n < 146097 := h
  obtain ⟨century, r, hcentury, hr, hn⟩ : ∃ century r, century ≤ 3 ∧ (r < 36524 ∨ (century = 3 ∧ r = 36524)) ∧
      n = 36524 * century + r := by
    by_cases hlast : n = 146096
    · exact ⟨3, 36524, by omega, by omega, by omega⟩
    · exact ⟨n / 36524, n % 36524, by omega, by omega, by omega⟩
  obtain ⟨group, r', hgroup, hr', hrest⟩ : ∃ group r', group ≤ 24 ∧ r' < 1461 ∧ r = 1461 * group + r' :=
    ⟨r / 1461, r % 1461, by omega, by omega, by omega⟩
  by_cases hleap : r' = 1460
  · exact ⟨century, group, 3, 365, hcentury, hgroup, by omega, by omega, by omega, by omega⟩
  · exact ⟨century, group, r' / 365, r' % 365, hcentury, hgroup, by omega, by omega, by omega, by omega⟩

namespace EraDay
variable {n century group year day : Nat}

theorem yearOfEra (h : EraDay n century group year day) :
    (n - n / 1460 + n / 36524 - n / 146096) / 365 = 100 * century + 4 * group + year := by
  obtain ⟨hcentury, hgroup, hyear, hday, hleap, hn⟩ := h
  -- a century and the end of the era count the same
  have hends : n / 36524 - n / 146096 = century ∧ n / 146096 ≤ n / 36524 := by omega
  have hgroups : n / 1460 = 25 * century + group + (24 * century + group + 365 * year + day) / 1460 := by omega
  have hlate : (24 * century + group + 365 * year + day) / 1460 ≤ day ∧
      day - (24 * century + group + 365 * year + day) / 1460 ≤ 364 := by omega
  omega

theorem dayOfYear (h : EraDay n century group year day) :
    n - (365 * (100 * century + 4 * group + year) + (100 * century + 4 * group + year) / 4
      - (100 * century + 4 * group + year) / 100) = day := by
  obtain ⟨hcentury, hgroup, hyear, hday, hleap, hn⟩ := h
  omega

theorem daysOfYears (h : EraDay n century group year day) :
    (100 * century + 4 * group + year) * 365 + (100 * century + 4 * group + year) / 4
      - (100 * century + 4 * group + year) / 100 + day = n := by
  obtain ⟨hcentury, hgroup, hyear, hday, hleap, hn⟩ := h
  omega

end EraDay

/-- The days of a year from the beginning of a month on. -/
def daysBefore (month : Nat) : Nat := (153 * month + 2) / 5

/-- The month of a day of the year, counted from March. -/
def monthOf (day : Nat) : Nat := (5 * day + 2) / 153

theorem daysBefore_monthOf_le (day : Nat) : daysBefore (monthOf day) ≤ day := by
  unfold daysBefore monthOf
  omega

/-- A month of the calendar by its number from March on. -/
def realMonth (month : Nat) : Nat := if month < 10 then month + 3 else month - 9

theorem month_realMonth {month : Nat} (h : month ≤ 11) :
    (if realMonth month ≤ 2 then realMonth month + 9 else realMonth month - 3) = month := by
  have hall : ∀ month ≤ 11, (if realMonth month ≤ 2 then realMonth month + 9 else realMonth month - 3) = month := by
    decide
  exact hall month h

theorem monthOf_le {day : Nat} (h : day ≤ 365) : monthOf day ≤ 11 := by
  unfold monthOf
  omega

theorem lt_daysBefore_succ (day : Nat) : day < daysBefore (monthOf day + 1) := by
  unfold daysBefore monthOf
  omega

theorem daysBefore_succ_le {month : Nat} (year : Int) (h : month < 11) :
    daysBefore (month + 1) ≤ daysBefore month + daysInMonth year (realMonth month) := by
  have hall : ∀ month < 11, realMonth month ≠ 2 ∧ daysBefore (month + 1) ≤
      daysBefore month + if [4, 6, 9, 11].contains (realMonth month) then 30 else 31 := by decide
  obtain ⟨hfebruary, hdays⟩ := hall month h
  rwa [daysInMonth, if_neg hfebruary]

theorem day_le_daysInMonth {year : Int} {day : Nat} (hday : day ≤ 365) (hleap : day = 365 → isLeapYear year = true) :
    day - daysBefore (monthOf day) + 1 ≤ daysInMonth year (realMonth (monthOf day)) := by
  have hbefore := daysBefore_monthOf_le day
  have hafter := lt_daysBefore_succ day
  rcases Nat.lt_or_eq_of_le (monthOf_le hday) with hmonth | hmonth
  · have hlength := daysBefore_succ_le year hmonth
    omega
  · -- February is the last month
    have hlength : daysInMonth year (realMonth 11) = if isLeapYear year then 29 else 28 := rfl
    have hstart : daysBefore 11 = 337 := rfl
    rw [hmonth, hlength, hstart]
    split
    · omega
    · rename_i hnot
      have hne : day ≠ 365 := fun h => hnot (hleap h)
      omega

/-- A year of an era, counted from March, in which a month lies. -/
def realYear (era : Int) (yearOfEra month : Nat) : Int :=
  era * 400 + yearOfEra + (if realMonth month ≤ 2 then 1 else 0)

/-- The day of a number is put together from the parts of its era. -/
theorem Day.ofNumber_eq (n : Int) : ∃ century group year day,
    EraDay ((n + epochDay) % daysInEra).toNat century group year day ∧
    Day.ofNumber n = ⟨realYear ((n + epochDay) / daysInEra) (100 * century + 4 * group + year) (monthOf day),
      realMonth (monthOf day), day - daysBefore (monthOf day) + 1⟩ := by
  have hrange : ((n + epochDay) % daysInEra).toNat < daysInEra := by
    unfold daysInEra
    omega
  obtain ⟨century, group, year, day, hparts⟩ := exists_eraDay hrange
  refine ⟨century, group, year, day, hparts, ?_⟩
  unfold Day.ofNumber
  dsimp only
  rw [hparts.yearOfEra, hparts.dayOfYear]
  rfl

theorem Day.isValid_ofNumber (n : Int) : (Day.ofNumber n).isValid = true := by
  obtain ⟨century, group, year, day, hparts, heq⟩ := Day.ofNumber_eq n
  have hleap : day = 365 → isLeapYear (realYear ((n + epochDay) / daysInEra) (100 * century + 4 * group + year)
      (monthOf day)) = true := by
    rintro rfl
    obtain ⟨hyear, hlast⟩ := hparts.leap rfl
    have hgroup := hparts.group_le
    have hmonth : realMonth (monthOf 365) = 2 := rfl
    simp only [realYear, hmonth, isLeapYear, Bool.and_eq_true, Bool.or_eq_true, decide_eq_true_eq]
    omega
  have hmonth : 1 ≤ realMonth (monthOf day) ∧ realMonth (monthOf day) ≤ 12 := by
    have hle := monthOf_le hparts.day_le
    unfold realMonth
    split <;> omega
  rw [heq]
  simp only [Day.isValid, Bool.and_eq_true, decide_eq_true_eq]
  exact ⟨⟨hmonth, Nat.le_add_left ..⟩, day_le_daysInMonth hparts.day_le hleap⟩

theorem Day.number_ofNumber (n : Int) : (Day.ofNumber n).number = n := by
  obtain ⟨century, group, year, day, hparts, heq⟩ := Day.ofNumber_eq n
  obtain ⟨era, hera⟩ : ∃ era, (n + epochDay) / daysInEra = era := ⟨_, rfl⟩
  obtain ⟨yearOfEra, hyearOfEra⟩ : ∃ y, 100 * century + 4 * group + year = y := ⟨_, rfl⟩
  have hyear : (if realMonth (monthOf day) ≤ 2 then realYear era yearOfEra (monthOf day) - 1
      else realYear era yearOfEra (monthOf day)) = era * 400 + yearOfEra := by
    unfold realYear
    split <;> omega
  have hday : daysBefore (monthOf day) + (day - daysBefore (monthOf day) + 1) - 1 = day := by
    have hle := daysBefore_monthOf_le day
    omega
  have hsmall : yearOfEra < 400 := by
    have hcentury := hparts.century_le
    have hgroup := hparts.group_le
    have hyear := hparts.year_le
    omega
  have hera400 : (era * 400 + yearOfEra) / 400 = era ∧ ((era * 400 + yearOfEra) % 400).toNat = yearOfEra := by omega
  have hsum : ((yearOfEra * 365 + yearOfEra / 4 - yearOfEra / 100 + day : Nat) : Int) = (n + epochDay) % daysInEra := by
    rw [← hyearOfEra, hparts.daysOfYears]
    exact Int.toNat_of_nonneg (Int.emod_nonneg _ (by decide))
  rw [heq, hera, hyearOfEra]
  unfold Day.number
  dsimp only
  rw [hyear, month_realMonth (monthOf_le hparts.day_le), hera400.1, hera400.2]
  change era * daysInEra + ((yearOfEra * 365 + yearOfEra / 4 - yearOfEra / 100 +
    (daysBefore (monthOf day) + (day - daysBefore (monthOf day) + 1) - 1) : Nat) : Int) - epochDay = n
  rw [hday, hsum, ← hera, Int.ediv_mul_add_emod]
  exact Int.add_sub_cancel n epochDay

end Scaffold
