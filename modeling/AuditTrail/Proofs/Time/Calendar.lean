import AuditTrail.Time.Calendar
import AuditTrail.Time.Instant

/-!
# Dates and days

`toDays` undoes `ofDays`, and the date of a day is one that exists. An era of 400 years has 146097 days. Inside it `ofDays` finds
the year by taking the leap days out and dividing by 365; `yearOfEra_bounds` says that this is right. Taking out the leap days
keeps the order of the days, so it is enough to look at the first day of each of the 400 years and at the day before it.
-/

namespace AuditTrail.Date

/-! ## The year inside an era -/

/-- The days of an era up to one of them, without those that end a leap year. -/
def withoutLeapDays (day : Int) : Int := day - day / 1460 + day / 36524 - day / 146096

/-- The first day of a year inside its era. The year starts in March. -/
def startOfYear (year : Int) : Int := 365 * year + year / 4 - year / 100

/-- A later day has no fewer days before it when the leap days are taken out. -/
theorem withoutLeapDays_mono {a b : Int} (h : a ≤ b) : withoutLeapDays a ≤ withoutLeapDays b := by
  have hfours : a - a / 1460 ≤ b - b / 1460 := by omega
  have hcenturies : a / 36524 - a / 146096 ≤ b / 36524 - b / 146096 := by omega
  simp only [withoutLeapDays]
  omega

/-- The first days of the years of an era and the days before them, the leap days taken out. -/
theorem withoutLeapDays_startOfYear (year : Nat) (h : year < 400) :
    365 * (year : Int) ≤ withoutLeapDays (startOfYear year) ∧
      (0 < year → withoutLeapDays (startOfYear year - 1) < 365 * (year : Int)) := by
  have all : ∀ year : Nat, year < 400 → 365 * (year : Int) ≤ withoutLeapDays (startOfYear year) ∧
      (0 < year → withoutLeapDays (startOfYear year - 1) < 365 * (year : Int)) := by decide +kernel
  exact all year h

/-- The year that `ofDays` finds for a day of an era is the one the day lies in. -/
theorem yearOfEra_bounds (day : Int) (h0 : 0 ≤ day) (h1 : day < 146097) :
    0 ≤ withoutLeapDays day / 365 ∧ withoutLeapDays day / 365 < 400 ∧ startOfYear (withoutLeapDays day / 365) ≤ day ∧
      (withoutLeapDays day / 365 < 399 → day < startOfYear (withoutLeapDays day / 365 + 1)) := by
  have hlow : withoutLeapDays 0 ≤ withoutLeapDays day := withoutLeapDays_mono h0
  have hhigh : withoutLeapDays day ≤ withoutLeapDays 146096 := withoutLeapDays_mono (by omega)
  have hlow' : withoutLeapDays 0 = 0 := by decide
  have hhigh' : withoutLeapDays 146096 = 145999 := by decide
  obtain ⟨year, hyear⟩ : ∃ year : Nat, withoutLeapDays day / 365 = year := ⟨(withoutLeapDays day / 365).toNat, by omega⟩
  rw [hyear]
  refine ⟨by omega, by omega, Int.not_lt.mp fun hbefore => ?_, fun hlt => Int.not_le.mp fun hafter => ?_⟩
  · have hpos : 0 < year := Nat.pos_of_ne_zero fun h => by
      subst h
      exact absurd hbefore (Int.not_lt.mpr h0)
    have := withoutLeapDays_mono (show day ≤ startOfYear year - 1 by omega)
    have := (withoutLeapDays_startOfYear year (by omega)).2 hpos
    omega
  · have := withoutLeapDays_mono hafter
    have := (withoutLeapDays_startOfYear (year + 1) (by omega)).1
    rw [Int.natCast_succ] at this
    omega

/-! ## The parts of a date -/

theorem isLeapYear_iff (y : Int) : isLeapYear y = true ↔ y % 4 = 0 ∧ (y % 100 ≠ 0 ∨ y % 400 = 0) := by
  simp [isLeapYear]

/-- The years of every era have the same lengths. -/
theorem isLeapYear_add (y era : Int) : isLeapYear (y + era * 400) = isLeapYear y := by
  rw [Bool.eq_iff_iff, isLeapYear_iff, isLeapYear_iff]
  omega

/-- How many days after its first one a year of an era ends. The leap day belongs to the year that is about to begin. -/
def lastDayOfYear (year : Int) : Int := if isLeapYear (year + 1) then 365 else 364

/-- The day before the first one of the next year is the last one of the year. -/
theorem startOfYear_succ {year : Int} (h0 : 0 ≤ year) (h1 : year < 399) :
    startOfYear (year + 1) = startOfYear year + lastDayOfYear year + 1 := by
  have hfours : (year + 1) / 4 = year / 4 + if (year + 1) % 4 = 0 then 1 else 0 := by split <;> omega
  have hcenturies : (year + 1) / 100 = year / 100 + if (year + 1) % 100 = 0 then 1 else 0 := by split <;> omega
  have hleap : isLeapYear (year + 1) = true ↔ (year + 1) % 4 = 0 ∧ (year + 1) % 100 ≠ 0 := by
    rw [isLeapYear_iff]
    omega
  simp only [startOfYear, lastDayOfYear, hfours, hcenturies, hleap]
  by_cases h4 : (year + 1) % 4 = 0
  · by_cases h100 : (year + 1) % 100 = 0
    · simp only [h4, h100, if_true, ne_eq, not_true_eq_false, and_false, if_false]
      omega
    · simp only [h4, h100, if_true, ne_eq, not_false_eq_true, and_true, if_false]
      omega
  · have h100 : (year + 1) % 100 ≠ 0 := by omega
    simp only [h4, h100, false_and, if_false]
    omega

/-- A date by the parts that `ofDays` computes: a year that is counted from March, and a day of that year. -/
def ofParts (year dayOfYear : Int) : Date :=
  let monthFromMarch := (5 * dayOfYear + 2) / 153
  let month := if monthFromMarch < 10 then (monthFromMarch + 3).toNat else (monthFromMarch - 9).toNat
  ⟨year + (if month ≤ 2 then 1 else 0), month, (dayOfYear - (153 * monthFromMarch + 2) / 5 + 1).toNat⟩

/-- A day is a day of a year of an era. -/
theorem exists_parts (days : Int) : ∃ era year dayOfYear : Int, days + 719468 = era * 146097 + (startOfYear year + dayOfYear) ∧
    0 ≤ year ∧ year < 400 ∧ 0 ≤ dayOfYear ∧ dayOfYear ≤ lastDayOfYear year ∧ ofDays days = ofParts (year + era * 400) dayOfYear := by
  obtain ⟨hy0, hy1, hstart, hnext⟩ := yearOfEra_bounds ((days + 719468) % 146097) (by omega) (by omega)
  refine ⟨(days + 719468) / 146097, withoutLeapDays ((days + 719468) % 146097) / 365,
    (days + 719468) % 146097 - startOfYear (withoutLeapDays ((days + 719468) % 146097) / 365), by omega, hy0, hy1, by omega,
    ?_, ?_⟩
  · generalize withoutLeapDays ((days + 719468) % 146097) / 365 = year at *
    by_cases h : year < 399
    · have := hnext h
      rw [startOfYear_succ hy0 h] at this
      omega
    · obtain rfl : year = 399 := by omega
      have hlast : startOfYear 399 + lastDayOfYear 399 = 146096 := by decide
      omega
  · rfl

/-- The parts of a date give its year, its month and its day. January and February belong to the year that is about to end. -/
theorem ofParts_cases (year : Int) {dayOfYear : Int} (h0 : 0 ≤ dayOfYear) (h1 : dayOfYear ≤ 365) :
    ∃ month day : Nat, (dayOfYear = (153 * (month : Int) + 2) / 5 + day - 1 ∧ 1 ≤ day ∧ 5 * dayOfYear + 2 < 153 * (month + 1)) ∧
      ((month < 10 ∧ ofParts year dayOfYear = ⟨year, month + 3, day⟩) ∨
        ((month = 10 ∨ month = 11) ∧ ofParts year dayOfYear = ⟨year + 1, month - 9, day⟩)) := by
  obtain ⟨month, hmonth⟩ : ∃ month : Nat, (5 * dayOfYear + 2) / 153 = month := ⟨((5 * dayOfYear + 2) / 153).toNat, by omega⟩
  refine ⟨month, (dayOfYear - (153 * (month : Int) + 2) / 5 + 1).toNat, ⟨by omega, by omega, by omega⟩, ?_⟩
  simp only [ofParts, hmonth]
  by_cases hlt : month < 10
  · left
    have hm : ((month : Int) + 3).toNat = month + 3 := by omega
    simp only [if_pos (show (month : Int) < 10 by omega), hm, if_neg (show ¬ month + 3 ≤ 2 by omega), Int.add_zero, and_true]
    exact hlt
  · right
    have hm : ((month : Int) - 9).toNat = month - 9 := by omega
    simp only [if_neg (show ¬ (month : Int) < 10 by omega), hm, if_pos (show month - 9 ≤ 2 by omega), and_true]
    omega

/-- From March to December a month has as many days as the linear rule puts between its start and the next. -/
theorem monthLength_add_three (year : Int) {month : Nat} (h : month < 10) :
    monthLength year (month + 3) = (153 * (month + 1) + 2) / 5 - (153 * month + 2) / 5 := by
  have hyear : monthLength year (month + 3) = monthLength 0 (month + 3) := by
    simp only [monthLength, if_neg (show month + 3 ≠ 2 by omega)]
  have all : ∀ month < 10, monthLength 0 (month + 3) = (153 * (month + 1) + 2) / 5 - (153 * month + 2) / 5 := by decide
  rw [hyear, all month h]

/-! ## Dates and days -/

/-- The month of a date that exists is one of twelve, and its day one of thirty-one. -/
theorem bounds_of_isValid {d : Date} (h : d.isValid = true) : (1 ≤ d.month ∧ d.month ≤ 12) ∧ 1 ≤ d.day ∧ d.day ≤ 31 := by
  simp only [isValid, Bool.and_eq_true, decide_eq_true_eq] at h
  obtain ⟨h1, h2⟩ := h
  unfold monthLength at h2
  split at h2
  · split at h2 <;> omega
  · split at h2
    · omega
    · split at h2 <;> omega

/-- The date of a day exists. -/
theorem isValid_ofDays (days : Int) : (ofDays days).isValid = true := by
  obtain ⟨era, year, dayOfYear, hdays, hy0, hy1, hd0, hd1, hof⟩ := exists_parts days
  have hlast : lastDayOfYear year ≤ 365 := by unfold lastDayOfYear; split <;> decide
  obtain ⟨month, day, ⟨hday, hpos, hnext⟩, hcases⟩ := ofParts_cases (year + era * 400) hd0 (by omega)
  have hlength : day ≤ monthLength (ofParts (year + era * 400) dayOfYear).year (ofParts (year + era * 400) dayOfYear).month := by
    obtain ⟨hlt, hdate⟩ | ⟨rfl | rfl, hdate⟩ := hcases
    · rw [hdate, monthLength_add_three _ hlt]
      have hstart : (153 * (month : Int) + 2) / 5 = ((153 * month + 2) / 5 : Nat) := by omega
      have hend : (153 * month + 2) / 5 + day ≤ (153 * (month + 1) + 2) / 5 := by
        rw [Nat.le_div_iff_mul_le (by decide)]
        omega
      exact Nat.le_sub_of_add_le' hend
    · rw [hdate, show monthLength (year + era * 400 + 1) (10 - 9) = 31 from rfl]
      omega
    · rw [hdate, show monthLength (year + era * 400 + 1) (11 - 9) = if isLeapYear (year + era * 400 + 1) then 29 else 28 from rfl,
        show year + era * 400 + 1 = year + 1 + era * 400 by omega, isLeapYear_add]
      unfold lastDayOfYear at hd1
      split at hd1
      · rename_i hleap
        rw [if_pos hleap]
        omega
      · rename_i hleap
        rw [if_neg hleap]
        omega
  have hday' : (ofParts (year + era * 400) dayOfYear).day = day := by
    obtain ⟨-, hdate⟩ | ⟨-, hdate⟩ := hcases <;> rw [hdate]
  rw [hof, isValid, hday']
  simp [hpos, hlength]

/-- The days of the date of a day are that day. -/
theorem toDays_ofDays (days : Int) : (ofDays days).toDays = days := by
  obtain ⟨era, year, dayOfYear, hdays, hy0, hy1, hd0, hd1, hof⟩ := exists_parts days
  have hlast : lastDayOfYear year ≤ 365 := by unfold lastDayOfYear; split <;> decide
  have hera : (year + era * 400) / 400 = era := by omega
  have hyear : (year + era * 400) % 400 = year := by omega
  obtain ⟨month, day, ⟨hday, hpos, -⟩, ⟨hlt, hdate⟩ | ⟨hlate, hdate⟩⟩ := ofParts_cases (year + era * 400) hd0 (by omega)
  · have hm : ((month + 3 : Nat) : Int) - 3 = month := by omega
    simp only [hof, hdate, toDays, if_neg (show ¬ month + 3 ≤ 2 by omega), hera, hyear, hm]
    simp only [startOfYear] at hdays
    omega
  · have hm : ((month - 9 : Nat) : Int) + 9 = month := by omega
    have hback : year + era * 400 + 1 - 1 = year + era * 400 := by omega
    simp only [hof, hdate, toDays, if_pos (show month - 9 ≤ 2 by omega), hback, hera, hyear, hm]
    simp only [startOfYear] at hdays
    omega

/-- The days that an instant can lie in have years that a date can be written with. -/
theorem year_ofDays (days : Int) (h0 : Instant.leastSecond / 86400 ≤ days) (h1 : days ≤ Instant.greatestSecond / 86400) :
    -262143 ≤ (ofDays days).year ∧ (ofDays days).year ≤ 262142 := by
  obtain ⟨era, year, dayOfYear, hdays, hy0, hy1, hd0, hd1, hof⟩ := exists_parts days
  have hlast : lastDayOfYear year ≤ 365 := by unfold lastDayOfYear; split <;> decide
  have hleast : Instant.leastSecond / 86400 = -96465292 := by decide
  have hgreatest : Instant.greatestSecond / 86400 = 95026236 := by decide
  simp only [startOfYear] at hdays
  have hera : -656 ≤ era ∧ era ≤ 655 := by omega
  -- the first year of the calendar begins in the tenth month, and the last one ends before it
  have hlow : -262144 ≤ year + era * 400 ∧ (year + era * 400 = -262144 → 306 ≤ dayOfYear) := by
    obtain rfl | hafter : era = -656 ∨ -655 ≤ era := by omega
    · obtain hlt | rfl | hgt : year ≤ 255 ∨ year = 256 ∨ 257 ≤ year := by omega
      all_goals omega
    · omega
  have hhigh : year + era * 400 ≤ 262142 ∧ (year + era * 400 = 262142 → dayOfYear ≤ 305) := by
    obtain rfl | hbefore : era = 655 ∨ era ≤ 654 := by omega
    · obtain hlt | rfl | hgt : year ≤ 141 ∨ year = 142 ∨ 143 ≤ year := by omega
      all_goals omega
    · omega
  obtain ⟨month, day, ⟨hday, hpos, hnext⟩, ⟨hlt, hdate⟩ | ⟨hlate, hdate⟩⟩ :=
    ofParts_cases (year + era * 400) hd0 (by omega)
  · have hearly : dayOfYear ≤ 305 := by omega
    simp only [hof, hdate]
    omega
  · have hlate' : 306 ≤ dayOfYear := by omega
    simp only [hof, hdate]
    omega

end AuditTrail.Date
