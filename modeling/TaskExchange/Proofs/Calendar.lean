import TaskExchange.Time.Calendar

/-!
The calendar there and back: a count of days stands for a day that exists, and this day is counted
back to the same number.  Both directions reckon in years that begin in March and in eras of four
hundred such years; what they have in common is the place of a day in its era (`Place`).  Main
statements: `toDays_ofDays`, and `isValid_ofDays` for the days that a time stamp can name.
-/

namespace TaskExchange.Date

/-- The place of a day: its era, the year of the era, and the month and the day of the year, where
the year begins in March and all are counted from zero. -/
structure Place (days era year month day : Int) : Prop where
  sum : days + 719468 = era * 146097 + (365 * year + year / 4 - year / 100 + day)
  inEra : 0 ≤ year ∧ year < 400
  inYear : 0 ≤ month ∧ month < 12
  /-- From March on, months have 31, 30, 31, 30 and 31 days, and so on from the first. -/
  inMonth : (153 * month + 2) / 5 ≤ day ∧ day < (153 * (month + 1) + 2) / 5
  /-- Only a leap year has so many days. -/
  leap : day ≤ 365 ∧ (day = 365 → year % 4 = 3 ∧ (year % 100 = 99 → year = 399))

/-- The day of a place. -/
def ofPlace (era year month day : Int) : Date :=
  ⟨era * 400 + year + if month < 10 then 0 else 1,
    (if month < 10 then month + 3 else month - 9).toNat,
    (day - (153 * month + 2) / 5 + 1).toNat⟩

/-- A day of an era, taken apart into centuries, groups of four years, years and days.  The last
century, and the last year of a group, may be a day longer than the others. -/
structure Parts (dayOfEra century group year day : Int) : Prop where
  sum : dayOfEra = 36524 * century + 1461 * group + 365 * year + day
  inEra : 0 ≤ century ∧ century ≤ 3
  inCentury : 0 ≤ group ∧ group ≤ 24
  inGroup : 0 ≤ year ∧ year ≤ 3
  inYear : 0 ≤ day ∧ day ≤ 365
  leap : day = 365 → year = 3 ∧ (group < 24 ∨ century = 3)

variable {days era year month day dayOfEra century group : Int}

theorem exists_parts (h : 0 ≤ dayOfEra) (h' : dayOfEra < 146097) :
    ∃ century group year day, Parts dayOfEra century group year day := by
  obtain ⟨century, rest, rfl, hcentury, hrest, hlast⟩ : ∃ century rest,
      dayOfEra = 36524 * century + rest ∧ (0 ≤ century ∧ century ≤ 3) ∧
        (0 ≤ rest ∧ rest ≤ 36524) ∧ (rest = 36524 → century = 3) :=
    ⟨min 3 (dayOfEra / 36524), dayOfEra - 36524 * min 3 (dayOfEra / 36524), by omega⟩
  clear h h'
  refine ⟨century, rest / 1461, min 3 (rest % 1461 / 365),
    rest % 1461 - 365 * min 3 (rest % 1461 / 365), ?_⟩
  constructor <;> omega

/-- The year of an era is found by taking the leap days out of the days. -/
theorem Parts.year_eq (h : Parts dayOfEra century group year day) :
    (dayOfEra - dayOfEra / 1460 + dayOfEra / 36524 - dayOfEra / 146096) / 365 =
      100 * century + 4 * group + year := by
  obtain ⟨hsum, hcentury, hgroup, hyear, hday, hleap⟩ := h
  have hgroups : dayOfEra / 1460 =
      25 * century + group + (24 * century + group + 365 * year + day) / 1460 := by omega
  have hcenturies : dayOfEra / 36524 = if dayOfEra = 146096 then 4 else century := by omega
  have hera : dayOfEra / 146096 = if dayOfEra = 146096 then 1 else 0 := by omega
  rw [hgroups, hcenturies, hera]
  split <;> omega

/-- The days of the years before one. -/
theorem Parts.days_eq (h : Parts dayOfEra century group year day) :
    dayOfEra = 365 * (100 * century + 4 * group + year) + (100 * century + 4 * group + year) / 4 -
      (100 * century + 4 * group + year) / 100 + day := by
  obtain ⟨rfl, hcentury, hgroup, hyear, -, -⟩ := h
  omega

theorem Parts.place (h : Parts (days + 719468 - era * 146097) century group year day) :
    Place days era (100 * century + 4 * group + year) ((5 * day + 2) / 153) day := by
  have hdays := h.days_eq
  obtain ⟨-, hcentury, hgroup, hyear, hday, hleap⟩ := h
  refine ⟨by omega, by omega, ?_, ?_, hday.2, ?_⟩ <;> clear hdays
  · omega
  · omega
  · clear hday
    omega

/-- Every count of days has a place, and the day that it stands for is the one of this place. -/
theorem exists_place (days : Int) : ∃ era year month day, Place days era year month day ∧
    ofDays days = ofPlace era year month day := by
  have hera := Int.mul_fdiv_add_fmod (days + 719468) 146097
  have hnonneg := Int.fmod_nonneg_of_pos (days + 719468) (b := 146097) (by decide)
  have hlt := Int.fmod_lt_of_pos (days + 719468) (b := 146097) (by decide)
  generalize hquot : (days + 719468).fdiv 146097 = era at hera
  have hinEra : 0 ≤ days + 719468 - era * 146097 ∧ days + 719468 - era * 146097 < 146097 := by
    omega
  obtain ⟨century, group, year, day, hparts⟩ := exists_parts hinEra.1 hinEra.2
  refine ⟨era, _, _, day, hparts.place, ?_⟩
  have hyear := hparts.year_eq
  have hday : days + 719468 - era * 146097 - (365 * (100 * century + 4 * group + year) +
      (100 * century + 4 * group + year) / 4 - (100 * century + 4 * group + year) / 100) = day :=
    Int.sub_eq_iff_eq_add'.mpr hparts.days_eq
  have hmonth := hparts.place.inYear
  simp only [ofDays, hquot, hyear, hday, ofPlace]
  generalize (5 * day + 2) / 153 = month at hmonth
  generalize 100 * century + 4 * group + year = year
  split <;> simp [mk.injEq] <;> omega

/-- The day of a place is counted back to the days of the place. -/
theorem Place.toDays_ofPlace (h : Place days era year month day) :
    (ofPlace era year month day).toDays = days := by
  obtain ⟨hsum, hyear, hmonth, hday, -⟩ := h
  have hera : (era * 400 + year).fdiv 400 = era := by
    rw [Int.fdiv_eq_ediv_of_nonneg _ (by decide)]
    omega
  have hmarch : (((ofPlace era year month day).month : Int) + 9) % 12 = month := by
    simp only [ofPlace]
    split <;> omega
  have hfirst : ((ofPlace era year month day).day : Int) = day - (153 * month + 2) / 5 + 1 := by
    simp only [ofPlace]
    omega
  have hyear' : (if (ofPlace era year month day).month ≤ 2 then
      (ofPlace era year month day).year - 1 else (ofPlace era year month day).year) =
        era * 400 + year := by
    simp only [ofPlace]
    split <;> split <;> omega
  simp only [toDays, hyear', hera, hmarch, hfirst]
  omega

theorem toDays_ofDays (days : Int) : (ofDays days).toDays = days := by
  obtain ⟨era, year, month, day, hplace, hdate⟩ := exists_place days
  rw [hdate, hplace.toDays_ofPlace]

/-! ### Days that exist -/

/-- The February of a place with the greatest day is one of a leap year. -/
theorem Place.isLeap_ofPlace (h : Place days era year 11 365) :
    isLeap (ofPlace era year 11 365).year = true := by
  obtain ⟨hyear, hcentury⟩ := h.leap.2 rfl
  simp only [isLeap, ofPlace, Bool.and_eq_true, Bool.or_eq_true, beq_iff_eq, bne_iff_ne]
  omega

/-- The day of a place is one that its month has. -/
theorem Place.day_le (h : Place days era year month day) :
    (ofPlace era year month day).day ≤
      daysInMonth (ofPlace era year month day).year (ofPlace era year month day).month := by
  have hleap : month = 11 → day = 365 → isLeap (ofPlace era year month day).year = true := by
    rintro rfl rfl
    exact h.isLeap_ofPlace
  generalize (ofPlace era year month day).year = written at hleap
  obtain ⟨-, -, hmonth, hday, hlast, -⟩ := h
  have hmonths : month = 0 ∨ month = 1 ∨ month = 2 ∨ month = 3 ∨ month = 4 ∨ month = 5 ∨
      month = 6 ∨ month = 7 ∨ month = 8 ∨ month = 9 ∨ month = 10 ∨ month = 11 := by omega
  clear hmonth
  rcases hmonths with rfl | rfl | rfl | rfl | rfl | rfl | rfl | rfl | rfl | rfl | rfl | rfl
  case inr.inr.inr.inr.inr.inr.inr.inr.inr.inr.inr =>
    cases hwritten : isLeap written with
    | true =>
      simp [ofPlace, daysInMonth, hwritten]
      omega
    | false =>
      have hshort : day ≠ 365 := fun heq => by simp [hleap rfl heq] at hwritten
      simp [ofPlace, daysInMonth, hwritten]
      omega
  all_goals
    simp [ofPlace, daysInMonth]
    omega

/-- The years of the days that a time stamp can name; the first of them begins, and the last ends,
in the midst of a year that begins in March. -/
theorem Place.year_bounds (h : Place days era year month day) (hfirst : first.toDays ≤ days)
    (hlast : days ≤ final.toDays) : firstYear ≤ (ofPlace era year month day).year ∧
      (ofPlace era year month day).year ≤ lastYear := by
  have hfirstDay : first.toDays = -96465292 := by decide
  have hlastDay : final.toDays = 95026236 := by decide
  rw [hfirstDay] at hfirst
  rw [hlastDay] at hlast
  obtain ⟨hsum, hyear, hmonth, hrange, hday, -⟩ := h
  have hwinter : month < 10 ↔ day < 306 := by omega
  have hnonneg : 0 ≤ day := by omega
  have hera : -656 ≤ era ∧ era ≤ 655 := by omega
  simp only [ofPlace, firstYear, lastYear, hwinter]
  clear hrange hwinter
  constructor
  · by_cases hfirstEra : era = -656
    · have hearly : 256 ≤ year ∧ (year = 256 → 306 ≤ day) := by omega
      split <;> omega
    · split <;> omega
  · by_cases hlastEra : era = 655
    · have hlate : year ≤ 142 ∧ (year = 142 → day < 306) := by omega
      split <;> omega
    · split <;> omega

/-- The days that a time stamp can name exist. -/
theorem isValid_ofDays (h : first.toDays ≤ days) (h' : days ≤ final.toDays) :
    (ofDays days).isValid = true := by
  obtain ⟨era, year, month, day, hplace, hdate⟩ := exists_place days
  have hyear := hplace.year_bounds h h'
  have hday := hplace.day_le
  have hmonth : 1 ≤ (ofPlace era year month day).month ∧
      (ofPlace era year month day).month ≤ 12 := by
    have := hplace.inYear
    simp only [ofPlace]
    split <;> omega
  have hfirst : 1 ≤ (ofPlace era year month day).day := by
    have := hplace.inMonth
    simp only [ofPlace]
    omega
  rw [hdate]
  simp [isValid, hyear, hmonth, hfirst, hday]

/-- Two digits are enough for the months and the days that exist. -/
theorem lt_of_isValid {d : Date} (h : d.isValid = true) : d.month < 100 ∧ d.day < 100 := by
  simp only [isValid, Bool.and_eq_true, decide_eq_true_eq] at h
  obtain ⟨⟨⟨-, hmonth⟩, -⟩, hday⟩ := h
  refine ⟨by omega, Nat.lt_of_le_of_lt hday ?_⟩
  rw [daysInMonth]
  split
  · split <;> decide
  · split <;> decide

end TaskExchange.Date
