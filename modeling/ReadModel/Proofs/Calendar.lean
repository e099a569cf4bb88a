import ReadModel.Instant

/-!
Days and their numbers.

The calendar repeats itself after 400 years, or 146097 days. A day's number is taken apart into the
cycle, the year of the cycle (`CivilDate.marchYear`) and the day of that year; years begin in March
here. Main statements: the date with a number is a day of the calendar (`CivilDate.valid_ofDayNumber`),
and it has that number (`CivilDate.dayNumber_ofDayNumber`).
-/

namespace ReadModel

namespace CivilDate

/-- The days of a cycle before a year of it. -/
def daysBefore (year : Nat) : Nat := 365 * year + year / 4 - year / 100

/-- The year of a cycle that a day of it lies in. -/
def marchYear (day : Nat) : Nat := (day - day / 1460 + day / 36524 - day / 146096) / 365

/-- The month of a year that a day of it lies in; March is month 0. -/
def marchMonth (day : Nat) : Nat := (5 * day + 2) / 153

/-- The days of a year before a month of it. -/
def daysBeforeMonth (month : Nat) : Nat := (153 * month + 2) / 5

theorem marchYear_lt {day : Nat} (inCycle : day < 146097) : marchYear day < 400 := by
  unfold marchYear
  omega

/-- The last day of a cycle is the only one in its fifth stretch of 36524 days. -/
theorem marchYear_div {day : Nat} (notLast : day < 146096) : marchYear day / 100 = day / 36524 := by
  have last : day / 146096 = 0 := by omega
  have centuries : day / 36524 = 0 ∨ day / 36524 = 1 ∨ day / 36524 = 2 ∨ day / 36524 = 3 := by omega
  unfold marchYear
  rcases centuries with century | century | century | century <;> rw [last, century] <;> omega

theorem daysBefore_marchYear_le {day : Nat} (inCycle : day < 146097) :
    daysBefore (marchYear day) ≤ day := by
  rcases Nat.lt_or_ge day 146096 with notLast | last
  · have century := marchYear_div notLast
    unfold daysBefore
    unfold marchYear at century ⊢
    omega
  · obtain rfl : day = 146096 := by omega
    decide

theorem lt_daysBefore_marchYear {day : Nat} (notLast : day < 146096) :
    day < daysBefore (marchYear day + 1) := by
  have century := marchYear_div notLast
  generalize named : marchYear day = year at century ⊢
  unfold marchYear at named
  -- A year either shares its century with the next one or is the last of it.
  have next : (year + 1) / 100 = year / 100 ∨ year + 1 = 100 * (year / 100 + 1) := by omega
  unfold daysBefore
  omega

theorem valid_iff {d : CivilDate} :
    d.valid = true ↔ (leastYear ≤ d.year ∧ d.year ≤ greatestYear) ∧ (1 ≤ d.month ∧ d.month ≤ 12) ∧
      1 ≤ d.day ∧ d.day ≤ daysInMonth d.year d.month := by
  simp only [valid, Bool.and_eq_true, decide_eq_true_eq, and_assoc]

theorem daysInMonth_le (year : Int) (month : Nat) : daysInMonth year month ≤ 31 := by
  unfold daysInMonth
  split
  next => split <;> omega
  next => split <;> omega

theorem isLeapYear_cycle (cycle year : Int) :
    isLeapYear (cycle * 400 + year) = isLeapYear year := by
  have four : (cycle * 400 + year) % 4 = year % 4 := by omega
  have century : (cycle * 400 + year) % 100 = year % 100 := by omega
  have whole : (cycle * 400 + year) % 400 = year % 400 := by omega
  simp only [isLeapYear, four, century, whole]

/-- A year that begins in March has the leap day of the year in which it ends. -/
theorem daysBefore_succ (year : Nat) :
    daysBefore (year + 1) ≤ daysBefore year + 365 + if isLeapYear (year + 1) then 1 else 0 := by
  unfold daysBefore
  split
  next => omega
  next common =>
    simp only [isLeapYear, Bool.and_eq_true, Bool.or_eq_true, beq_iff_eq, bne_iff_ne] at common
    omega

/-- A day's number within its year. -/
def marchDay (day : Nat) : Nat := day - daysBefore (marchYear day)

theorem marchDay_lt {day : Nat} (inCycle : day < 146097) :
    marchDay day < 365 + if isLeapYear (marchYear day + 1) then 1 else 0 := by
  unfold marchDay
  rcases Nat.lt_or_ge day 146096 with notLast | last
  · have begun := daysBefore_marchYear_le inCycle
    have ends := lt_daysBefore_marchYear notLast
    have length := daysBefore_succ (marchYear day)
    omega
  · obtain rfl : day = 146096 := by omega
    decide

/-- The parts of a date, out of those of its number. -/
theorem ofDayNumber_eq (n : Int) :
    ofDayNumber n =
      let day := ((n + 719468) % 146097).toNat
      let year := (n + 719468) / 146097 * 400 + (marchYear day : Int)
      let month := marchMonth (marchDay day)
      { year := if month < 10 then year else year + 1
        month := if month < 10 then month + 3 else month - 9
        day := marchDay day - daysBeforeMonth month + 1 } := rfl

theorem marchDay_month_lt {year : Int} {day : Nat}
    (inYear : day < 365 + if isLeapYear (year + 1) then 1 else 0) :
    day - daysBeforeMonth (marchMonth day) <
      if marchMonth day < 10 then daysInMonth year (marchMonth day + 3)
      else daysInMonth (year + 1) (marchMonth day - 9) := by
  have short : day < 366 := by split at inYear <;> omega
  generalize named : marchMonth day = month
  unfold marchMonth at named
  unfold daysInMonth daysBeforeMonth
  split
  next early =>
    rw [if_neg (by omega)]
    split <;> omega
  next late =>
    have winter : month = 10 ∨ month = 11 := by omega
    rcases winter with rfl | rfl
    · change _ < 31
      omega
    · change _ < if isLeapYear (year + 1) then 29 else 28
      generalize isLeapYear (year + 1) = leap at inYear ⊢
      cases leap <;> simp only [if_true, Bool.false_eq_true, if_false] at inYear ⊢ <;> omega

theorem valid_ofDayNumber {n : Int} (least : leastYear ≤ (ofDayNumber n).year)
    (greatest : (ofDayNumber n).year ≤ greatestYear) : (ofDayNumber n).valid = true := by
  have inCycle : ((n + 719468) % 146097).toNat < 146097 := by omega
  have length := marchDay_lt inCycle
  refine valid_iff.mpr ⟨⟨least, greatest⟩, ?_⟩
  rw [ofDayNumber_eq]
  dsimp only
  generalize ((n + 719468) % 146097).toNat = day at inCycle length ⊢
  rw [← isLeapYear_cycle ((n + 719468) / 146097), ← Int.add_assoc] at length
  have month := marchDay_month_lt length
  have short : marchDay day < 366 := by split at length <;> omega
  have last : marchMonth (marchDay day) < 12 := by unfold marchMonth; omega
  split at month
  next early => simp only [early, if_true]; omega
  next late => simp only [late, if_false]; omega

theorem dayNumber_march {cycle : Int} {year month : Nat} (day : Nat) (inCycle : year < 400)
    (inYear : month < 12) :
    dayNumber
        { year := if month < 10 then cycle * 400 + year else cycle * 400 + year + 1
          month := if month < 10 then month + 3 else month - 9
          day } =
      cycle * 146097 + daysBefore year + daysBeforeMonth month + day - 1 - 719468 := by
  have cycles : (cycle * 400 + year) / 400 = cycle := by omega
  have years : (cycle * 400 + year) % 400 = year := by omega
  have wrapped : ((if month < 10 then month + 3 else month - 9) + 9) % 12 = month := by
    split <;> omega
  have march : (if (if month < 10 then month + 3 else month - 9) ≤ 2 then
      (if month < 10 then cycle * 400 + (year : Int) else cycle * 400 + year + 1) - 1
      else if month < 10 then cycle * 400 + (year : Int) else cycle * 400 + year + 1) =
        cycle * 400 + year := by
    split <;> split <;> omega
  simp only [dayNumber, march, cycles, years, wrapped, daysBefore, daysBeforeMonth]
  omega

theorem dayNumber_ofDayNumber (n : Int) : (ofDayNumber n).dayNumber = n := by
  have inCycle : ((n + 719468) % 146097).toNat < 146097 := by omega
  have whole : (n + 719468) / 146097 * 146097 + (((n + 719468) % 146097).toNat : Int) = n + 719468 := by
    omega
  rw [ofDayNumber_eq]
  dsimp only
  generalize ((n + 719468) % 146097).toNat = day at *
  have short : marchDay day < 366 := by
    have length := marchDay_lt inCycle
    split at length <;> omega
  have inYear : daysBefore (marchYear day) + marchDay day = day :=
    Nat.add_sub_cancel' (daysBefore_marchYear_le inCycle)
  generalize marchDay day = d at *
  have inMonth : daysBeforeMonth (marchMonth d) ≤ d := by
    unfold daysBeforeMonth marchMonth
    omega
  have last : marchMonth d < 12 := by
    unfold marchMonth
    omega
  rw [dayNumber_march _ (marchYear_lt inCycle) last]
  omega

end CivilDate

end ReadModel
