import KaspaPortal.Transaction.Policy.Time

/-!
# Dates and seconds

The days before a year in closed form grow from one year to the next by the days of the year, so
the loops over years and months stop at the date whose days they were given. Seconds grow with the
calendar, so no two dates have the same.

Leap seconds do not exist in this calendar, and neither do times outside of the years a policy can
name.
-/
namespace KaspaPortal.Transaction.Policy
open Lib

/-- The days of a year. -/
def yearDays (year : Nat) : Nat := if isLeapYear year then 366 else 365

/-- The rule of the calendar. -/
theorem isLeapYear_iff {year : Nat} :
    isLeapYear year = true ↔ year % 4 = 0 ∧ (year % 100 ≠ 0 ∨ year % 400 = 0) := by
  rw [isLeapYear, decide_eq_true_iff]

/-! ## Years -/

/-- A quotient grows at the multiples of the divisor. -/
theorem div_eq_pred {n k : Nat} (hn : 0 < n) :
    n / k = (n - 1) / k + if n % k = 0 then 1 else 0 := by
  have hsucc := @Nat.succ_div (n - 1) k
  rw [Nat.sub_add_cancel hn] at hsucc
  simp only [Nat.dvd_iff_mod_eq_zero] at hsucc
  exact hsucc

/-- A year starts where the one before ends. -/
theorem daysBeforeYear_succ {year : Nat} (h : 1970 ≤ year) :
    daysBeforeYear (year + 1) = daysBeforeYear year + yearDays year := by
  have hpos : 0 < year := by omega
  have hfour := @div_eq_pred year 4 hpos
  have hhundred := @div_eq_pred year 100 hpos
  have hfourHundred := @div_eq_pred year 400 hpos
  have hleap := @isLeapYear_iff year
  -- The quotients are large enough for the differences not to be cut off.
  have hleast : 1969 / 4 ≤ (year - 1) / 4 := Nat.div_le_div_right (by omega)
  have hleast' : 1969 / 400 ≤ (year - 1) / 400 := Nat.div_le_div_right (by omega)
  have hmost : 100 * ((year - 1) / 100) ≤ year - 1 := Nat.mul_div_le (year - 1) 100
  unfold daysBeforeYear yearDays
  dsimp only
  rw [Nat.add_sub_cancel, hfour, hhundred, hfourHundred]
  clear hfour hhundred hfourHundred
  generalize (year - 1) / 4 = fours at *
  generalize (year - 1) / 100 = hundreds at *
  generalize (year - 1) / 400 = fourHundreds at *
  by_cases hmod4 : year % 4 = 0
  · by_cases hmod100 : year % 100 = 0
    · by_cases hmod400 : year % 400 = 0
      · rw [if_pos hmod4, if_pos hmod100, if_pos hmod400, if_pos (hleap.mpr (by omega))]
        omega
      · rw [if_pos hmod4, if_pos hmod100, if_neg hmod400, if_neg (by rw [hleap]; omega)]
        omega
    · have hmod400 : ¬ year % 400 = 0 := by omega
      rw [if_pos hmod4, if_neg hmod100, if_neg hmod400, if_pos (hleap.mpr (by omega))]
      omega
  · have hmod100 : ¬ year % 100 = 0 := by omega
    have hmod400 : ¬ year % 400 = 0 := by omega
    rw [if_neg hmod4, if_neg hmod100, if_neg hmod400, if_neg (by rw [hleap]; omega)]
    omega

theorem daysBeforeYear_mono {year year' : Nat} (hyear : 1970 ≤ year) (h : year ≤ year') :
    daysBeforeYear year ≤ daysBeforeYear year' := by
  induction h with
  | refl => exact Nat.le_refl _
  | step hle ih => rw [daysBeforeYear_succ (Nat.le_trans hyear hle)]; omega

/-- The loop over the years stops in the year that the day falls in, with the days that are left. -/
theorem takeYears_spec {fuel year days : Nat} (hyear : 1970 ≤ year)
    (hdays : daysBeforeYear year + days < daysBeforeYear (year + fuel)) :
    ∃ reached left, UtcDateTime.takeYears fuel year days = some (reached, left) ∧ year ≤ reached ∧
      left < yearDays reached ∧ daysBeforeYear year + days = daysBeforeYear reached + left := by
  induction fuel generalizing year days with
  | zero => rw [Nat.add_zero] at hdays; omega
  | succ fuel ih =>
    rw [UtcDateTime.takeYears]
    by_cases hlast : days < yearDays year
    · exact ⟨year, days, if_pos hlast, Nat.le_refl _, hlast, rfl⟩
    · have hnext := daysBeforeYear_succ hyear
      have hsum : year + (fuel + 1) = year + 1 + fuel := by omega
      rw [hsum] at hdays
      obtain ⟨reached, left, htaken, hle, hleft, hequal⟩ :=
        @ih (year + 1) (days - yearDays year) (by omega) (by omega)
      exact ⟨reached, left, (if_neg hlast).trans htaken, by omega, hleft, by omega⟩

/-! ## Months -/

/-- Only the twelve months have days. -/
theorem month_of_days {year month : Nat} (h : 0 < daysInMonth year month) : 1 ≤ month ∧ month ≤ 12 := by
  constructor
  · apply Nat.pos_of_ne_zero
    intro hzero
    rw [hzero] at h
    exact absurd h (Nat.lt_irrefl 0)
  · by_contra hlarge
    obtain ⟨later, rfl⟩ := Nat.exists_eq_add_of_le (show 13 ≤ month by omega)
    rw [Nat.add_comm] at h
    exact absurd h (Nat.lt_irrefl 0)

theorem daysInMonth_le (year month : Nat) : daysInMonth year month ≤ 31 := by
  unfold daysInMonth
  split <;> (try split) <;> decide

/-- Behind each month stands the next one, and behind the last one the end of the year. -/
theorem daysBeforeMonth_succ (year : Nat) {month : Nat} (h : 1 ≤ month) (h' : month ≤ 12) :
    (if month = 12 then yearDays year else daysBeforeMonth year (month + 1)) =
      daysBeforeMonth year month + daysInMonth year month := by
  have hmonths : month = 1 ∨ month = 2 ∨ month = 3 ∨ month = 4 ∨ month = 5 ∨ month = 6 ∨ month = 7 ∨
      month = 8 ∨ month = 9 ∨ month = 10 ∨ month = 11 ∨ month = 12 := by
    omega
  unfold yearDays daysBeforeMonth daysInMonth
  generalize isLeapYear year = leap
  rcases hmonths with rfl | rfl | rfl | rfl | rfl | rfl | rfl | rfl | rfl | rfl | rfl | rfl <;>
    cases leap <;> rfl

theorem daysBeforeMonth_mono (year : Nat) {month month' : Nat} (hmonth : 1 ≤ month)
    (h : month ≤ month') (hmonth' : month' ≤ 12) :
    daysBeforeMonth year month ≤ daysBeforeMonth year month' := by
  induction h with
  | refl => exact Nat.le_refl _
  | @step reached hle ih =>
    have hlt : reached < 12 := hmonth'
    have hle' : 1 ≤ reached := Nat.le_trans hmonth hle
    have hnext := daysBeforeMonth_succ year hle' (Nat.le_of_lt hlt)
    rw [if_neg (by omega)] at hnext
    have hbefore := ih (Nat.le_of_lt hlt)
    rw [Nat.succ_eq_add_one]
    omega

/-- A day of the year is a day of one of its months. -/
theorem takeMonths_spec {year fuel month days : Nat} (hmonth : 1 ≤ month) (hmonth' : month ≤ 12)
    (hfuel : 12 < month + fuel) (hdays : daysBeforeMonth year month + days < yearDays year) :
    ∃ reached left, UtcDateTime.takeMonths year fuel month days = some (reached, left) ∧
      left < daysInMonth year reached ∧
      daysBeforeMonth year month + days = daysBeforeMonth year reached + left := by
  induction fuel generalizing month days with
  | zero => omega
  | succ fuel ih =>
    rw [UtcDateTime.takeMonths]
    by_cases hlast : days < daysInMonth year month
    · exact ⟨month, days, if_pos hlast, hlast, rfl⟩
    · have hnext := daysBeforeMonth_succ year hmonth hmonth'
      have hbelow : ¬ month = 12 := by
        intro htwelve
        rw [if_pos htwelve] at hnext
        omega
      rw [if_neg hbelow] at hnext
      obtain ⟨reached, left, htaken, hleft, hequal⟩ :=
        @ih (month + 1) (days - daysInMonth year month) (by omega) (by omega) (by omega) (by omega)
      exact ⟨reached, left, (if_neg hlast).trans htaken, hleft, by omega⟩

/-- The last day of a month is before the next month, or the end of the year. -/
theorem daysBeforeMonth_lt {year month day : Nat} (h : 1 ≤ day) (h' : day ≤ daysInMonth year month) :
    daysBeforeMonth year month + (day - 1) < yearDays year ∧
      ∀ later, month < later → later ≤ 12 →
        daysBeforeMonth year month + (day - 1) < daysBeforeMonth year later := by
  obtain ⟨hmonth, hmonth'⟩ := month_of_days (Nat.lt_of_lt_of_le h h')
  have hend : ∀ later, month < later → later ≤ 12 →
      daysBeforeMonth year month + (day - 1) < daysBeforeMonth year later := by
    intro later hlater hlater'
    have hnext := daysBeforeMonth_succ year hmonth hmonth'
    rw [if_neg (by omega)] at hnext
    have hmono := daysBeforeMonth_mono year (show 1 ≤ month + 1 by omega) hlater hlater'
    omega
  refine ⟨?_, hend⟩
  have hlast := daysBeforeMonth_succ year (show 1 ≤ 12 by decide) (Nat.le_refl 12)
  rw [if_pos rfl] at hlast
  have hthirty : daysInMonth year 12 = 31 := rfl
  by_cases htwelve : month = 12
  · rw [htwelve] at h' ⊢
    omega
  · have hbefore := hend 12 (by omega) (Nat.le_refl 12)
    omega

/-! ## Valid dates -/

namespace UtcDateTime

/-- A date of the range, with a day that its month has. -/
structure Valid (date : UtcDateTime) : Prop where
  year : 2000 ≤ date.year.toNat ∧ date.year.toNat ≤ 2099
  day : 1 ≤ date.day.toNat ∧ date.day.toNat ≤ daysInMonth date.year.toNat date.month.toNat
  hour : date.hour.toNat ≤ 23
  minute : date.minute.toNat ≤ 59
  second : date.second.toNat ≤ 59

/-- The check accepts exactly the valid dates. -/
theorem validate_eq_ok {date : UtcDateTime} {u : Unit} : date.validate = .ok u ↔ date.Valid := by
  rw [validate]
  constructor
  · intro h
    obtain ⟨_, hyear, h⟩ := bind_eq_ok.mp h
    rw [rejectIf_eq_ok, MIN_YEAR, MAX_YEAR] at hyear
    rw [rejectIf_eq_ok] at h
    have hday : date.day.toNat ≠ 0 := fun hzero => h (.inl (UInt8.toNat_inj.mp hzero))
    exact ⟨by omega, by omega, by omega, by omega, by omega⟩
  · intro h
    have hyear := h.year
    have hday := h.day
    have hhour := h.hour
    have hminute := h.minute
    have hsecond := h.second
    refine bind_eq_ok.mpr ⟨(), rejectIf_eq_ok.mpr ?_, rejectIf_eq_ok.mpr ?_⟩
    · rw [MIN_YEAR, MAX_YEAR]
      omega
    · intro hbad
      cases hbad with
      | inl hzero =>
        rw [hzero, UInt8.toNat_zero] at hday
        omega
      | inr hbad => omega

/-- The days since 1970, and the seconds. -/
def dayNumber (date : UtcDateTime) : Nat :=
  daysBeforeYear date.year.toNat + daysBeforeMonth date.year.toNat date.month.toNat +
    (date.day.toNat - 1)

/-- The seconds of a date, without a bound. -/
def secondsOf (date : UtcDateTime) : Nat :=
  date.dayNumber * 86400 + date.hour.toNat * 3600 + date.minute.toNat * 60 + date.second.toNat

/-- The order of the calendar and the clock. -/
def Before (a b : UtcDateTime) : Prop :=
  a.year < b.year ∨ (a.year = b.year ∧ (a.month < b.month ∨ (a.month = b.month ∧
    (a.day < b.day ∨ (a.day = b.day ∧ (a.hour < b.hour ∨ (a.hour = b.hour ∧
      (a.minute < b.minute ∨ (a.minute = b.minute ∧ a.second < b.second)))))))))

theorem Valid.dayNumber_lt {date : UtcDateTime} (h : date.Valid) :
    date.dayNumber < daysBeforeYear (date.year.toNat + 1) ∧ daysBeforeYear (date.year.toNat + 1) ≤
      daysBeforeYear 2100 := by
  have hmonth := (daysBeforeMonth_lt h.day.1 h.day.2).1
  have hnext := daysBeforeYear_succ (show 1970 ≤ date.year.toNat by have := h.year.1; omega)
  refine ⟨?_, daysBeforeYear_mono (by have := h.year.1; omega) (by have := h.year.2; omega)⟩
  rw [dayNumber, hnext]
  omega

/-- A valid date has its seconds, which fit. -/
theorem toUnixSeconds_eq {date : UtcDateTime} (h : date.Valid) :
    ∃ unix, date.toUnixSeconds = .ok unix ∧ unix.toNat = date.secondsOf := by
  refine ⟨_, bind_eq_ok.mpr ⟨(), validate_eq_ok.mpr h, rfl⟩, ?_⟩
  have hday := h.dayNumber_lt
  have hlast : daysBeforeYear 2100 = 47482 := by decide
  have hhour := h.hour
  have hminute := h.minute
  have hsecond := h.second
  rw [hlast] at hday
  have hseconds : date.secondsOf < UInt64.size := by
    rw [secondsOf]
    exact Nat.lt_of_lt_of_le (show _ < 47482 * 86400 by omega) (by decide)
  exact UInt64.toNat_ofNat_of_lt' hseconds

/-- Only a valid date has seconds. -/
theorem toUnixSeconds_eq_ok {date : UtcDateTime} {unix : UInt64} (h : date.toUnixSeconds = .ok unix) :
    date.Valid ∧ unix.toNat = date.secondsOf := by
  obtain ⟨u, hvalid, _⟩ := bind_eq_ok.mp h
  have hdate := validate_eq_ok.mp hvalid
  obtain ⟨unix', hunix, hseconds⟩ := toUnixSeconds_eq hdate
  rw [h] at hunix
  rw [Except.ok.inj hunix]
  exact ⟨hdate, hseconds⟩

/-- A later day has a larger number. -/
theorem dayNumber_lt_of_before {a b : UtcDateTime} (ha : a.Valid) (hb : b.Valid)
    (h : a.year < b.year ∨ (a.year = b.year ∧ (a.month < b.month ∨ (a.month = b.month ∧
      a.day < b.day)))) : a.dayNumber < b.dayNumber := by
  obtain ⟨hyearEnd, hmonthEnd⟩ := daysBeforeMonth_lt ha.day.1 ha.day.2
  cases h with
  | inl hyear =>
    have hnext := daysBeforeYear_mono (show 1970 ≤ a.year.toNat + 1 by have := ha.year.1; omega)
      (UInt16.lt_iff_toNat_lt.mp hyear)
    have hday := ha.dayNumber_lt.1
    rw [dayNumber.eq_def b]
    omega
  | inr h =>
    obtain ⟨hyear, h⟩ := h
    rw [dayNumber, dayNumber, hyear]
    rw [hyear] at hmonthEnd
    cases h with
    | inl hmonth =>
      obtain ⟨_, hmonth'⟩ := month_of_days (Nat.lt_of_lt_of_le hb.day.1 hb.day.2)
      have hlater := hmonthEnd _ (UInt8.lt_iff_toNat_lt.mp hmonth) hmonth'
      omega
    | inr h =>
      obtain ⟨hmonth, hday⟩ := h
      rw [UInt8.lt_iff_toNat_lt] at hday
      have hday' := ha.day.1
      rw [hmonth]
      omega

/-- Seconds grow with the calendar. -/
theorem secondsOf_lt {a b : UtcDateTime} (ha : a.Valid) (hb : b.Valid) (h : Before a b) :
    a.secondsOf < b.secondsOf := by
  have hhour := ha.hour
  have hminute := ha.minute
  have hsecond := ha.second
  have hdays : (a.dayNumber < b.dayNumber) ∨ (a.dayNumber = b.dayNumber ∧
      (a.hour < b.hour ∨ (a.hour = b.hour ∧ (a.minute < b.minute ∨
        (a.minute = b.minute ∧ a.second < b.second))))) := by
    have hday := dayNumber_lt_of_before ha hb
    cases h with
    | inl hyear => exact .inl (hday (.inl hyear))
    | inr h =>
      obtain ⟨hyear, h⟩ := h
      cases h with
      | inl hmonth => exact .inl (hday (.inr ⟨hyear, .inl hmonth⟩))
      | inr h =>
        obtain ⟨hmonth, h⟩ := h
        cases h with
        | inl hlt => exact .inl (hday (.inr ⟨hyear, .inr ⟨hmonth, hlt⟩⟩))
        | inr h =>
          refine .inr ⟨?_, h.2⟩
          rw [dayNumber, dayNumber, hyear, hmonth, h.1]
  simp only [UInt8.lt_iff_toNat_lt, ← UInt8.toNat_inj] at hdays
  rw [secondsOf, secondsOf]
  omega

/-- Of two dates one is first, or they are the same. -/
theorem before_or_eq_or_before (a b : UtcDateTime) : Before a b ∨ a = b ∨ Before b a := by
  cases a with
  | mk year month day hour minute second =>
    cases b with
    | mk year' month' day' hour' minute' second' =>
      simp only [Before, UtcDateTime.mk.injEq, UInt8.lt_iff_toNat_lt, UInt16.lt_iff_toNat_lt,
        ← UInt8.toNat_inj, ← UInt16.toNat_inj]
      omega

/-- No two dates have the same seconds. -/
theorem secondsOf_inj {a b : UtcDateTime} (ha : a.Valid) (hb : b.Valid)
    (h : a.secondsOf = b.secondsOf) : a = b := by
  cases before_or_eq_or_before a b with
  | inl hbefore => exact absurd h (Nat.ne_of_lt (secondsOf_lt ha hb hbefore))
  | inr hrest =>
    cases hrest with
    | inl heq => exact heq
    | inr hafter => exact absurd h (Nat.ne_of_gt (secondsOf_lt hb ha hafter))

/-! ## Every second of the range -/

/-- The first second of 2000. -/
def MIN_SECONDS : Nat := 946684800
/-- The last second of 2099. -/
def MAX_SECONDS : Nat := 4102444799

theorem Valid.seconds_range {date : UtcDateTime} (h : date.Valid) :
    MIN_SECONDS ≤ date.secondsOf ∧ date.secondsOf ≤ MAX_SECONDS := by
  have hday := h.dayNumber_lt
  have hfirst : daysBeforeYear 2000 = 10957 := by decide
  have hlast : daysBeforeYear 2100 = 47482 := by decide
  have hleast : daysBeforeYear 2000 ≤ date.dayNumber := by
    have hmono := daysBeforeYear_mono (show 1970 ≤ 2000 by decide) h.year.1
    rw [dayNumber]
    omega
  have hhour := h.hour
  have hminute := h.minute
  have hsecond := h.second
  rw [secondsOf, MIN_SECONDS, MAX_SECONDS]
  omega

/-- Every second of the range is some date's. -/
theorem dateOf_spec {unix : Nat} (h : MIN_SECONDS ≤ unix) (h' : unix ≤ MAX_SECONDS) :
    ∃ date, dateOf unix = some date ∧ date.Valid ∧ date.secondsOf = unix := by
  rw [MIN_SECONDS] at h
  rw [MAX_SECONDS] at h'
  have hzero : daysBeforeYear 1970 = 0 := by decide
  have hfirst : daysBeforeYear 2000 = 10957 := by decide
  have hlast : daysBeforeYear 2100 = 47482 := by decide
  have hend : daysBeforeYear 2100 ≤ daysBeforeYear (1970 + (2 ^ 16 - 1970)) :=
    daysBeforeYear_mono (by decide) (by decide)
  obtain ⟨year, inYear, hyears, hfrom, hinYear, hdays⟩ :=
    @takeYears_spec (2 ^ 16 - 1970) 1970 (unix / 86400) (Nat.le_refl _) (by omega)
  -- the first days of 2000 and of 2100 enclose the year
  have hyear : 2000 ≤ year ∧ year ≤ 2099 := by
    have hnext := daysBeforeYear_succ hfrom
    constructor
    · by_contra hearly
      have hmono := daysBeforeYear_mono (show 1970 ≤ year + 1 by omega)
        (show year + 1 ≤ 2000 by omega)
      omega
    · by_contra hlate
      have hmono := daysBeforeYear_mono (show 1970 ≤ 2100 by decide) (show 2100 ≤ year by omega)
      omega
  have hjanuary : daysBeforeMonth year 1 = 0 := rfl
  obtain ⟨month, inMonth, hmonths, hinMonth, hmonthDays⟩ :=
    @takeMonths_spec year (2 ^ 8 - 1) 1 inYear (by decide) (by decide) (by decide) (by omega)
  have hmonth := month_of_days (Nat.lt_of_le_of_lt (Nat.zero_le _) hinMonth)
  have hlong := daysInMonth_le year month
  have hyear16 : (UInt16.ofNat year).toNat = year :=
    UInt16.toNat_ofNat_of_lt' (Nat.lt_of_le_of_lt hyear.2 (by decide))
  have hmonth8 : (UInt8.ofNat month).toNat = month :=
    UInt8.toNat_ofNat_of_lt' (Nat.lt_of_le_of_lt hmonth.2 (by decide))
  have hday8 : (UInt8.ofNat (inMonth + 1)).toNat = inMonth + 1 :=
    UInt8.toNat_ofNat_of_lt' (Nat.lt_of_le_of_lt (show inMonth + 1 ≤ 31 by omega) (by decide))
  have hhour8 : (UInt8.ofNat (unix % 86400 / 3600)).toNat = unix % 86400 / 3600 :=
    UInt8.toNat_ofNat_of_lt' (Nat.lt_of_le_of_lt (show _ ≤ 23 by omega) (by decide))
  have hminute8 : (UInt8.ofNat (unix % 86400 % 3600 / 60)).toNat = unix % 86400 % 3600 / 60 :=
    UInt8.toNat_ofNat_of_lt' (Nat.lt_of_le_of_lt (show _ ≤ 59 by omega) (by decide))
  have hsecond8 : (UInt8.ofNat (unix % 86400 % 60)).toNat = unix % 86400 % 60 :=
    UInt8.toNat_ofNat_of_lt' (Nat.lt_of_le_of_lt (show _ ≤ 59 by omega) (by decide))
  refine ⟨⟨UInt16.ofNat year, UInt8.ofNat month, UInt8.ofNat (inMonth + 1),
    UInt8.ofNat (unix % 86400 / 3600), UInt8.ofNat (unix % 86400 % 3600 / 60),
    UInt8.ofNat (unix % 86400 % 60)⟩, ?_, ⟨?_, ?_, ?_, ?_, ?_⟩, ?_⟩
  · rw [dateOf, SECONDS_PER_DAY, hyears]
    change (takeMonths year (2 ^ 8 - 1) 1 inYear).bind _ = _
    rw [hmonths]
    rfl
  · rw [hyear16]
    exact hyear
  · rw [hyear16, hmonth8, hday8]
    omega
  · rw [hhour8]
    omega
  · rw [hminute8]
    omega
  · rw [hsecond8]
    omega
  · rw [secondsOf, dayNumber, hyear16, hmonth8, hday8, hhour8, hminute8, hsecond8]
    omega

theorem fromUnixSeconds_range {unix : UInt64} (h : MIN_SECONDS ≤ unix.toNat)
    (h' : unix.toNat ≤ MAX_SECONDS) : fromUnixSeconds unix = .ok (dateOf unix.toNat) := by
  have hmax : toUnixSeconds ⟨2099, 12, 31, 23, 59, 59⟩ = .ok 4102444799 := by decide
  have hmin : toUnixSeconds ⟨2000, 1, 1, 0, 0, 0⟩ = .ok 946684800 := by decide
  have hin : ¬ (unix < 946684800 ∨ 4102444799 < unix) := by
    rw [UInt64.lt_iff_toNat_lt, UInt64.lt_iff_toNat_lt]
    exact fun hout => hout.elim (Nat.not_lt.mpr h) (Nat.not_lt.mpr h')
  rw [fromUnixSeconds, hmax, hmin]
  exact if_neg hin

/-- Outside the range there is no date. -/
theorem fromUnixSeconds_outside {unix : UInt64}
    (h : ¬ (MIN_SECONDS ≤ unix.toNat ∧ unix.toNat ≤ MAX_SECONDS)) :
    fromUnixSeconds unix = .error .dateOutOfRange := by
  have hmax : toUnixSeconds ⟨2099, 12, 31, 23, 59, 59⟩ = .ok 4102444799 := by decide
  have hmin : toUnixSeconds ⟨2000, 1, 1, 0, 0, 0⟩ = .ok 946684800 := by decide
  have hout : unix < 946684800 ∨ 4102444799 < unix := by
    rw [UInt64.lt_iff_toNat_lt, UInt64.lt_iff_toNat_lt]
    change unix.toNat < MIN_SECONDS ∨ MAX_SECONDS < unix.toNat
    omega
  rw [fromUnixSeconds, hmax, hmin]
  exact if_pos hout

/-- Each second of the range has its date, whose seconds it is. -/
theorem fromUnixSeconds_covers {unix : UInt64} (h : MIN_SECONDS ≤ unix.toNat)
    (h' : unix.toNat ≤ MAX_SECONDS) :
    ∃ date, fromUnixSeconds unix = .ok (some date) ∧ date.Valid ∧ date.secondsOf = unix.toNat := by
  obtain ⟨date, hdate, hvalid, hseconds⟩ := dateOf_spec h h'
  exact ⟨date, by rw [fromUnixSeconds_range h h', hdate], hvalid, hseconds⟩

/-- A date comes back from its seconds. -/
theorem fromUnixSeconds_toUnixSeconds {date : UtcDateTime} (h : date.Valid) {unix : UInt64}
    (hunix : date.toUnixSeconds = .ok unix) : fromUnixSeconds unix = .ok (some date) := by
  obtain ⟨_, hseconds⟩ := toUnixSeconds_eq_ok hunix
  obtain ⟨hfirst, hlast⟩ := h.seconds_range
  rw [← hseconds] at hfirst hlast
  obtain ⟨other, hother, hvalid, hequal⟩ := fromUnixSeconds_covers hfirst hlast
  rw [hother, secondsOf_inj hvalid h (hequal.trans hseconds)]

end UtcDateTime

end KaspaPortal.Transaction.Policy
