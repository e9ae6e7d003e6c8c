import DavGateway.Calendar
import Mathlib.Tactic.IntervalCases

/-!
# Dates and day numbers

An era of 400 years is four centuries, a century is 25 cycles of four years, and a day is found in
its era by counting them off (`Date.Place`). From this it follows that the date with a day number
exists and has this number again.
-/

namespace DavGateway.Date

/-! ## Days of an era -/

/-- Where a day lies in its era: its century, its cycle of four years, its year and its day, each
counted from 0. -/
structure Place where
  century : Int
  cycle : Int
  year : Int
  day : Int

namespace Place

/-- The place is one: only the last year of a cycle can have 366 days, and it has 365 at the end of
a century that is not the last. -/
structure IsProper (p : Place) : Prop where
  century : 0 ≤ p.century ∧ p.century ≤ 3
  cycle : 0 ≤ p.cycle ∧ p.cycle ≤ 24
  year : 0 ≤ p.year ∧ p.year ≤ 3
  day : 0 ≤ p.day ∧ (p.day ≤ 364 ∨ p.day = 365 ∧ p.year = 3 ∧ (p.cycle ≤ 23 ∨ p.century = 3))

/-- The number of the day in its era. -/
def dayOfEra (p : Place) : Int := 36524 * p.century + 1461 * p.cycle + 365 * p.year + p.day

/-- The number of the year in its era. -/
def yearOfEra (p : Place) : Int := 100 * p.century + 4 * p.cycle + p.year

variable {p : Place} {n : Int}

theorem exists_of_dayOfEra (hlow : 0 ≤ n) (hhigh : n < eraDays) :
    ∃ p : Place, p.IsProper ∧ p.dayOfEra = n := by
  unfold eraDays at hhigh
  by_cases hlast : n = 146096
  · exact ⟨⟨3, 24, 3, 365⟩, ⟨by simp, by simp, by simp, by simp⟩, hlast.symm⟩
  have hcentury : 0 ≤ n / 36524 ∧ n / 36524 ≤ 3 := by omega
  have hcycle : 0 ≤ n % 36524 / 1461 ∧ n % 36524 / 1461 ≤ 24 := by omega
  -- the last day of a cycle is the 366th of its year
  by_cases hleap : n % 36524 % 1461 = 1460
  · have hearly : n % 36524 / 1461 ≤ 23 := by omega
    refine ⟨⟨n / 36524, n % 36524 / 1461, 3, 365⟩,
      ⟨hcentury, hcycle, by simp, ⟨by simp, .inr ⟨rfl, rfl, .inl hearly⟩⟩⟩, ?_⟩
    simp only [dayOfEra]
    omega
  · have hyear : 0 ≤ n % 36524 % 1461 / 365 ∧ n % 36524 % 1461 / 365 ≤ 3 := by omega
    have hday : 0 ≤ n % 36524 % 1461 % 365 ∧ n % 36524 % 1461 % 365 ≤ 364 := by omega
    refine ⟨⟨n / 36524, n % 36524 / 1461, n % 36524 % 1461 / 365, n % 36524 % 1461 % 365⟩,
      ⟨hcentury, hcycle, hyear, hday.1, .inl hday.2⟩, ?_⟩
    simp only [dayOfEra]
    omega

theorem IsProper.yearOfEra_bounds (h : p.IsProper) : 0 ≤ p.yearOfEra ∧ p.yearOfEra ≤ 399 := by
  obtain ⟨hcentury, hcycle, hyear, -⟩ := h
  unfold yearOfEra
  omega

/-- The year is found by taking the leap days off. -/
theorem IsProper.yearOfEra_eq (h : p.IsProper) :
    (p.dayOfEra - p.dayOfEra / 1460 + p.dayOfEra / 36524 - p.dayOfEra / 146096) / 365 =
      p.yearOfEra := by
  obtain ⟨hcentury, hcycle, hyear, hday⟩ := h
  -- the last day of an era would begin a fifth century
  have hcenturies : p.dayOfEra / 36524 - p.dayOfEra / 146096 = p.century := by
    unfold dayOfEra
    have hlast : 1461 * p.cycle + 365 * p.year + p.day ≤ 36523
        ∨ p.century = 3 ∧ p.cycle = 24 ∧ p.year = 3 ∧ p.day = 365 := by omega
    rcases hlast with hwithin | ⟨hcentury, hcycle, hyear, hday⟩
    · have hquotient : (36524 * p.century + 1461 * p.cycle + 365 * p.year + p.day) / 36524 =
          p.century := by omega
      omega
    · rw [hcentury, hcycle, hyear, hday]
      rfl
  -- towards the end of a cycle a leap day too many is taken off, and the year can spare it
  have hcycles : p.dayOfEra / 1460 = 25 * p.century + p.cycle ∧ p.day ≤ 364
      ∨ p.dayOfEra / 1460 = 25 * p.century + p.cycle + 1 ∧ 1 ≤ p.day := by
    unfold dayOfEra
    omega
  unfold dayOfEra yearOfEra at *
  omega

theorem IsProper.day_eq (h : p.IsProper) :
    p.dayOfEra - (365 * p.yearOfEra + p.yearOfEra / 4 - p.yearOfEra / 100) = p.day := by
  obtain ⟨hcentury, hcycle, hyear, hday⟩ := h
  unfold dayOfEra yearOfEra
  omega

/-- The year with a 366th day ends in a year with a 29 February. -/
theorem IsProper.isLeap (h : p.IsProper) (hday : p.day = 365) (era : Int) :
    Date.isLeap (p.yearOfEra + era * 400 + 1) = true := by
  obtain ⟨hcentury, hcycle, hyear, hdays⟩ := h
  have hlast : p.year = 3 ∧ (p.cycle ≤ 23 ∨ p.century = 3) := by omega
  unfold Date.isLeap yearOfEra
  simp only [Bool.and_eq_true, Bool.or_eq_true, beq_iff_eq, bne_iff_ne, ne_eq]
  omega

end Place

/-! ## Dates -/

/-- The date of a day that is counted from 1 March of a year. -/
def fromMarch (year day : Int) : Date :=
  let month := (5 * day + 2) / 153
  ⟨if month < 10 then year else year + 1, (if month < 10 then month + 3 else month - 9).toNat,
    (day - (153 * month + 2) / 5 + 1).toNat⟩

/-- The date with a number is found in its era. -/
theorem exists_ofDayNumber (n : Int) : ∃ (era : Int) (p : Place), p.IsProper
    ∧ n + epochOffset = era * eraDays + p.dayOfEra
    ∧ ofDayNumber n = fromMarch (p.yearOfEra + era * 400) p.day := by
  have hpositive : 0 < eraDays := by decide
  obtain ⟨p, hp, hday⟩ := Place.exists_of_dayOfEra (Int.emod_nonneg (n + epochOffset) (by decide))
    (Int.emod_lt_of_pos (n + epochOffset) hpositive)
  refine ⟨(n + epochOffset) / eraDays, p, hp, ?_, ?_⟩
  · rw [hday, Int.mul_comm, Int.mul_ediv_add_emod]
  · have hbounds : 0 ≤ (5 * p.day + 2) / 153 ∧ (5 * p.day + 2) / 153 ≤ 11 := by
      have hdays := hp.day
      omega
    unfold ofDayNumber fromMarch
    simp only [← hday, hp.yearOfEra_eq, hp.day_eq]
    by_cases hmonth : (5 * p.day + 2) / 153 < 10
    · have hlate : ¬ (5 * p.day + 2) / 153 + 3 ≤ 2 := by omega
      simp only [if_pos hmonth, if_neg hlate]
    · have hearly : (5 * p.day + 2) / 153 - 9 ≤ 2 := by omega
      simp only [if_neg hmonth, if_pos hearly]

/-- The number of a date that is counted from 1 March. -/
theorem dayNumber_fromMarch {year day : Int} (hlow : 0 ≤ day) (hhigh : day ≤ 365) :
    (fromMarch year day).dayNumber =
      year / 400 * eraDays + (year % 400 * 365 + year % 400 / 4 - year % 400 / 100 + day)
        - epochOffset := by
  have hbounds : 0 ≤ (5 * day + 2) / 153 ∧ (5 * day + 2) / 153 ≤ 11 := by omega
  have hstart : (153 * ((5 * day + 2) / 153) + 2) / 5 ≤ day := by omega
  unfold fromMarch dayNumber
  -- January and February are the last two months, and are counted in the next year
  by_cases hmonth : (5 * day + 2) / 153 < 10
  · have hlate : ¬ ((5 * day + 2) / 153 + 3).toNat ≤ 2 := by omega
    have hback : ((((5 * day + 2) / 153 + 3).toNat : Nat) : Int) - 3 = (5 * day + 2) / 153 := by
      omega
    simp only [if_pos hmonth, if_neg hlate, hback]
    omega
  · have hearly : ((5 * day + 2) / 153 - 9).toNat ≤ 2 := by omega
    have hback : ((((5 * day + 2) / 153 - 9).toNat : Nat) : Int) + 9 = (5 * day + 2) / 153 := by
      omega
    have hyear : year + 1 - 1 = year := by omega
    simp only [if_neg hmonth, if_pos hearly, hback, hyear]
    omega

/-- A date has the number that it was made from. -/
theorem dayNumber_ofDayNumber (n : Int) : (ofDayNumber n).dayNumber = n := by
  obtain ⟨era, p, hp, hn, hdate⟩ := exists_ofDayNumber n
  have hyear := hp.yearOfEra_bounds
  have hdays := hp.day
  have hday := hp.day_eq
  have hera : (p.yearOfEra + era * 400) / 400 = era := by omega
  have hwithin : (p.yearOfEra + era * 400) % 400 = p.yearOfEra := by omega
  rw [hdate, dayNumber_fromMarch hdays.1 (by omega), hera, hwithin]
  omega

/-- A day that is counted from 1 March exists, if the 366th day is a 29 February. -/
theorem isValid_fromMarch {year day : Int} (hlow : 0 ≤ day) (hhigh : day ≤ 365)
    (hleap : day = 365 → isLeap (year + 1) = true) : (fromMarch year day).isValid = true := by
  have hbounds : 0 ≤ (5 * day + 2) / 153 ∧ (5 * day + 2) / 153 ≤ 11 := by omega
  have hlower : 153 * ((5 * day + 2) / 153) ≤ 5 * day + 2 := by omega
  have hupper : 5 * day + 2 < 153 * ((5 * day + 2) / 153) + 153 := by omega
  unfold fromMarch isValid
  simp only
  obtain ⟨hfirst, hlast⟩ := hbounds
  generalize (5 * day + 2) / 153 = month at *
  -- only the length of February depends on the year
  by_cases hfebruary : month = 11
  · subst hfebruary
    cases hyear : isLeap (year + 1) with
    | true =>
      simp [monthLength, hyear]
      omega
    | false =>
      have hshort : day ≠ 365 := fun hday => by simp [hleap hday] at hyear
      simp [monthLength, hyear]
      omega
  · have hmonth : month ≤ 10 := by omega
    interval_cases month <;> simp [monthLength] <;> omega

/-- A date that is made from a number exists. -/
theorem isValid_ofDayNumber (n : Int) : (ofDayNumber n).isValid = true := by
  obtain ⟨era, p, hp, -, hdate⟩ := exists_ofDayNumber n
  have hdays := hp.day
  rw [hdate]
  exact isValid_fromMarch hdays.1 (by omega) fun hday => hp.isLeap hday era

theorem weekday_lt (n : Int) : weekday n < 7 := by
  unfold weekday
  omega

theorem monthLength_le (year : Int) (month : Nat) : monthLength year month ≤ 31 := by
  unfold monthLength
  split
  · split <;> decide
  all_goals decide

/-- The months of the dates that exist are counted from 1 to 12, and their days are at most 31. -/
theorem bounds_of_isValid {d : Date} (h : d.isValid = true) :
    1 ≤ d.month ∧ d.month ≤ 12 ∧ d.day ≤ 31 := by
  simp only [isValid, Bool.and_eq_true, decide_eq_true_eq] at h
  obtain ⟨⟨⟨hfirst, hlast⟩, -⟩, hday⟩ := h
  exact ⟨hfirst, hlast, hday.trans (monthLength_le d.year d.month)⟩

end DavGateway.Date
