import DavGateway.HttpDate
import DavGateway.Proofs.Calendar
import DavGateway.Proofs.Text.Number

/-!
# Dates in headers are read back

What `HttpDate.format` writes for a time in the years 0 to 9999 is read as this time again: each
part of a date is read off the front of the text and leaves what was written behind it, and the
calendar leads from the date back to its day.
-/

namespace DavGateway.HttpDate

open Text

/-- The time lies in a year that is written with four digits. -/
def HasFourDigits (stamp : Int) : Prop :=
  0 ≤ (Date.ofDayNumber (stamp / secondsPerDay)).year
    ∧ (Date.ofDayNumber (stamp / secondsPerDay)).year ≤ 9999

instance (stamp : Int) : Decidable (HasFourDigits stamp) := inferInstanceAs (Decidable (_ ∧ _))

/-! ## Parts of a date -/

variable {digits rest s : List Char} {least most width n : Nat}

theorem trimStart_of_head (h : ∀ c ∈ s.head?, isBlank c = false) : trimStart s = s := by
  cases s with
  | nil => rfl
  | cons c rest =>
    rw [trimStart, List.dropWhile_cons, h c rfl]
    rfl

/-- One blank is taken off. -/
theorem blanks?_cons (h : ∀ c ∈ s.head?, isBlank c = false) : blanks? (' ' :: s) = some s := by
  rw [blanks?, if_pos (by decide), trimStart_of_head h]

/-- A number ends where it has as many digits as it may have, or where no digit follows. -/
theorem number?_append (hdigits : ∀ c ∈ digits, c.isDigit = true) (hleast : least ≤ digits.length)
    (hmost : digits.length ≤ most)
    (hend : digits.length = most ∨ ∀ c ∈ rest.head?, c.isDigit = false)
    (hsmall : digitsValue digits < signedLimit) :
    number? least most (digits ++ rest) = some (digitsValue digits, rest) := by
  have hstop : (rest.take (most - digits.length)).takeWhile Char.isDigit = [] := by
    rcases hend with hfull | hnext
    · rw [hfull, Nat.sub_self, List.take_zero, List.takeWhile_nil]
    · cases rest with
      | nil => simp
      | cons c rest =>
        cases most - digits.length with
        | zero => rfl
        | succ count => rw [List.take_succ_cons, List.takeWhile_cons, hnext c rfl]; rfl
  have htaken : ((digits ++ rest).take most).takeWhile Char.isDigit = digits := by
    rw [List.take_append, List.take_of_length_le hmost, List.takeWhile_append_of_pos hdigits, hstop,
      List.append_nil]
  unfold number?
  simp only [htaken]
  rw [if_pos ⟨hleast, hsmall⟩, List.drop_left]

theorem number?_padded (hwidth : 0 < width) (hn : n < 10 ^ width) (hleast : least ≤ width)
    (hmost : width ≤ most) (hend : width = most ∨ ∀ c ∈ rest.head?, c.isDigit = false)
    (hsmall : n < signedLimit) :
    number? least most ((padded width n).toList ++ rest) = some (n, rest) := by
  have hlength := length_padded hwidth hn
  have hvalue := digitsValue_padded width n
  rw [number?_append (fun _ => isDigit_of_mem_padded) (by omega) (by omega) (by rwa [hlength])
    (by rwa [hvalue]), hvalue]

/-- A number has no blank in front. -/
theorem head_padded : ∀ c ∈ ((padded width n).toList ++ rest).head?, isBlank c = false := by
  have hne : (padded width n).toList ≠ [] := by simp [toList_padded]
  rw [List.head?_append, List.head?_eq_some_head hne]
  rintro c ⟨⟩
  exact isBlank_of_isDigit (isDigit_of_mem_padded (List.head_mem hne))

theorem name?_weekday {weekday : Nat} (h : weekday < 7) (rest : List Char) :
    name? weekdayNames ((weekdayNames.getD weekday "").toList ++ rest) = some (weekday, rest) := by
  interval_cases weekday <;> rfl

theorem head_weekday {weekday : Nat} (h : weekday < 7) (rest : List Char) :
    ∀ c ∈ ((weekdayNames.getD weekday "").toList ++ rest).head?, isBlank c = false := by
  interval_cases weekday <;> exact fun c hc => (Option.some.inj hc) ▸ rfl

theorem name?_month {month : Nat} (h : month < 12) (rest : List Char) :
    name? monthNames ((monthNames.getD month "").toList ++ rest) = some (month, rest) := by
  interval_cases month <;> rfl

theorem head_month {month : Nat} (h : month < 12) (rest : List Char) :
    ∀ c ∈ ((monthNames.getD month "").toList ++ rest).head?, isBlank c = false := by
  interval_cases month <;> exact fun c hc => (Option.some.inj hc) ▸ rfl

/-! ## Whole dates -/

/-- A date with its weekday and a time of day, as it is written. Weekdays and months are counted
from 0. -/
def written (weekday day month year hour minute second : Nat) : List Char :=
  (weekdayNames.getD weekday "").toList ++ ',' :: ' ' :: ((padded 2 day).toList ++ ' ' ::
    ((monthNames.getD month "").toList ++ ' ' :: ((padded 4 year).toList ++ ' ' ::
      ((padded 2 hour).toList ++ ':' :: ((padded 2 minute).toList ++ ':' ::
        ((padded 2 second).toList ++ [' ', 'G', 'M', 'T']))))))

section Written

variable {weekday day month year hour minute second : Nat}

/-- A written date has no blanks around it. -/
theorem trim_written (hweekday : weekday < 7) :
    trim (written weekday day month year hour minute second) =
      written weekday day month year hour minute second := by
  have hstart : trimStart (written weekday day month year hour minute second) =
      written weekday day month year hour minute second :=
    trimStart_of_head (head_weekday hweekday _)
  have hlast : (written weekday day month year hour minute second).getLast? = some 'T' := by
    simp [written, List.getLast?_cons, List.getLast?_append]
  obtain ⟨front, hfront⟩ := List.getLast?_eq_some_iff.mp hlast
  rw [trim, hstart, hfront, trimEnd, List.reverse_append, List.reverse_singleton,
    List.singleton_append, List.dropWhile_cons, if_neg (by decide), List.reverse_cons,
    List.reverse_reverse]

theorem weekday?_append (hweekday : weekday < 7) (rest : List Char) :
    weekday? ((weekdayNames.getD weekday "").toList ++ ',' :: rest) =
      some (some weekday, rest) := by
  rw [weekday?, name?_weekday hweekday]
  rfl

theorem fullYear_padded (hyear : year < 10000) (rest : List Char) :
    fullYear (((padded 4 year).toList ++ rest).length - rest.length) year = year := by
  have hfits : year < 10 ^ 4 := by omega
  rw [List.length_append, length_padded (by decide) hfits, Nat.add_sub_cancel]
  rfl

theorem char?_cons (c : Char) (rest : List Char) : char? c (c :: rest) = some rest := if_pos rfl

theorem trimStart_colon (rest : List Char) : trimStart (':' :: rest) = ':' :: rest := rfl

theorem second?_cons (hsecond : second < 100) (rest : List Char) :
    second? (':' :: ((padded 2 second).toList ++ rest)) = some (second, rest) := by
  have hsmall : second < signedLimit := by
    unfold signedLimit
    omega
  rw [second?, trimStart_colon, char?_cons]
  exact number?_padded (by decide) hsecond (by decide) (by decide) (.inl rfl) hsmall

theorem number?_year (hyear : year < 10000) (rest : List Char) :
    number? 2 ((padded 4 year).toList ++ ' ' :: rest).length
      ((padded 4 year).toList ++ ' ' :: rest) = some (year, ' ' :: rest) := by
  have hfits : year < 10 ^ 4 := by omega
  have hlength : (padded 4 year).toList.length = 4 := length_padded (by decide) hfits
  have hmost : 4 ≤ ((padded 4 year).toList ++ ' ' :: rest).length := by
    rw [List.length_append, hlength]
    omega
  -- a year can have any number of digits, so it ends only where the blank begins
  have hnext : ∀ c ∈ (' ' :: rest).head?, c.isDigit = false := by
    rintro c ⟨⟩
    decide
  have hsmall : year < signedLimit := Nat.lt_trans hyear (by decide)
  exact number?_padded (by decide) hfits (by decide) hmost (.inr hnext) hsmall

/-- A text is a date if its parts are read one after the other, each from where the one before it
ended. -/
theorem read?_of_parts {text : String} {weekday : Option Nat}
    {day month year hour minute second : Nat} {zone : Int}
    {s₁ s₂ s₃ s₄ s₅ s₆ s₇ s₈ s₉ s₁₀ s₁₁ s₁₂ : List Char}
    (hweekday : weekday? (trim text.toList) = some (weekday, s₁))
    (hday : number? 1 2 (trimStart s₁) = some (day, s₂)) (hmonth₀ : blanks? s₂ = some s₃)
    (hmonth : name? monthNames s₃ = some (month, s₄)) (hyear₀ : blanks? s₄ = some s₅)
    (hyear : number? 2 s₅.length s₅ = some (year, s₆)) (hhour₀ : blanks? s₆ = some s₇)
    (hhour : number? 2 2 s₇ = some (hour, s₈)) (hminute₀ : char? ':' (trimStart s₈) = some s₉)
    (hminute : number? 2 2 (trimStart s₉) = some (minute, s₁₀))
    (hsecond : second? s₁₀ = some (second, s₁₁)) (hzone₀ : blanks? s₁₁ = some s₁₂)
    (hzone : zone? s₁₂ = some (zone, [])) :
    read? text = stamp? weekday ⟨fullYear (s₅.length - s₆.length) year, month + 1, day⟩ hour minute
      second zone := by
  unfold read?
  dsimp only [Option.bind_eq_bind]
  rw [hweekday, Option.bind_some, hday, Option.bind_some, hmonth₀, Option.bind_some, hmonth,
    Option.bind_some, hyear₀, Option.bind_some, hyear, Option.bind_some, hhour₀, Option.bind_some,
    hhour, Option.bind_some, hminute₀, Option.bind_some, hminute, Option.bind_some, hsecond,
    Option.bind_some, hzone₀, Option.bind_some, hzone, Option.bind_some]
  exact if_pos rfl

theorem trimStart_blank (rest : List Char) : trimStart (' ' :: rest) = trimStart rest := rfl

/-- Each part of a date is read where it was written. -/
theorem read?_written (hweekday : weekday < 7) (hday : day < 100) (hmonth : month < 12)
    (hyear : year < 10000) (hhour : hour < 100) (hminute : minute < 100) (hsecond : second < 100) :
    read? (String.ofList (written weekday day month year hour minute second)) =
      stamp? (some weekday) ⟨year, month + 1, day⟩ hour minute second 0 := by
  -- no third digit is read, so that it does not matter what follows
  have htwo : ∀ {n least : Nat} (rest : List Char), n < 100 → least ≤ 2 →
      number? least 2 ((padded 2 n).toList ++ rest) = some (n, rest) := by
    intro n least rest hn hleast
    have hsmall : n < signedLimit := Nat.lt_trans hn (by decide)
    exact number?_padded (by decide) hn hleast (by decide) (.inl rfl) hsmall
  have hday' : ∀ rest : List Char,
      number? 1 2 (trimStart (' ' :: ((padded 2 day).toList ++ rest))) = some (day, rest) := by
    intro rest
    rw [trimStart_blank, trimStart_of_head head_padded]
    exact htwo rest hday (by decide)
  have hcolon : ∀ rest : List Char, char? ':' (trimStart (':' :: rest)) = some rest := by
    intro rest
    rw [trimStart_colon, char?_cons]
  have hminute' : ∀ rest : List Char, number? 2 2 (trimStart ((padded 2 minute).toList ++ rest)) =
      some (minute, rest) := by
    intro rest
    rw [trimStart_of_head head_padded]
    exact htwo rest hminute le_rfl
  have hzone₀ : blanks? [' ', 'G', 'M', 'T'] = some ['G', 'M', 'T'] := rfl
  have hzone : zone? ['G', 'M', 'T'] = some (0, []) := by decide
  have hread := read?_of_parts
    (by rw [String.toList_ofList, trim_written hweekday]; exact weekday?_append hweekday _)
    (hday' _) (blanks?_cons (head_month hmonth _)) (name?_month hmonth _)
    (blanks?_cons head_padded) (number?_year hyear _) (blanks?_cons head_padded)
    (htwo _ hhour le_rfl) (hcolon _) (hminute' _) (second?_cons hsecond _) hzone₀ hzone
  rwa [fullYear_padded hyear] at hread

end Written

/-! ## Times -/

variable {stamp other : Int}

theorem inRange_of_hasFourDigits (h : HasFourDigits stamp) : inRange stamp = stamp := by
  obtain ⟨hfirst, hlast⟩ := h
  unfold inRange
  simp only
  rw [if_pos]
  exact ⟨le_trans (by decide) hfirst, hlast.trans (by decide)⟩

/-- A time is written as its date with its weekday and its time of day. -/
theorem format_eq (h : HasFourDigits stamp) :
    format stamp = String.ofList (written (Date.weekday (stamp / secondsPerDay))
      (Date.ofDayNumber (stamp / secondsPerDay)).day
      ((Date.ofDayNumber (stamp / secondsPerDay)).month - 1)
      (Date.ofDayNumber (stamp / secondsPerDay)).year.toNat
      ((stamp % secondsPerDay).toNat / 3600) ((stamp % secondsPerDay).toNat / 60 % 60)
      ((stamp % secondsPerDay).toNat % 60)) := by
  have hyear : yearText (Date.ofDayNumber (stamp / secondsPerDay)).year =
      padded 4 (Date.ofDayNumber (stamp / secondsPerDay)).year.toNat := if_pos h
  have hcomma : ", ".toList = [',', ' '] := rfl
  have hblank : " ".toList = [' '] := rfl
  have hcolon : ":".toList = [':'] := rfl
  have hzone : " GMT".toList = [' ', 'G', 'M', 'T'] := rfl
  rw [← String.toList_inj, String.toList_ofList]
  unfold format written
  simp only [inRange_of_hasFourDigits h, hyear, String.toList_append, List.append_assoc, hcomma,
    hblank, hcolon, hzone, List.cons_append, List.nil_append]

/-- The number of a second in its day. -/
theorem secondOfDay_lt (stamp : Int) : (stamp % secondsPerDay).toNat < 86400 := by
  unfold secondsPerDay
  omega

/-- The date of a time, in Greenwich, with its weekday and its time of day is this time. -/
theorem stamp?_eq (h : HasFourDigits stamp) :
    stamp? (some (Date.weekday (stamp / secondsPerDay))) (Date.ofDayNumber (stamp / secondsPerDay))
      ((stamp % secondsPerDay).toNat / 3600) ((stamp % secondsPerDay).toNat / 60 % 60)
      ((stamp % secondsPerDay).toNat % 60) 0 = some stamp := by
  have hlast : (Date.ofDayNumber (stamp / secondsPerDay)).year ≤ Date.lastYear :=
    h.2.trans (by decide)
  have hday := secondOfDay_lt stamp
  -- a 60th second would be taken for the 59th, but no time of day has one
  have hseconds : stamp / secondsPerDay * secondsPerDay
      + ((stamp % secondsPerDay).toNat / 3600 : Nat) * 3600
      + ((stamp % secondsPerDay).toNat / 60 % 60 : Nat) * 60
      + (min ((stamp % secondsPerDay).toNat % 60) 59 : Nat) - 0 = stamp := by
    unfold secondsPerDay
    omega
  unfold stamp?
  simp only [Date.dayNumber_ofDayNumber, Date.isValid_ofDayNumber, hseconds,
    inRange_of_hasFourDigits h]
  rw [if_pos]
  simp only [Option.all_some, beq_self_eq_true, Bool.and_eq_true, decide_eq_true_eq, Bool.true_and,
    Int.natAbs_zero, and_true]
  omega

/-- What is written for a time is read as this time again. -/
theorem read?_format (h : HasFourDigits stamp) : read? (format stamp) = some stamp := by
  obtain ⟨hfirst, hmonth, hdays⟩ :=
    Date.bounds_of_isValid (Date.isValid_ofDayNumber (stamp / secondsPerDay))
  have hyear := h
  unfold HasFourDigits at hyear
  have hback : ((Date.ofDayNumber (stamp / secondsPerDay)).year.toNat : Int) =
      (Date.ofDayNumber (stamp / secondsPerDay)).year := Int.toNat_of_nonneg h.1
  have hday := secondOfDay_lt stamp
  rw [format_eq h, read?_written (Date.weekday_lt _) (by omega) (by omega) (by omega) (by omega)
    (by omega) (by omega), hback, Nat.sub_add_cancel hfirst]
  exact stamp?_eq h

/-- Two times are not written alike. -/
theorem format_inj (hstamp : HasFourDigits stamp) (hother : HasFourDigits other) :
    format stamp = format other ↔ stamp = other := by
  refine ⟨fun h => ?_, congrArg format⟩
  have hread := congrArg read? h
  rwa [read?_format hstamp, read?_format hother, Option.some.injEq] at hread

end DavGateway.HttpDate
