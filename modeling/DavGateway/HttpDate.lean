import DavGateway.Calendar
import DavGateway.Text.Blank
import DavGateway.Text.Number

/-!
# Dates in headers

Time stamps count seconds from the start of 1970 in UTC. `HttpDate.format` writes the fixed form
`Sun, 06 Nov 1994 08:49:37 GMT`; `HttpDate.read?` also reads the older spellings of mail headers:
the weekday and the seconds may be left out, years may be short, zones may be named or numbered,
and comments may follow.
-/

namespace DavGateway.HttpDate

open Text

/-- The short names of the days of the week, from Sunday on. -/
def weekdayNames : List String := ["Sun", "Mon", "Tue", "Wed", "Thu", "Fri", "Sat"]

/-- The short names of the months, from January on. -/
def monthNames : List String :=
  ["Jan", "Feb", "Mar", "Apr", "May", "Jun", "Jul", "Aug", "Sep", "Oct", "Nov", "Dec"]

/-- A year has at least four digits, and a sign if it does not have just four. -/
def yearText (year : Int) : String :=
  if 0 ≤ year ∧ year ≤ 9999 then padded 4 year.toNat
  else (if year < 0 then "-" else "+") ++ padded 4 year.natAbs

/-- The stamp itself if its year is in range, and the start of 1970 for any other. -/
def inRange (stamp : Int) : Int :=
  let year := (Date.ofDayNumber (stamp / secondsPerDay)).year
  if Date.firstYear ≤ year ∧ year ≤ Date.lastYear then stamp else 0

/-- Writes a time stamp. -/
def format (stamp : Int) : String :=
  let stamp := inRange stamp
  let dayNumber := stamp / secondsPerDay
  let second := (stamp % secondsPerDay).toNat
  let date := Date.ofDayNumber dayNumber
  weekdayNames.getD (Date.weekday dayNumber) "" ++ ", " ++ padded 2 date.day ++ " "
    ++ monthNames.getD (date.month - 1) "" ++ " " ++ yearText date.year ++ " "
    ++ padded 2 (second / 3600) ++ ":" ++ padded 2 (second / 60 % 60) ++ ":"
    ++ padded 2 (second % 60) ++ " GMT"

/-! ## Reading

Each reader takes what it reads off the front of the text and gives back the rest. -/

/-- Reads at least `least` and at most `most` digits; a number of more than 63 bits fails. -/
def number? (least most : Nat) (s : List Char) : Option (Nat × List Char) :=
  let digits := (s.take most).takeWhile Char.isDigit
  let value := digitsValue digits
  if least ≤ digits.length ∧ value < signedLimit then some (value, s.drop digits.length) else none

/-- Reads a name of the list in any case, and gives its position. -/
def name? (names : List String) (s : List Char) : Option (Nat × List Char) :=
  let word := (s.take 3).map Char.toLower
  (names.findIdx? fun name => name.toList.map Char.toLower == word).map (·, s.drop 3)

/-- Reads one blank or more. -/
def blanks? (s : List Char) : Option (List Char) :=
  match s with
  | c :: rest => if isBlank c then some (trimStart rest) else none
  | [] => none

/-- Reads the given character. -/
def char? (c : Char) (s : List Char) : Option (List Char) :=
  match s with
  | d :: rest => if d = c then some rest else none
  | [] => none

/-- Short years: two digits below 50 are of this century, other two and three digits count from
1900. -/
def fullYear (digits : Nat) (year : Nat) : Nat :=
  if digits = 2 ∧ year < 50 then year + 2000
  else if digits = 2 ∨ digits = 3 then year + 1900
  else year

/-- The zones with names, and their hours east of Greenwich. -/
def namedZones : List (String × Int) :=
  [("gmt", 0), ("ut", 0), ("z", 0), ("edt", -4), ("est", -5), ("cdt", -5), ("cst", -6),
    ("mdt", -6), ("mst", -7), ("pdt", -7), ("pst", -8)]

/-- The offset of a named zone in seconds. A single letter other than J is a zone of its own and
counts as Greenwich. -/
def namedZone? (name : List Char) : Option Int :=
  let name := name.map Char.toLower
  match namedZones.find? fun zone => zone.1.toList == name with
  | some zone => some (zone.2 * 3600)
  | none => if name.length = 1 ∧ name ≠ ['j'] then some 0 else none

/-- Reads a zone: a name, or a sign with two digits for hours and two for minutes. The answer is
its offset in seconds. -/
def zone? (s : List Char) : Option (Int × List Char) :=
  let name := s.takeWhile Char.isAlpha
  if name ≠ [] then (namedZone? name).map (·, s.drop name.length)
  else match s with
    | sign :: h₁ :: h₂ :: m₁ :: m₂ :: rest =>
      if (sign == '+' || sign == '-') && [h₁, h₂, m₁, m₂].all Char.isDigit && m₁ < '6' then
        let seconds : Int := digitsValue [h₁, h₂] * 3600 + digitsValue [m₁, m₂] * 60
        some (if sign = '-' then -seconds else seconds, rest)
      else none
    | _ => none

/-- What follows a comment whose opening bracket has been read, with `depth` more brackets open.
A backslash takes the meaning off the next character. -/
def afterComment? : Nat → List Char → Option (List Char)
  | depth, '\\' :: _ :: rest => afterComment? depth rest
  | 0, ')' :: rest => some rest
  | depth + 1, ')' :: rest => afterComment? depth rest
  | depth, '(' :: rest => afterComment? (depth + 1) rest
  | depth, _ :: rest => afterComment? depth rest
  | _, [] => none

/-- Are there only comments, each with blanks in front? One comment is read for each unit of
`fuel`. -/
def onlyComments : Nat → List Char → Bool
  | _, [] => true
  | 0, _ => false
  | fuel + 1, s =>
    match trimStart s with
    | '(' :: rest =>
      match afterComment? 0 rest with
      | some rest => onlyComments fuel rest
      | none => false
    | _ => false

/-- Reads the weekday and the comma after it, if the text begins with a weekday. -/
def weekday? (s : List Char) : Option (Option Nat × List Char) :=
  match name? weekdayNames s with
  | some (weekday, rest) => (char? ',' rest).map (some weekday, ·)
  | none => some (none, s)

/-- Reads the seconds, if a colon is next. -/
def second? (s : List Char) : Option (Nat × List Char) :=
  match char? ':' (trimStart s) with
  | some rest => number? 2 2 rest
  | none => some (0, s)

/-- The time stamp of a date and a time of day in a zone. A leap second is the second before it,
a weekday has to be the right one, and so has every number. -/
def stamp? (weekday : Option Nat) (date : Date) (hour minute second : Nat) (zone : Int) :
    Option Int :=
  let dayNumber := date.dayNumber
  let local_ := dayNumber * secondsPerDay + hour * 3600 + minute * 60 + (min second 59 : Nat)
  if date.isValid && date.year ≤ Date.lastYear && weekday.all (· == Date.weekday dayNumber)
      && hour < 24 && minute < 60 && second ≤ 60 && zone.natAbs < 86400
      && inRange (local_ - zone) == local_ - zone then
    some (local_ - zone)
  else none

/-- Reads a date and gives its time stamp. -/
def read? (text : String) : Option Int := do
  let s := trim text.toList
  let (weekday, s) ← weekday? s
  let (day, s) ← number? 1 2 (trimStart s)
  let s ← blanks? s
  let (month, s) ← name? monthNames s
  let s ← blanks? s
  let (year, rest) ← number? 2 s.length s
  let year := fullYear (s.length - rest.length) year
  let s ← blanks? rest
  let (hour, s) ← number? 2 2 s
  let s ← char? ':' (trimStart s)
  let (minute, s) ← number? 2 2 (trimStart s)
  let (second, s) ← second? s
  let s ← blanks? s
  let (zone, s) ← zone? s
  if onlyComments s.length s then
    stamp? weekday ⟨year, month + 1, day⟩ hour minute second zone
  else none

end DavGateway.HttpDate
