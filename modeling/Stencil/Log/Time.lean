import Stencil.Decimal.Notation

/-!
# Points in time

A date and a time of day, and their two texts: the standard one, which leaves out a zero fraction
of a second, and one after a pattern of codes such as `%Y-%m-%d`. A point in time belongs to no
zone, so the codes of the zone stand for nothing.
-/

namespace Stencil.Log

structure Time where
  year : Nat
  month : Nat
  day : Nat
  hour : Nat
  minute : Nat
  second : Nat
  microsecond : Nat
deriving DecidableEq, Repr

namespace Time

def padded (width n : Nat) : List Char :=
  let ds := Nat.toDigits 10 n
  zeros (width - ds.length) ++ ds

def isLeap (year : Nat) : Bool :=
  year % 4 == 0 && (year % 100 != 0 || year % 400 == 0)

/-- The days of a year before the first of a month. -/
def daysBefore (year month : Nat) : Nat :=
  ([31, if isLeap year then 29 else 28, 31, 30, 31, 30, 31, 31, 30, 31, 30, 31].take
    (month - 1)).foldl Nat.add 0

def dayOfYear (t : Time) : Nat :=
  daysBefore t.year t.month + t.day

def standard (t : Time) : String :=
  String.ofList
    (padded 4 t.year ++ '-' :: padded 2 t.month ++ '-' :: padded 2 t.day ++
      'T' :: padded 2 t.hour ++ ':' :: padded 2 t.minute ++ ':' :: padded 2 t.second ++
      if t.microsecond = 0 then [] else '.' :: padded 6 t.microsecond)

/-- The number of the day, where the first day of the year 1 has the number 1. -/
def ordinal (t : Time) : Nat :=
  let years := t.year - 1
  365 * years + years / 4 - years / 100 + years / 400 + t.dayOfYear

def weekday (t : Time) : Nat :=
  t.ordinal % 7

def weekdayFromMonday (t : Time) : Nat :=
  (t.weekday + 6) % 7 + 1

/-- The number of weeks of a year, where a week belongs to the year of its Thursday. -/
def weeksIn (year : Nat) : Nat :=
  let first := weekday ⟨year, 1, 1, 0, 0, 0, 0⟩
  if first = 4 ∨ (isLeap year ∧ first = 3) then 53 else 52

/-- The year and the number of the week, where a week belongs to the year of its Thursday. -/
def week (t : Time) : Nat × Nat :=
  let week := (t.dayOfYear + 10 - t.weekdayFromMonday) / 7
  if week = 0 then (t.year - 1, weeksIn (t.year - 1))
  else if weeksIn t.year < week then (t.year + 1, 1)
  else (t.year, week)

def clockHour (t : Time) : Nat :=
  (t.hour + 11) % 12 + 1

def weekdayName (t : Time) : String :=
  (["Sunday", "Monday", "Tuesday", "Wednesday", "Thursday", "Friday",
    "Saturday"][t.weekday]?).getD ""

def monthName (t : Time) : String :=
  (["January", "February", "March", "April", "May", "June", "July", "August", "September",
    "October", "November", "December"][t.month - 1]?).getD ""

/-- A number of two digits with a blank in front, if it has only one. -/
def indented (n : Nat) : List Char :=
  if n < 10 then ' ' :: Nat.toDigits 10 n else Nat.toDigits 10 n

def field? (t : Time) : Char → Option (List Char)
  | 'Y' => some (Nat.toDigits 10 t.year)
  | 'C' => some (Nat.toDigits 10 (t.year / 100))
  | 'y' => some (padded 2 (t.year % 100))
  | 'm' => some (padded 2 t.month)
  | 'B' => some t.monthName.toList
  | 'b' | 'h' => some (t.monthName.toList.take 3)
  | 'd' => some (padded 2 t.day)
  | 'e' => some (indented t.day)
  | 'j' => some (padded 3 t.dayOfYear)
  | 'A' => some t.weekdayName.toList
  | 'a' => some (t.weekdayName.toList.take 3)
  | 'w' => some (Nat.toDigits 10 t.weekday)
  | 'u' => some (Nat.toDigits 10 t.weekdayFromMonday)
  | 'U' => some (padded 2 ((t.dayOfYear + 6 - t.weekday) / 7))
  | 'W' => some (padded 2 ((t.dayOfYear + 7 - t.weekdayFromMonday) / 7))
  | 'V' => some (padded 2 t.week.2)
  | 'G' => some (Nat.toDigits 10 t.week.1)
  | 'g' => some (padded 2 (t.week.1 % 100))
  | 'H' => some (padded 2 t.hour)
  | 'k' => some (indented t.hour)
  | 'I' => some (padded 2 t.clockHour)
  | 'l' => some (indented t.clockHour)
  | 'p' => some (if t.hour < 12 then ['A', 'M'] else ['P', 'M'])
  | 'P' => some (if t.hour < 12 then ['a', 'm'] else ['p', 'm'])
  | 'M' => some (padded 2 t.minute)
  | 'S' => some (padded 2 t.second)
  | 'f' => some (padded 6 t.microsecond)
  | 'z' | 'Z' => some []
  | 'n' => some ['\n']
  | 't' => some ['\t']
  | '%' => some ['%']
  | _ => none

def patternOf? : Char → Option String
  | 'c' => some "%a %b %e %H:%M:%S %Y"
  | 'D' | 'x' => some "%m/%d/%y"
  | 'F' => some "%Y-%m-%d"
  | 'T' | 'X' => some "%H:%M:%S"
  | 'R' => some "%H:%M"
  | 'r' => some "%I:%M:%S %p"
  | _ => none

/-- Fills a pattern. A code that stands for nothing stays as it is. -/
def filledBy (code? : Char → Option (List Char)) : List Char → List Char
  | [] => []
  | '%' :: c :: cs => (code? c).getD ['%', c] ++ filledBy code? cs
  | c :: cs => c :: filledBy code? cs

def filled (t : Time) (pattern : List Char) : List Char :=
  filledBy (fun c => t.field? c <|> (patternOf? c).map fun p => filledBy t.field? p.toList) pattern

/-- The text after a pattern, which a null character ends. -/
def text (t : Time) (pattern : String) : String :=
  String.ofList (t.filled (pattern.toList.takeWhile (·.toNat != 0)))

end Time

end Stencil.Log
