import BookHub.Base.Elixir
import Mathlib.Algebra.Group.Int.Defs
import Mathlib.Algebra.Group.Nat.Defs

/-!
# Date and time in UTC

Instants of the proleptic Gregorian calendar, the parser of their extended ISO 8601 notation, and
their difference in seconds, which cuts both sides to whole seconds first.
-/

namespace BookHub.Elixir

/-- Microseconds since the start of the year 0, and how many of their decimals were written. -/
structure DateTime where
  micros : Int
  precision : Nat
  deriving DecidableEq, Repr

namespace DateTime

/-- `DateTime.diff(later, earlier, :second)`. -/
def diff (later earlier : DateTime) : Int := later.micros / 1000000 - earlier.micros / 1000000

/-! ### The calendar -/

def leapYear (year : Int) : Bool := year % 4 = 0 && (year % 100 ≠ 0 || year % 400 = 0)

def daysInMonth (year : Int) (month : Nat) : Nat :=
  if month = 2 then if leapYear year then 29 else 28
  else if month = 4 ∨ month = 6 ∨ month = 9 ∨ month = 11 then 30 else 31

def validDate (year : Int) (month day : Nat) : Bool :=
  1 ≤ month && month ≤ 12 && 1 ≤ day && day ≤ daysInMonth year month

def validTime (hour minute second : Nat) : Bool := hour < 24 && minute < 60 && second < 60

def daysInPreviousYears (year : Int) : Int :=
  (year - 1) * 365 + (year - 1) / 4 - (year - 1) / 100 + (year - 1) / 400 + 366

def daysBeforeMonth (year : Int) (month : Nat) : Nat :=
  (List.range (month - 1)).foldl (fun days previous => days + daysInMonth year (previous + 1)) 0

/-- Days since the first of January of the year 0. -/
def dateToIsoDays (year : Int) (month day : Nat) : Int :=
  daysInPreviousYears year + daysBeforeMonth year month + day - 1

/-! ### The parser -/

def digit? (c : Char) : Option Nat := if c.isDigit then some (c.toNat - '0'.toNat) else none

def number? (digits : List Char) : Option Nat :=
  digits.foldlM (fun value c => (digit? c).map fun digit => 10 * value + digit) 0

def parseDate : List Char → Option ((Nat × Nat × Nat) × List Char)
  | y₁ :: y₂ :: y₃ :: y₄ :: '-' :: m₁ :: m₂ :: '-' :: d₁ :: d₂ :: rest => do
      return ((← number? [y₁, y₂, y₃, y₄], ← number? [m₁, m₂], ← number? [d₁, d₂]), rest)
  | _ => none

def parseTime : List Char → Option ((Nat × Nat × Nat) × List Char)
  | h₁ :: h₂ :: ':' :: m₁ :: m₂ :: ':' :: s₁ :: s₂ :: rest => do
      return ((← number? [h₁, h₂], ← number? [m₁, m₂], ← number? [s₁, s₂]), rest)
  | _ => none

/-- The fraction that a dot or a comma announces: its value and precision. Decimals after the sixth
are dropped. -/
def parseFraction (chars : List Char) : Option ((Nat × Nat) × List Char) :=
  match chars.takeWhile Char.isDigit with
  | [] => none
  | digits => do
      let kept := digits.take 6
      let value ← number? kept
      return ((value * 10 ^ (6 - kept.length), kept.length), chars.dropWhile Char.isDigit)

def parseMicrosecond : List Char → Option ((Nat × Nat) × List Char)
  | '.' :: rest => parseFraction rest
  | ',' :: rest => parseFraction rest
  | rest => some ((0, 0), rest)

def offsetSeconds (sign : Int) (hour minute : List Char) : Option Int := do
  let hour ← number? hour
  let minute ← number? minute
  if hour < 24 ∧ minute < 60 then return sign * ((hour * 60 + minute) * 60) else none

/-- The offset from UTC in seconds; there must be one, and nothing after it. -/
def parseOffset : List Char → Option Int
  | ['Z'] => some 0
  | ['-', '0', '0', ':', '0', '0'] => none
  | ['+', h₁, h₂, ':', m₁, m₂] => offsetSeconds 1 [h₁, h₂] [m₁, m₂]
  | ['-', h₁, h₂, ':', m₁, m₂] => offsetSeconds (-1) [h₁, h₂] [m₁, m₂]
  | ['+', h₁, h₂, m₁, m₂] => offsetSeconds 1 [h₁, h₂] [m₁, m₂]
  | ['-', h₁, h₂, m₁, m₂] => offsetSeconds (-1) [h₁, h₂] [m₁, m₂]
  | ['+', h₁, h₂] => offsetSeconds 1 [h₁, h₂] []
  | ['-', h₁, h₂] => offsetSeconds (-1) [h₁, h₂] []
  | _ => none

/-- The sign of the year, and the rest. -/
def parseSign : List Char → Int × List Char
  | '-' :: rest => (-1, rest)
  | '+' :: rest => (1, rest)
  | rest => (1, rest)

/-- The instant a text denotes, or why there is none: it is not in the notation, or it names a date,
a time or an offset that does not exist. -/
def parseUtc? (text : String) : Option DateTime := do
  let (sign, chars) := parseSign text.toList
  let ((year, month, day), chars) ← parseDate chars
  let separator ← chars.head?
  if separator ≠ 'T' ∧ separator ≠ ' ' then none
  let ((hour, minute, second), chars) ← parseTime chars.tail
  let ((fraction, precision), chars) ← parseMicrosecond chars
  let offset ← parseOffset chars
  let year := sign * year
  if validDate year month day && validTime hour minute second then
    let seconds := dateToIsoDays year month day * 86400 + (hour * 3600 + minute * 60 + second) - offset
    return ⟨seconds * 1000000 + fraction, precision⟩
  else none

/-- The days of the calendar, from the year -9999 to the year 9999. -/
def inCalendar (dt : DateTime) : Bool :=
  -3652059 ≤ dt.micros / 86400000000 && dt.micros / 86400000000 ≤ 3652424

/-- `DateTime.from_iso8601`: `none` is its error. An offset that moves the instant out of the calendar
raises, and so does anything but a string. -/
def fromIso8601 : Term → Except Raise (Option DateTime)
  | .binary text =>
      match parseUtc? text with
      | none => .ok none
      | some dt => if dt.inCalendar then .ok (some dt) else .error .fromIso8601
  | _ => .error .fromIso8601

/-- An hour ahead of UTC. -/
example : (parseUtc? "2026-03-01T23:59:59.5+01:00").map (·.micros) =
    (parseUtc? "2026-03-01T22:59:59.500Z").map (·.micros) := by decide

end DateTime

end BookHub.Elixir
