import LiveSurface.Text.Digit

/-!
# Timestamps of YAML

A day of the calendar, written with four, two and two digits, or a day with a time, whose month,
day and hour may also have one digit. A time may have a fraction, and an offset from universal time.
Two times with offsets are one when they are the same moment.
-/
namespace LiveSurface.Yaml

/-- A time of day. -/
structure Clock where
  hour : Nat
  minute : Nat
  second : Nat
  microsecond : Nat
  /-- The minutes that the time is ahead of universal time, where it says so. -/
  offset : Option Int
deriving DecidableEq, Repr

/-- A day, or a day with a time. -/
structure Timestamp where
  year : Nat
  month : Nat
  day : Nat
  clock : Option Clock
deriving DecidableEq, Repr

namespace Timestamp

/-- Why a timestamp is not in the calendar. -/
inductive Fault
  | year (n : Nat)
  | month
  | day
  | hour
  | minute
  | second
  /-- An offset of a whole day or more. -/
  | offset (minutes : Int)
deriving DecidableEq, Repr

/-- A span of minutes in days and seconds. -/
def spanText (minutes : Int) : String :=
  let days := minutes.fdiv 1440
  let seconds := minutes.fmod 1440 * 60
  if seconds = 0 then s!"datetime.timedelta(days={days})"
  else s!"datetime.timedelta(days={days}, seconds={seconds})"

/-- The wording of a fault. -/
def Fault.message : Fault → String
  | year n => s!"year {n} is out of range"
  | month => "month must be in 1..12"
  | day => "day is out of range for month"
  | hour => "hour must be in 0..23"
  | minute => "minute must be in 0..59"
  | second => "second must be in 0..59"
  | offset minutes =>
    "offset must be a timedelta strictly between -timedelta(hours=24) and timedelta(hours=24), "
      ++ s!"not {spanText minutes}."

/-- Whether a year has a leap day. -/
def isLeap (year : Nat) : Bool := year % 4 == 0 && (year % 100 != 0 || year % 400 == 0)

/-- The lengths of the months of a year. -/
def monthLengths (year : Nat) : List Nat :=
  [31, if isLeap year then 29 else 28, 31, 30, 31, 30, 31, 31, 30, 31, 30, 31]

/-- The length of a month, zero for what is no month. -/
def monthLength (year month : Nat) : Nat :=
  if month = 0 then 0 else ((monthLengths year)[month - 1]?).getD 0

/-- The days before a day. -/
def daysBefore (year month day : Nat) : Nat :=
  let years := year - 1
  365 * years + years / 4 - years / 100 + years / 400
    + ((monthLengths year).take (month - 1)).foldl (· + ·) 0 + (day - 1)

/-- The first thing about a timestamp that is not in the calendar. -/
def fault? (t : Timestamp) : Option Fault :=
  let offset := (t.clock.bind Clock.offset).getD 0
  let clock := t.clock.getD ⟨0, 0, 0, 0, none⟩
  if 1440 ≤ offset.natAbs then some (.offset offset)
  else if t.year = 0 then some (.year t.year)
  else if t.month = 0 ∨ 12 < t.month then some .month
  else if t.day = 0 ∨ monthLength t.year t.month < t.day then some .day
  else if 23 < clock.hour then some .hour
  else if 59 < clock.minute then some .minute
  else if 59 < clock.second then some .second
  else none

/-- The microseconds from the start of the calendar to a time with an offset. -/
def moment? (t : Timestamp) : Option Int := do
  let clock ← t.clock
  let offset ← clock.offset
  let minutes : Int := (24 * daysBefore t.year t.month t.day + clock.hour) * 60 + clock.minute
  pure (((minutes - offset) * 60 + clock.second) * 1000000 + clock.microsecond)

/-- Whether two timestamps are one. -/
def same (t u : Timestamp) : Bool :=
  t = u || (t.moment?.isSome && t.moment? = u.moment?)

/-- A number filled up with zeros in front. -/
def padded (width n : Nat) : String :=
  let digits := toString n
  String.ofList (List.replicate (width - digits.length) '0') ++ digits

/-- The text of an offset. -/
def offsetText (offset : Int) : String :=
  let sign := if offset < 0 then "-" else "+"
  sign ++ padded 2 (offset.natAbs / 60) ++ ":" ++ padded 2 (offset.natAbs % 60)

/-- The text of a time of day. -/
def clockText (clock : Clock) : String :=
  padded 2 clock.hour ++ ":" ++ padded 2 clock.minute ++ ":" ++ padded 2 clock.second
    ++ (if clock.microsecond = 0 then "" else "." ++ padded 6 clock.microsecond)
    ++ ((clock.offset.map offsetText).getD "")

/-- The text of a timestamp. -/
def text (t : Timestamp) : String :=
  padded 4 t.year ++ "-" ++ padded 2 t.month ++ "-" ++ padded 2 t.day
    ++ ((t.clock.map fun clock => " " ++ clockText clock).getD "")

/-- The number that the digits at the start of a text write, and what follows them: as many digits
as there are, up to the most, and no fewer than the least. -/
def number? (least most : Nat) (cs : List Char) : Option (Nat × List Char) :=
  let digits := (cs.take most).takeWhile Char.isDigit
  if digits.length < least then none
  else some (Text.numeral 0 digits, cs.drop digits.length)

/-- What follows a mark at the start of a text. -/
def after? (mark : Char) : List Char → Option (List Char)
  | c :: rest => if c = mark then some rest else none
  | [] => none

/-- The blanks between the parts of a timestamp. -/
def isGap (c : Char) : Bool := c == ' ' || c == '\t'

/-- The offset that a text writes. -/
def offset? : List Char → Option Int
  | ['Z'] => some 0
  | sign :: rest => do
    guard (sign = '+' ∨ sign = '-')
    let (hours, rest) ← number? 1 2 rest
    let minutes ←
      if rest.isEmpty then some 0
      else do
        let (minutes, rest) ← number? 2 2 (← after? ':' rest)
        guard rest.isEmpty
        pure minutes
    let ahead : Int := 60 * hours + minutes
    pure (if sign = '-' then -ahead else ahead)
  | [] => none

/-- The microseconds of the digits of a fraction; further digits are cut off. -/
def microseconds (digits : List Char) : Nat :=
  let first := digits.take 6
  Text.numeral 0 first * Nat.pow 10 (6 - first.length)

/-- The time of day that a text writes. -/
def clock? (cs : List Char) : Option Clock := do
  let (hour, cs) ← number? 1 2 cs
  let (minute, cs) ← number? 2 2 (← after? ':' cs)
  let (second, cs) ← number? 2 2 (← after? ':' cs)
  let (fraction, cs) := match cs with
    | '.' :: more => (more.takeWhile Char.isDigit, more.dropWhile Char.isDigit)
    | _ => ([], cs)
  let offset ← if cs.isEmpty then some none else (offset? (cs.dropWhile isGap)).map some
  pure ⟨hour, minute, second, microseconds fraction, offset⟩

/-- The timestamp that a text writes, in the calendar or not. -/
def ofText? (cs : List Char) : Option Timestamp := do
  let (year, rest) ← number? 4 4 cs
  let (month, rest) ← number? 1 2 (← after? '-' rest)
  let (day, rest) ← number? 1 2 (← after? '-' rest)
  match rest with
  | [] => if cs.length = 10 then pure ⟨year, month, day, none⟩ else none
  | c :: more =>
    let time :=
      if c = 'T' ∨ c = 't' then more else if isGap c then more.dropWhile isGap else []
    pure ⟨year, month, day, some (← clock? time)⟩

end Timestamp
end LiveSurface.Yaml
