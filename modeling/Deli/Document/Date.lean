import Deli.Document.Number

/-! Dates and times of day as a document writes them, and which of them are in the calendar. -/

namespace Deli.Document

/-- A time of day, to the microsecond, and how far the clock is off, in minutes, if that is said. -/
structure Clock where
  hour : Nat
  minute : Nat
  second : Nat
  micros : Nat
  offset : Option Int
  deriving DecidableEq, Repr

/-- A date, and with it perhaps a time of day. -/
structure Stamp where
  year : Nat
  month : Nat
  day : Nat
  clock : Option Clock
  deriving DecidableEq, Repr

namespace Stamp

abbrev Reader := StateT (List Char) Option

/-- As many digits as there are, but not fewer than `least` and not more than `most`. -/
def number (least most : Nat) : Reader Nat := do
  let cs := ((← get).take most).takeWhile Char.isDigit
  if cs.length < least then failure
  modify (·.drop cs.length)
  pure (Number.valueIn 10 cs)

def expect (c : Char) : Reader Unit := do
  match ← get with
  | d :: rest => if c == d then set rest else failure
  | [] => failure

def blanks : Reader Nat := do
  let cs := (← get).takeWhile fun c => c == ' ' || c == '\t'
  modify (·.drop cs.length)
  pure cs.length

def zone : Reader Int := do
  let _ ← blanks
  match ← get with
  | ['Z'] => do
    set ([] : List Char)
    pure 0
  | c :: rest =>
    if c == '-' || c == '+' then
      set rest
      let hours ← number 1 2
      let minutes ← if (← get).isEmpty then pure 0 else do
        expect ':'
        number 2 2
      let offset : Int := 60 * hours + minutes
      pure (if c == '-' then -offset else offset)
    else failure
  | [] => failure

/-- The digits after a point, of which the first six count. -/
def fraction : Reader Nat := do
  match ← get with
  | '.' :: rest =>
    let digits := rest.takeWhile Char.isDigit
    set (rest.drop digits.length)
    pure (Number.valueIn 10 ((digits ++ List.replicate 6 '0').take 6))
  | _ => pure 0

def timeOfDay : Reader Clock := do
  let hour ← number 1 2
  expect ':'
  let minute ← number 2 2
  expect ':'
  let second ← number 2 2
  let micros ← fraction
  let offset ← if (← get).isEmpty then pure none else some <$> zone
  pure ⟨hour, minute, second, micros, offset⟩

/-- A date and perhaps a time; the rest of the text has to be used up. -/
def stamp : Reader Stamp := do
  let year ← number 4 4
  expect '-'
  let month ← number 1 2
  expect '-'
  let day ← number 1 2
  if (← get).isEmpty then pure ⟨year, month, day, none⟩
  else
    if (← get).head?.any fun c => c == 'T' || c == 't' then modify (·.drop 1)
    else if (← blanks) == 0 then failure
    pure ⟨year, month, day, some (← timeOfDay)⟩

def ofChars? (cs : List Char) : Option Stamp :=
  match stamp.run cs with
  | some (t, []) => some t
  | _ => none

/-- As `ofChars?`, but a date without a time has to be written with all its zeros. -/
def strict? (cs : List Char) : Option Stamp :=
  (ofChars? cs).filter fun t => t.clock.isSome || cs.length == 10

/-! ### The calendar -/

def isLeap (year : Nat) : Bool := year % 4 == 0 && (year % 100 != 0 || year % 400 == 0)

def daysIn (year month : Nat) : Nat :=
  if month == 2 then if isLeap year then 29 else 28
  else if [4, 6, 9, 11].contains month then 30
  else 31

/-- How many days of the calendar come before the first day of a year. -/
def daysBefore (year : Nat) : Nat :=
  let y := year - 1
  365 * y + y / 4 - y / 100 + y / 400

def minutesPerDay : Nat := 24 * 60

/-- A span of minutes in whole days, rounded down, and seconds beyond them, if there are any. -/
def spanText (minutes : Int) : String :=
  let seconds := 60 * (minutes % minutesPerDay)
  "datetime.timedelta(days=" ++ toString (minutes / minutesPerDay)
    ++ (if seconds = 0 then "" else ", seconds=" ++ toString seconds) ++ ")"

/-- What is wrong with a date, if it is not in the calendar. -/
def error? (t : Stamp) : Option String :=
  let clock := t.clock.getD ⟨0, 0, 0, 0, none⟩
  let offset := clock.offset.getD 0
  if offset.natAbs ≥ minutesPerDay then
    some ("offset must be a timedelta strictly between -timedelta(hours=24) and "
      ++ "timedelta(hours=24), not " ++ spanText offset ++ ".")
  else if t.year == 0 then some "year 0 is out of range"
  else if t.month == 0 || t.month > 12 then some "month must be in 1..12"
  else if t.day == 0 || t.day > daysIn t.year t.month then some "day is out of range for month"
  else if clock.hour > 23 then some "hour must be in 0..23"
  else if clock.minute > 59 then some "minute must be in 0..59"
  else if clock.second > 59 then some "second must be in 0..59"
  else none

/-- The number of the day, the first day of the calendar being the first. -/
def dayNumber (t : Stamp) : Nat :=
  (List.range (t.month - 1)).foldl (fun n m => n + daysIn t.year (m + 1)) (daysBefore t.year) + t.day

/-- The datum that a date stands for. Two times with a known offset are the same if they are so
all over the world. -/
def toDatum (t : Stamp) : Datum :=
  match t.clock with
  | none => .day t.dayNumber
  | some c =>
    let minutes : Int := (t.dayNumber * 24 + c.hour) * 60 + c.minute - c.offset.getD 0
    .time c.offset.isSome ((minutes * 60 + c.second) * 1000000 + c.micros)

end Stamp

end Deli.Document
