import Inlay.Number.Decimal
import Inlay.Text.Basic

/-!
# Moments

Days of the calendar, with or without a time of the day: how they are written, which of them
exist, which of them are the same instant, and their usual form.
-/

set_option autoImplicit false

namespace Inlay

/-- A time of a day, and by how many minutes its clock is ahead if that is known. -/
structure ClockTime where
  hour : Nat
  minute : Nat
  second : Nat
  microsecond : Nat
  offset : Option Int
deriving Repr, DecidableEq

/-- A day of the calendar, with a time or without one. -/
structure Moment where
  year : Nat
  month : Nat
  day : Nat
  time : Option ClockTime
deriving Repr, DecidableEq

/-- Why a moment does not exist. -/
inductive MomentFault where
  | offset (minutes : Int)
  | year (number : Nat)
  | month
  | day
  | hour
  | minute
  | second
deriving Repr, DecidableEq

def dayMinutes : Nat := 1440

/-- How a span of minutes is told: its whole days, and the seconds beyond them. -/
def spanMessage (minutes : Int) : String :=
  let days := minutes / dayMinutes
  let seconds := minutes % dayMinutes * 60
  let parts :=
    (if days = 0 then [] else [s!"days={days}"]) ++
      (if seconds = 0 then [] else [s!"seconds={seconds}"])
  let told := ", ".intercalate parts
  s!"datetime.timedelta({told})"

def MomentFault.message : MomentFault → String
  | .offset minutes =>
      "offset must be a timedelta strictly between -timedelta(hours=24) and " ++
        s!"timedelta(hours=24), not {spanMessage minutes}."
  | .year number => s!"year {number} is out of range"
  | .month => "month must be in 1..12"
  | .day => "day is out of range for month"
  | .hour => "hour must be in 0..23"
  | .minute => "minute must be in 0..59"
  | .second => "second must be in 0..59"

/-! ## Reading -/

/-- A number of at least and at most so many digits, and the text behind it. -/
def digitField? (least most : Nat) (text : Text) : Option (Nat × Text) :=
  let digits := (text.take most).takeWhile CodePoint.isDigit
  if least ≤ digits.length then some (asciiValue digits, text.drop digits.length) else none

namespace ClockTime

def isGap (c : CodePoint) : Bool := c == ' ' || c == '\t'

/-- The text behind what stands between a day and its time: a letter, or gaps. -/
def behindDay? (text : Text) : Option Text :=
  match text with
  | [] => none
  | c :: rest =>
      if c = 'T' ∨ c = 't' then some rest
      else if isGap c then some (text.dropWhile isGap)
      else none

def span? (text : Text) : Option Int := do
  let (hours, behind) ← digitField? 1 2 text
  match behind with
  | [] => return 60 * hours
  | .char ':' :: rest => do
      let (minutes, behind) ← digitField? 2 2 rest
      if behind = [] then return 60 * hours + minutes else none
  | _ => none

/-- What is known of the offset of a clock. Nothing but gaps is not written. -/
def offset? (text : Text) : Option (Option Int) :=
  match text.dropWhile isGap with
  | [] => if text = [] then some none else none
  | [.char 'Z'] => some (some 0)
  | .char '+' :: rest => (span? rest).map some
  | .char '-' :: rest => (span? rest).map fun minutes => some (-minutes)
  | _ => none

/-- Reads the fraction of a second, to six places. -/
def fraction (text : Text) : Nat × Text :=
  match text with
  | .char '.' :: rest =>
      let zeros := List.replicate 6 (CodePoint.char '0')
      (asciiValue ((rest.takeWhile CodePoint.isDigit ++ zeros).take 6),
        rest.dropWhile CodePoint.isDigit)
  | _ => (0, text)

def ofText? (text : Text) : Option ClockTime := do
  let text ← behindDay? text
  let (hour, text) ← digitField? 1 2 text
  let text ← Text.after? [':'] text
  let (minute, text) ← digitField? 2 2 text
  let text ← Text.after? [':'] text
  let (second, text) ← digitField? 2 2 text
  let (microsecond, text) := fraction text
  let offset ← offset? text
  return { hour, minute, second, microsecond, offset }

/-- What does not exist in a time, apart from its offset. -/
def fault? (time : ClockTime) : Option MomentFault :=
  if 23 < time.hour then some .hour
  else if 59 < time.minute then some .minute
  else if 59 < time.second then some .second
  else none

def offsetFault? (time : ClockTime) : Option MomentFault :=
  match time.offset with
  | some minutes => if dayMinutes ≤ minutes.natAbs then some (.offset minutes) else none
  | none => none

end ClockTime

namespace Moment

/-- The moment that a text writes, which need not exist. -/
def ofText? (text : Text) : Option Moment := do
  let (year, text) ← digitField? 4 4 text
  let text ← Text.after? ['-'] text
  let (month, text) ← digitField? 1 2 text
  let text ← Text.after? ['-'] text
  let (day, text) ← digitField? 1 2 text
  if text = [] then return { year, month, day, time := none }
  else
    let time ← ClockTime.ofText? text
    return { year, month, day, time := some time }

def dayLength : Nat := 10

/-- Whether a text writes a moment without being told to be one: a day alone is written in
full. -/
def isMoment (text : Text) : Bool :=
  match ofText? text with
  | some moment => moment.time.isSome || text.length == dayLength
  | none => false

/-! ## The calendar -/

def isLeapYear (year : Nat) : Bool := year % 4 == 0 && (year % 100 != 0 || year % 400 == 0)

def daysIn (year month : Nat) : Nat :=
  if month = 2 then if isLeapYear year then 29 else 28
  else if month = 4 ∨ month = 6 ∨ month = 9 ∨ month = 11 then 30
  else 31

/-- What does not exist in the day of a moment. -/
def dayFault? (moment : Moment) : Option MomentFault :=
  if moment.year = 0 then some (.year moment.year)
  else if moment.month = 0 ∨ 12 < moment.month then some .month
  else if moment.day = 0 ∨ daysIn moment.year moment.month < moment.day then some .day
  else none

/-- Why a moment does not exist. The offset of its clock is examined first. -/
def fault? (moment : Moment) : Option MomentFault :=
  moment.time.bind ClockTime.offsetFault? <|> moment.dayFault? <|> moment.time.bind ClockTime.fault?

/-! ## Instants -/

def dayBefore (moment : Moment) : Moment :=
  if 1 < moment.day then { moment with day := moment.day - 1 }
  else if 1 < moment.month then
    { moment with
      month := moment.month - 1
      day := daysIn moment.year (moment.month - 1) }
  else { moment with year := moment.year - 1, month := 12, day := 31 }

def dayAfter (moment : Moment) : Moment :=
  if moment.day < daysIn moment.year moment.month then { moment with day := moment.day + 1 }
  else if moment.month < 12 then { moment with month := moment.month + 1, day := 1 }
  else { moment with year := moment.year + 1, month := 1, day := 1 }

/-- The same instant as told by a clock that is not ahead, if it is known how far the clock of
the moment is. -/
def instant (moment : Moment) : Moment :=
  match moment.time with
  | none => moment
  | some time =>
      match time.offset with
      | none => moment
      | some offset =>
          let minutes := (60 * time.hour + time.minute : Int) - offset
          let ofDay := (minutes % dayMinutes).toNat
          let day :=
            if minutes < 0 then moment.dayBefore
            else if dayMinutes ≤ minutes then moment.dayAfter
            else moment
          { day with
            time := some { time with
              hour := ofDay / 60
              minute := ofDay % 60
              offset := some 0 } }

/-! ## Writing -/

/-- A number with zeros in front of it, up to a width. -/
def filled (width number : Nat) : Text :=
  let digits := natNumeral number
  List.replicate (width - digits.length) (CodePoint.char '0') ++ digits

def offsetText (minutes : Int) : Text :=
  let sign : Text := if minutes < 0 then "-" else "+"
  sign ++ filled 2 (minutes.natAbs / 60) ++ ":" ++ filled 2 (minutes.natAbs % 60)

def timeText (time : ClockTime) : Text :=
  let fraction : Text := if time.microsecond = 0 then [] else "." ++ filled 6 time.microsecond
  filled 2 time.hour ++ ":" ++ filled 2 time.minute ++ ":" ++ filled 2 time.second ++ fraction ++
    (time.offset.map offsetText).getD []

def text (moment : Moment) : Text :=
  filled 4 moment.year ++ "-" ++ filled 2 moment.month ++ "-" ++ filled 2 moment.day ++
    match moment.time with
    | none => []
    | some time => " " ++ timeText time

def offsetMessage (minutes : Int) : String :=
  if minutes = 0 then "datetime.timezone.utc" else s!"datetime.timezone({spanMessage minutes})"

/-- The parts of a time that are told. Seconds and their fractions are left out if they are
zero. -/
def timeParts (time : ClockTime) : List String :=
  let seconds :=
    if time.microsecond ≠ 0 then [time.second, time.microsecond]
    else if time.second ≠ 0 then [time.second] else []
  let offset :=
    match time.offset with
    | some minutes => [s!"tzinfo={offsetMessage minutes}"]
    | none => []
  ([time.hour, time.minute] ++ seconds).map toString ++ offset

def kind (moment : Moment) : String := if moment.time.isSome then "datetime" else "date"

def message (moment : Moment) : String :=
  let parts :=
    [moment.year, moment.month, moment.day].map toString ++
      (moment.time.map timeParts).getD []
  let told := ", ".intercalate parts
  s!"datetime.{moment.kind}({told})"

end Moment

end Inlay
