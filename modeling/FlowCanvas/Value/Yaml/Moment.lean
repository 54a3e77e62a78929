import FlowCanvas.Decimal.Numeral
import FlowCanvas.Value.Basic

namespace FlowCanvas.Yaml
open Text (isAsciiDigit)

structure Date where
  year : Nat
  month : Nat
  day : Nat
  deriving DecidableEq, Repr

structure Clock where
  hour : Nat
  minute : Nat
  second : Nat
  microsecond : Nat
  offset : Option Int
  deriving DecidableEq, Repr

structure Moment where
  date : Date
  clock : Option Clock
  deriving DecidableEq, Repr

namespace Moment

def run? (least most : Nat) (cs : List Char) : Option (List Char × List Char) :=
  let run := cs.takeWhile isAsciiDigit
  if least ≤ run.length ∧ run.length ≤ most then some (run, cs.drop run.length) else none

def after? (c : Char) : List Char → Option (List Char)
  | [] => none
  | d :: r => if d = c then some r else none

def isGap (c : Char) : Bool :=
  c = ' ' || c = '\t'

/-- Reads how far the clock is ahead, up to the end of the text: nothing, `Z` or a sign and hours
with or without minutes. -/
def offset? (cs : List Char) : Option (Option Int) :=
  if cs.isEmpty then some none
  else match cs.dropWhile isGap with
    | ['Z'] => some (some 0)
    | sign :: r => do
      if sign ≠ '+' ∧ sign ≠ '-' then none
      let (hours, r) ← run? 1 2 r
      let minutes ← if r.isEmpty then some [] else do
        let (minutes, r) ← run? 2 2 (← after? ':' r)
        if r.isEmpty then some minutes else none
      let ahead : Int := 60 * Decimal.digitsValue hours + Decimal.digitsValue minutes
      return some (if sign = '-' then -ahead else ahead)
    | [] => none

/-- Millionths of a second from the digits after the point; those after the sixth do not count. -/
def microseconds (fraction : List Char) : Nat :=
  Decimal.digitsValue ((fraction ++ List.replicate 6 '0').take 6)

def clock? (cs : List Char) : Option Clock := do
  let (hour, r) ← run? 1 2 cs
  let (minute, r) ← run? 2 2 (← after? ':' r)
  let (second, r) ← run? 2 2 (← after? ':' r)
  let (fraction, r) := match r with
    | '.' :: s => (s.takeWhile isAsciiDigit, s.dropWhile isAsciiDigit)
    | r => ([], r)
  return {
    hour := Decimal.digitsValue hour
    minute := Decimal.digitsValue minute
    second := Decimal.digitsValue second
    microsecond := microseconds fraction
    offset := ← offset? r }

/-- Reads a moment. A date alone has two digits for the month and two for the day. -/
def read? (cs : List Char) : Option Moment := do
  let (year, r) ← run? 4 4 cs
  let (month, r) ← run? 1 2 (← after? '-' r)
  let (day, r) ← run? 1 2 (← after? '-' r)
  let date := ⟨Decimal.digitsValue year, Decimal.digitsValue month, Decimal.digitsValue day⟩
  match r with
  | [] => if month.length = 2 ∧ day.length = 2 then some ⟨date, none⟩ else none
  | c :: s =>
    if c = 'T' ∨ c = 't' then return ⟨date, some (← clock? s)⟩
    else if isGap c then return ⟨date, some (← clock? (s.dropWhile isGap))⟩
    else none

inductive Fault where
  | year
  | month
  | day
  | hour
  | minute
  | second
  | offset (minutes : Int)
  deriving DecidableEq, Repr

def isLeap (year : Nat) : Bool :=
  year % 4 = 0 && (year % 100 ≠ 0 || year % 400 = 0)

def daysIn (year month : Nat) : Nat :=
  if month = 2 then (if isLeap year then 29 else 28)
  else if month = 4 ∨ month = 6 ∨ month = 9 ∨ month = 11 then 30
  else 31

def minutesADay : Nat := 24 * 60

def dateFault? (d : Date) : Option Fault :=
  if d.year = 0 then some .year
  else if d.month = 0 ∨ 12 < d.month then some .month
  else if d.day = 0 ∨ daysIn d.year d.month < d.day then some .day
  else none

def clockFault? (c : Clock) : Option Fault :=
  if 24 ≤ c.hour then some .hour
  else if 60 ≤ c.minute then some .minute
  else if 60 ≤ c.second then some .second
  else none

def offsetFault? (c : Clock) : Option Fault :=
  c.offset.bind fun minutes =>
    if minutesADay ≤ minutes.natAbs then some (.offset minutes) else none

/-- The first part that is out of range. A clock may be ahead or behind by less than a day, which
counts before the parts of the date. -/
def fault? (m : Moment) : Option Fault :=
  m.clock.bind offsetFault? <|> dateFault? m.date <|> m.clock.bind clockFault?

def lengthLiteral (minutes : Int) : String :=
  let part (name : String) (n : Int) := if n = 0 then [] else [name ++ "=" ++ toString n]
  "datetime.timedelta(" ++
    ", ".intercalate (part "days" (minutes / minutesADay) ++
      part "seconds" (60 * (minutes % minutesADay))) ++ ")"

def Fault.message : Fault → String
  | year => "year 0 is out of range"
  | month => "month must be in 1..12"
  | day => "day is out of range for month"
  | hour => "hour must be in 0..23"
  | minute => "minute must be in 0..59"
  | second => "second must be in 0..59"
  | offset minutes =>
    "offset must be a timedelta strictly between -timedelta(hours=24) and timedelta(hours=24), " ++
      "not " ++ lengthLiteral minutes ++ "."

def zoneLiteral (minutes : Int) : String :=
  if minutes = 0 then "datetime.timezone.utc"
  else "datetime.timezone(" ++ lengthLiteral minutes ++ ")"

def clockParts (c : Clock) : List Nat :=
  [c.hour, c.minute] ++
    (if c.microsecond ≠ 0 then [c.second, c.microsecond]
     else if c.second ≠ 0 then [c.second]
     else [])

def literal (m : Moment) : String :=
  let call (name : String) (args : List String) := name ++ "(" ++ ", ".intercalate args ++ ")"
  let date := [m.date.year, m.date.month, m.date.day].map toString
  match m.clock with
  | none => call "datetime.date" date
  | some c =>
    call "datetime.datetime"
      (date ++ (clockParts c).map toString ++
        match c.offset with
        | some minutes => ["tzinfo=" ++ zoneLiteral minutes]
        | none => [])

def kindName (m : Moment) : String :=
  if m.clock.isSome then "datetime" else "date"

def toValue (m : Moment) : Value :=
  .other m.kindName m.literal

end Moment
end FlowCanvas.Yaml
