/-
  Points in time, in UTC: a calendar date, a time of day and nanoseconds.

  * `Date` is a date of the proleptic Gregorian calendar, with its neighbours
    `Date.next` and `Date.prev`;
  * `Timestamp.text` is the date and the time with a `T` between them and a `Z`
    behind them, with 3, 6 or 9 fraction digits where they are needed.
-/
import LedgerClient.Power
import LedgerClient.Text.Numeral

namespace LedgerClient

open Text

/-! ## Dates -/

def isLeapYear (year : Int) : Bool :=
  year % 4 == 0 && (year % 100 != 0 || year % 400 == 0)

/-- The number of days of a month. -/
def daysInMonth (year : Int) (month : Nat) : Nat :=
  if month = 2 then (if isLeapYear year then 29 else 28)
  else if month = 4 ∨ month = 6 ∨ month = 9 ∨ month = 11 then 30
  else 31

/-- A date of the calendar. -/
structure Date where
  year : Int
  month : Nat
  day : Nat
deriving DecidableEq, Repr

namespace Date

/-- The years of the calendar that are represented. -/
def yearInRange (year : Int) : Bool :=
  -262143 ≤ year && year ≤ 262142

def isValid (d : Date) : Bool :=
  yearInRange d.year && 1 ≤ d.month && d.month ≤ 12 && 1 ≤ d.day &&
    d.day ≤ daysInMonth d.year d.month

/-- The day after. -/
def next (d : Date) : Date :=
  if d.day < daysInMonth d.year d.month then { d with day := d.day + 1 }
  else if d.month < 12 then ⟨d.year, d.month + 1, 1⟩
  else ⟨d.year + 1, 1, 1⟩

/-- The day before. -/
def prev (d : Date) : Date :=
  if 1 < d.day then { d with day := d.day - 1 }
  else if 1 < d.month then ⟨d.year, d.month - 1, daysInMonth d.year (d.month - 1)⟩
  else ⟨d.year - 1, 12, 31⟩

/-- The date a whole number of days later. -/
def addDays (d : Date) : Int → Date
  | .ofNat n => (List.range n).foldl (fun d _ => d.next) d
  | .negSucc n => (List.range (n + 1)).foldl (fun d _ => d.prev) d

end Date

/-! ## Timestamps -/

/-- A point in time. A second of 60 is a leap second. -/
structure Timestamp where
  date : Date
  hour : Nat
  minute : Nat
  second : Nat
  nano : Nat
deriving DecidableEq, Repr

namespace Timestamp

def isValid (t : Timestamp) : Bool :=
  t.date.isValid && t.hour < 24 && t.minute < 60 && t.second ≤ 60 && t.nano < tenTo 9

/-- The point in time that a clock ahead by `offset` minutes shows as `t`, where
    it is in range. -/
def atOffset? (t : Timestamp) (offset : Int) : Option Timestamp :=
  let minutes : Int := t.hour * 60 + t.minute - offset
  let date := t.date.addDays (minutes / 1440)
  let rest := (minutes % 1440).toNat
  if Date.yearInRange date.year then
    some { t with date := date, hour := rest / 60, minute := rest % 60 }
  else none

/-! ### Text -/

/-- A number with at least two digits. -/
def twoDigits (n : Nat) : List Char :=
  padLeft 2 (digits n)

/-- The year with four digits, and with a sign where it has more or is negative. -/
def yearChars (year : Int) : List Char :=
  let ds := padLeft 4 (digits year.natAbs)
  if year < 0 then '-' :: ds else if year > 9999 then '+' :: ds else ds

/-- The fraction of the second: nothing, or 3, 6 or 9 digits. -/
def fractionChars (nano : Nat) : List Char :=
  if nano = 0 then []
  else if nano % 1000000 = 0 then '.' :: padLeft 3 (digits (nano / 1000000))
  else if nano % 1000 = 0 then '.' :: padLeft 6 (digits (nano / 1000))
  else '.' :: padLeft 9 (digits nano)

def chars (t : Timestamp) : List Char :=
  yearChars t.date.year ++ '-' :: twoDigits t.date.month ++ '-' :: twoDigits t.date.day ++
    'T' :: twoDigits t.hour ++ ':' :: twoDigits t.minute ++ ':' :: twoDigits t.second ++
    fractionChars t.nano ++ ['Z']

/-- The text of a point in time. -/
def text (t : Timestamp) : String :=
  String.ofList t.chars

end Timestamp

end LedgerClient
