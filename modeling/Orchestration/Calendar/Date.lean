/-! The Gregorian calendar from 1970 on. A moment is a number of seconds since the
start of 1970; days have 86400 of them. -/
namespace Orchestration

structure Date where
  year : Nat
  month : Nat
  day : Nat
  deriving DecidableEq, Repr

structure TimeOfDay where
  hour : Nat
  minute : Nat
  second : Nat
  deriving DecidableEq, Repr

namespace Calendar

def isLeap (year : Nat) : Bool := year % 4 = 0 && (year % 100 ≠ 0 || year % 400 = 0)

def yearLength (year : Nat) : Nat := if isLeap year then 366 else 365

theorem yearLengthPos (year : Nat) : 0 < yearLength year := by
  unfold yearLength; split <;> omega

def monthLengths (year : Nat) : List Nat :=
  [31, if isLeap year then 29 else 28, 31, 30, 31, 30, 31, 31, 30, 31, 30, 31]

/-- The year that holds the given day, counted from the start of `year`, and the day within it. -/
def takeYears (year days : Nat) : Nat × Nat :=
  if days < yearLength year then (year, days) else takeYears (year + 1) (days - yearLength year)
termination_by days
decreasing_by have := yearLengthPos year; omega

def takeMonths : Nat → Nat → List Nat → Nat × Nat
  | month, days, [] => (month, days)
  | month, days, length :: rest =>
    if days < length then (month, days) else takeMonths (month + 1) (days - length) rest

def date (days : Nat) : Date :=
  let (year, rest) := takeYears 1970 days
  let (month, day) := takeMonths 1 rest (monthLengths year)
  ⟨year, month, day + 1⟩

def yearStart (year : Nat) : Nat :=
  (List.range' 1970 (year - 1970)).foldr (fun y days => yearLength y + days) 0

/-- Days of the week count from Sunday as 1; 1970 began on a Thursday. -/
def weekday (days : Nat) : Nat := (days + 4) % 7 + 1

def dayLength : Nat := 86400

def day (moment : Nat) : Nat := moment / dayLength

def secondOfDay (moment : Nat) : Nat := moment % dayLength

def timeOfDay (second : Nat) : TimeOfDay := ⟨second / 3600, second / 60 % 60, second % 60⟩

end Calendar
end Orchestration
