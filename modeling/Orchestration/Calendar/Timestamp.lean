import Orchestration.Calendar.Date
import Orchestration.Duration

/-! Moments as texts: date and time of day in UTC with an offset of zero, and
milliseconds only when there are some. -/
namespace Orchestration.Calendar

def padText (width n : Nat) : String := String.ofList (Duration.padded width n)

/-- Four digits; a later year has a sign and as many digits as it needs. -/
def yearText (year : Nat) : String :=
  if year < 10000 then padText 4 year else "+" ++ padText 5 year

def dateText (d : Date) : String :=
  yearText d.year ++ "-" ++ padText 2 d.month ++ "-" ++ padText 2 d.day

def timeText (t : TimeOfDay) : String :=
  padText 2 t.hour ++ ":" ++ padText 2 t.minute ++ ":" ++ padText 2 t.second

def timestamp (moment : Nat) : String :=
  let second := moment / 1000
  let fraction := moment % 1000
  dateText (date (day second)) ++ "T" ++ timeText (timeOfDay (secondOfDay second)) ++
    (if fraction = 0 then "" else "." ++ padText 3 fraction) ++ "+00:00"

end Orchestration.Calendar
