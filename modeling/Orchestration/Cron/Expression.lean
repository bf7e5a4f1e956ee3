import Orchestration.Calendar.Date
import Orchestration.Cron.Field
import Orchestration.Error
import Orchestration.Text.Blank

/-! Cron expressions: six or seven fields from seconds to years, each a list of
items between commas. Blanks may stand around a list and around numbers and names
and are needed nowhere, so fields are told apart by the grammar alone.

A moment matches when every field holds its part of it; `next` is the first
matching moment after a given one. -/
namespace Orchestration.Cron

abbrev Scan (α : Type) := List Char → Option (α × List Char)

def isGap (c : Char) : Bool := c = ' ' || c = '\t' || c = '\r' || c = '\n'

def skipGaps (cs : List Char) : List Char := cs.dropWhile isGap

def scanWord (inside : Char → Bool) : Scan (List Char) := fun cs =>
  let cs := skipGaps cs
  match cs.takeWhile inside with
  | [] => none
  | word => some (word, skipGaps (cs.dropWhile inside))

def numeral (digits : List Char) : Nat :=
  digits.foldl (fun n c => 10 * n + (c.toNat - '0'.toNat)) 0

def scanNumber : Scan Nat := fun cs =>
  match scanWord Char.isDigit cs with
  | some (digits, rest) => if numeral digits < Nat.pow 2 32 then some (numeral digits, rest) else none
  | none => none

def scanName : Scan String := fun cs =>
  (scanWord Char.isAlpha cs).map fun (letters, rest) =>
    (String.ofList (letters.map Char.toLower), rest)

def scanMark (c : Char) : Scan Unit
  | [] => none
  | d :: rest => if d = c then some ((), rest) else none

def scanPair {α : Type} (one : Scan α) (mark : Char) : Scan (α × α) := fun cs =>
  match one cs with
  | none => none
  | some (low, rest) =>
    match scanMark mark rest with
    | none => none
    | some (_, rest) => (one rest).map fun (high, rest) => ((low, high), rest)

def scanEvery (allowsAny : Bool) : Scan Span := fun cs =>
  match cs with
  | c :: rest => if c = '*' || (allowsAny && c = '?') then some (.every, rest) else none
  | [] => none

def scanSpan (allowsAny : Bool) : Scan Span := fun cs =>
  (scanEvery allowsAny cs)
    <|> (scanPair scanNumber '-' cs).map (fun ((low, high), rest) => (.between low high, rest))
    <|> (scanNumber cs).map (fun (n, rest) => (.only n, rest))
    <|> (scanPair scanName '-' cs).map (fun ((low, high), rest) => (.betweenNames low high, rest))

def scanStepped (allowsAny : Bool) : Scan Item := fun cs =>
  match scanSpan allowsAny cs with
  | none => none
  | some (span, rest) =>
    match scanMark '/' rest with
    | none => none
    | some (_, rest) => (scanNumber rest).map fun (step, rest) => (.stepped span step, rest)

def scanItem (allowsAny : Bool) : Scan Item := fun cs =>
  (scanStepped allowsAny cs)
    <|> (scanSpan allowsAny cs).map (fun (span, rest) => (.plain span, rest))
    <|> (scanName cs).map (fun (name, rest) => (.named name, rest))

/-- A comma belongs to the list only when an item follows it. -/
def scanItems (allowsAny : Bool) (cs : List Char) : Option (List Item × List Char) :=
  match scanItem allowsAny cs with
  | none => none
  | some (item, rest) =>
    match scanMark ',' rest with
    | none => some ([item], rest)
    | some (_, after) =>
      if _shorter : after.length < cs.length then
        match scanItems allowsAny after with
        | none => some ([item], rest)
        | some (items, rest) => some (item :: items, rest)
      else some ([item], rest)
termination_by cs.length

abbrev Selection := List Progression

def Selection.holds (s : Selection) (n : Nat) : Bool := s.any (·.holds n)

def scanField (f : Field) : Scan Selection := fun cs =>
  match scanItems f.allowsAny (skipGaps cs) with
  | none => none
  | some (items, rest) => (items.mapM f.item?).map fun selection => (selection, skipGaps rest)

end Cron

structure CronExpression where
  seconds : Cron.Selection
  minutes : Cron.Selection
  hours : Cron.Selection
  days : Cron.Selection
  months : Cron.Selection
  weekdays : Cron.Selection
  years : Cron.Selection
  deriving DecidableEq, Repr

namespace CronExpression
open Cron

def allYears : Selection := [⟨Field.year.first, Field.year.last, 1⟩]

def scanYears : List Char → Option Selection
  | [] => some allYears
  | cs => match scanField .year cs with
    | some (years, []) => some years
    | _ => none

def ofChars (cs : List Char) : Option CronExpression := do
  let (seconds, cs) ← scanField .second cs
  let (minutes, cs) ← scanField .minute cs
  let (hours, cs) ← scanField .hour cs
  let (days, cs) ← scanField .day cs
  let (months, cs) ← scanField .month cs
  let (weekdays, cs) ← scanField .weekday cs
  let years ← scanYears cs
  some ⟨seconds, minutes, hours, days, months, weekdays, years⟩

/-- The seconds-first form of an expression: one of five words fires at second 0. -/
def normalized (cron : String) : Except Error String :=
  let trimmed := Text.trim cron
  match (Text.words trimmed.toList).length with
  | 5 => .ok ("0 " ++ trimmed)
  | 6 => .ok trimmed
  | 7 => .ok trimmed
  | _ => .error (.cronWordCount cron)

def read (cron : String) : Except Error CronExpression :=
  match normalized cron with
  | .error e => .error e
  | .ok text =>
    match ofChars text.toList with
    | some expression => .ok expression
    | none => .error (.cronUnreadable cron)

def dayHolds (e : CronExpression) (day : Nat) : Bool :=
  let date := Calendar.date day
  e.years.holds date.year && e.months.holds date.month && e.days.holds date.day &&
    e.weekdays.holds (Calendar.weekday day)

def timeHolds (e : CronExpression) (second : Nat) : Bool :=
  let time := Calendar.timeOfDay second
  e.hours.holds time.hour && e.minutes.holds time.minute && e.seconds.holds time.second

def holds (e : CronExpression) (moment : Nat) : Bool :=
  e.dayHolds (Calendar.day moment) && e.timeHolds (Calendar.secondOfDay moment)

def firstFrom (test : Nat → Bool) : Nat → Nat → Option Nat
  | _, 0 => none
  | start, count + 1 => if test start then some start else firstFrom test (start + 1) count

def horizon : Nat := Calendar.yearStart (Field.year.last + 1)

def nextTime (e : CronExpression) (start : Nat) : Option Nat :=
  firstFrom e.timeHolds start (Calendar.dayLength - start)

def fromDay (e : CronExpression) (day : Nat) : Option Nat :=
  match firstFrom e.dayHolds day (horizon - day) with
  | none => none
  | some day => (e.nextTime 0).map (day * Calendar.dayLength + ·)

def next (e : CronExpression) (moment : Nat) : Option Nat :=
  let day := Calendar.day (moment + 1)
  if e.dayHolds day then
    match e.nextTime (Calendar.secondOfDay (moment + 1)) with
    | some second => some (day * Calendar.dayLength + second)
    | none => e.fromDay (day + 1)
  else e.fromDay (day + 1)

end CronExpression
end Orchestration
