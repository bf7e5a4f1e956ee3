import Orchestration.Collection.SortedMap
import Orchestration.Cron.Expression

/-! Cron jobs under keys. A job ticks when the clock has reached the first match
after it was added or last ticked, once however many matches were passed. The
running jobs are numbered; the keys in use point to their numbers. -/
namespace Orchestration

structure CronJob (τ : Type) where
  key : String
  expression : CronExpression
  tick : τ
  deriving DecidableEq, Repr

def CronJob.build {τ : Type} (key cron : String) (tick : τ) : Except Error (CronJob τ) :=
  (CronExpression.read cron).map fun expression => ⟨key, expression, tick⟩

structure LiveJob (τ : Type) where
  number : Nat
  job : CronJob τ
  due : Option Nat
  deriving DecidableEq, Repr

def LiveJob.isDue {τ : Type} (clock : Nat) (j : LiveJob τ) : Bool := j.due.any (· ≤ clock)

def LiveJob.advance {τ : Type} (clock : Nat) (j : LiveJob τ) : LiveJob τ :=
  if j.isDue clock then { j with due := j.job.expression.next clock } else j

structure CronService (τ : Type) where
  live : List (LiveJob τ)
  tracked : SortedMap Nat
  started : Nat
  deriving Repr

namespace CronService
variable {τ : Type}

def empty : CronService τ := ⟨[], .empty, 0⟩

def keys (s : CronService τ) : List String := s.tracked.keys

def size (s : CronService τ) : Nat := s.tracked.size

def drop (s : CronService τ) (number : Nat) : CronService τ :=
  { s with live := s.live.filter (·.number ≠ number) }

def install (s : CronService τ) (moment : Nat) (job : CronJob τ) : CronService τ :=
  let previous := s.tracked.get? job.key
  let added : CronService τ :=
    { live := s.live ++ [⟨s.started, job, job.expression.next moment⟩]
      tracked := s.tracked.insert job.key s.started
      started := s.started + 1 }
  match previous with
  | some number => added.drop number
  | none => added

def addOrUpdate (s : CronService τ) (moment : Nat) (key cron : String) (tick : τ) :
    Except Error (CronService τ) :=
  (CronJob.build key cron tick).map (s.install moment)

def remove (s : CronService τ) (key : String) : CronService τ :=
  match s.tracked.get? key with
  | some number => { s with tracked := s.tracked.erase key }.drop number
  | none => s

def removePrefixed (s : CronService τ) (start : String) (keep : List String) : CronService τ :=
  (s.keys.filter fun key => start.toList.isPrefixOf key.toList && !keep.contains key).foldl remove s

def stop (s : CronService τ) : CronService τ := { s with live := [], tracked := .empty }

def advance (s : CronService τ) (clock : Nat) : List (CronJob τ) × CronService τ :=
  ((s.live.filter (LiveJob.isDue clock)).map (·.job),
    { s with live := s.live.map (LiveJob.advance clock) })

end CronService
end Orchestration
