import Orchestration.Schedule.Draw
import Orchestration.Text.Blank

/-! What a workflow's schedule means: a literal cron expression, or the name of a
class, which stands for an expression drawn at random. -/
namespace Orchestration

inductive ScheduleClass where
  | daily
  | hourly
  | quarterly
  deriving DecidableEq, Repr

namespace ScheduleClass

def name : ScheduleClass → String
  | daily => "random-daily"
  | hourly => "random-hourly"
  | quarterly => "random-15-min"

def parse (text : String) : Option ScheduleClass :=
  let plain := (Text.trimChars text.toList).map fun c => if c.toLower = '_' then '-' else c.toLower
  [daily, hourly, quarterly].find? fun c => c.name.toList = plain

def bound : ScheduleClass → Nat
  | daily => 24
  | hourly => 60
  | quarterly => 15

def expression (c : ScheduleClass) (n : Nat) : String :=
  match c with
  | daily => "0 " ++ toString n ++ " * * *"
  | hourly => toString n ++ " * * * *"
  | quarterly =>
    ",".intercalate ([n, n + 15, n + 30, n + 45].map toString) ++ " * * * *"

def of? (expression : String) : Option ScheduleClass :=
  [daily, hourly, quarterly].find? fun c =>
    (List.range c.bound).any fun n => c.expression n = expression

end ScheduleClass

/-- `preserve` is set for drawn expressions: one that is in place already is kept. -/
structure ScheduleSpec where
  expression : String
  preserve : Bool
  deriving DecidableEq, Repr

def ScheduleSpec.resolve (schedule : String) (words : List Nat) : ScheduleSpec × List Nat :=
  match ScheduleClass.parse schedule with
  | some c => (⟨c.expression (Draw.below c.bound words), true⟩, Draw.rest c.bound words)
  | none => (⟨Text.trim schedule, false⟩, words)

end Orchestration
