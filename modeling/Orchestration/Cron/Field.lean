/-! The fields of a cron expression: what each may hold, and how a list of items
selects from it. Every item comes down to an arithmetic progression. -/
namespace Orchestration.Cron

inductive Field where
  | second
  | minute
  | hour
  | day
  | month
  | weekday
  | year
  deriving DecidableEq, Repr

namespace Field

def first : Field → Nat
  | second => 0
  | minute => 0
  | hour => 0
  | day => 1
  | month => 1
  | weekday => 1
  | year => 1970

def last : Field → Nat
  | second => 59
  | minute => 59
  | hour => 23
  | day => 31
  | month => 12
  | weekday => 7
  | year => 2100

def allowsAny : Field → Bool
  | day => true
  | weekday => true
  | _ => false

def monthNames : List (List String) :=
  [["jan", "january"], ["feb", "february"], ["mar", "march"], ["apr", "april"], ["may"],
   ["jun", "june"], ["jul", "july"], ["aug", "august"], ["sep", "september"],
   ["oct", "october"], ["nov", "november"], ["dec", "december"]]

def weekdayNames : List (List String) :=
  [["sun", "sunday"], ["mon", "monday"], ["tue", "tues", "tuesday"], ["wed", "wednesday"],
   ["thu", "thurs", "thursday"], ["fri", "friday"], ["sat", "saturday"]]

def names : Field → List (List String)
  | month => monthNames
  | weekday => weekdayNames
  | _ => []

def named? (f : Field) (name : String) : Option Nat :=
  (f.names.findIdx? fun spellings => spellings.contains name).map fun i => f.first + i

def allowed? (f : Field) (n : Nat) : Option Nat :=
  if f.first ≤ n ∧ n ≤ f.last then some n else none

end Field

inductive Span where
  | every
  | only (n : Nat)
  | between (low high : Nat)
  | betweenNames (low high : String)
  deriving DecidableEq, Repr

inductive Item where
  | plain (span : Span)
  | stepped (span : Span) (step : Nat)
  | named (name : String)
  deriving DecidableEq, Repr

structure Progression where
  low : Nat
  high : Nat
  step : Nat
  deriving DecidableEq, Repr

def Progression.holds (p : Progression) (n : Nat) : Bool :=
  p.low ≤ n && n ≤ p.high && (n - p.low) % p.step = 0

namespace Field

def ordered? (f : Field) (low high : Nat) : Option Progression :=
  match f.allowed? low, f.allowed? high with
  | some low, some high => if low ≤ high then some ⟨low, high, 1⟩ else none
  | _, _ => none

def span? (f : Field) : Span → Option Progression
  | .every => some ⟨f.first, f.last, 1⟩
  | .only n => (f.allowed? n).map fun n => ⟨n, n, 1⟩
  | .between low high => f.ordered? low high
  | .betweenNames low high =>
    match f.named? low, f.named? high with
    | some low, some high => f.ordered? low high
    | _, _ => none

/-- A single value with a step means that value and all after it. -/
def stretch? (f : Field) : Span → Option Progression
  | .only n => (f.allowed? n).map fun n => ⟨n, f.last, 1⟩
  | span => f.span? span

def item? (f : Field) : Item → Option Progression
  | .plain span => f.span? span
  | .stepped span step => if step = 0 then none else (f.stretch? span).map ({ · with step := step })
  | .named name => (f.named? name).map fun n => ⟨n, n, 1⟩

end Field
end Orchestration.Cron
