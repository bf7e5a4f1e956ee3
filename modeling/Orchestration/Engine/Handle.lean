import Orchestration.Error

/-! Handles to started runs. -/
namespace Orchestration

structure RunId where
  number : Nat
  deriving DecidableEq, Repr, Inhabited

inductive Report where
  | silent
  | dropped
  | settled (outcome : Except Error Unit)

structure RunHandle where
  workflowId : String
  run : RunId
  queue : String
  deriving DecidableEq, Repr, Inhabited

def Report.outcome (run : String) : Report → Except Error Unit
  | .silent => .error (.runUnreported run)
  | .dropped => .error (.runCancelled run)
  | .settled outcome => outcome

end Orchestration
