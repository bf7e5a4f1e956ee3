import Orchestration.Json.Value

/-! Schedules as an engine keeps them. -/
namespace Orchestration

structure ScheduleAction where
  procedure : String
  queue : String
  input : Json
  deriving DecidableEq, Repr

structure ScheduleDescription where
  id : String
  expressions : List String
  action : ScheduleAction
  deriving DecidableEq, Repr

end Orchestration
