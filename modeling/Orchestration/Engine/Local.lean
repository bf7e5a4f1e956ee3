import Orchestration.Cron.Service
import Orchestration.Engine.Handle
import Orchestration.Engine.Run
import Orchestration.Engine.Schedule

/-! An engine in memory: procedures and activities by name, the runs that have not
ended, and schedules, each kept in step with cron jobs under keys that begin with
its id. -/
namespace Orchestration

structure LocalEngine (σ : Type) where
  procedures : SortedMap (CompiledJob σ)
  activities : SortedMap (ActionHandler σ)
  schedules : SortedMap ScheduleDescription
  runs : List RunId
  cron : CronService String

namespace LocalEngine
variable {σ : Type}

def empty : LocalEngine σ := ⟨.empty, .empty, .empty, [], .empty⟩

def registerProcedure (e : LocalEngine σ) (name : String) (job : CompiledJob σ) : LocalEngine σ :=
  { e with procedures := e.procedures.insert name job }

def registerActivity (e : LocalEngine σ) (name : String) (handler : ActionHandler σ) :
    LocalEngine σ :=
  { e with activities := e.activities.insert name handler }

def procedure (e : LocalEngine σ) (name : String) : Except Error (CompiledJob σ) :=
  match e.procedures.get? name with
  | some job => .ok job
  | none => .error (.procedureNotRegistered name)

def track (e : LocalEngine σ) (run : RunId) : LocalEngine σ := { e with runs := e.runs ++ [run] }

def untrack (e : LocalEngine σ) (run : RunId) : LocalEngine σ :=
  { e with runs := e.runs.filter (· ≠ run) }

def keyStart (id : String) : String := id ++ "#"

def buildJobs (id : String) : Nat → List String → Except Error (List (CronJob String))
  | _, [] => .ok []
  | i, cron :: rest =>
    match CronJob.build (keyStart id ++ toString i) cron id with
    | .error e => .error e
    | .ok job => (buildJobs id (i + 1) rest).map (job :: ·)

/-- Points the cron jobs of a schedule at expressions. All are checked before any job changes. -/
def registerCron (e : LocalEngine σ) (moment : Nat) (id : String) (expressions : List String) :
    Except Error (LocalEngine σ) :=
  (buildJobs id 0 expressions).map fun jobs =>
    let installed := jobs.foldl (fun cron job => cron.install moment job) e.cron
    { e with cron := installed.removePrefixed (keyStart id) (jobs.map (·.key)) }

def createSchedule (e : LocalEngine σ) (moment : Nat) (id cron : String) (action : ScheduleAction) :
    Except Error (LocalEngine σ) :=
  if e.schedules.contains id then .error (.scheduleExists id)
  else
    (e.registerCron moment id [cron]).map fun e =>
      { e with schedules := e.schedules.insert id ⟨id, [cron], action⟩ }

def updateSchedule (e : LocalEngine σ) (moment : Nat) (id : String)
    (change : ScheduleDescription → ScheduleDescription) : Except Error (LocalEngine σ) :=
  match e.schedules.get? id with
  | none => .error (.scheduleNotFound id)
  | some current =>
    let updated := { change current with id := id }
    let store (e : LocalEngine σ) : LocalEngine σ :=
      { e with schedules := e.schedules.insert id updated }
    if updated.expressions = current.expressions then .ok (store e)
    else (e.registerCron moment id updated.expressions).map store

def tick? (e : LocalEngine σ) (id : String) : Option ScheduleAction :=
  (e.schedules.get? id).map (·.action)

def shutdown (e : LocalEngine σ) : LocalEngine σ := { e with cron := e.cron.stop }

end LocalEngine
end Orchestration
