import Orchestration.Client.Registry
import Orchestration.Host.Clock

/-! A host as a platform, and the default queue connected beside the runs. -/
namespace Orchestration.Host
variable {σ : Type}

def platform (runText : RunId → String) : Platform σ Connection (Host σ) where
  connect settings h := h.connect settings
  pause := pass
  runText := runText
  registerProcedure c name job h := h.changeEngine c.engine (·.registerProcedure name job)
  registerActivity c name handler h := h.changeEngine c.engine (·.registerActivity name handler)
  startRun c procedure queue input h := h.startRun runText c.engine procedure queue input
  createSchedule c id cron action h :=
    h.tryEngine c.engine ((h.engine c.engine).createSchedule h.second id cron action)
  schedule? c id h := .ok ((h.engine c.engine).schedules.get? id)
  updateSchedule c id change h :=
    h.tryEngine c.engine ((h.engine c.engine).updateSchedule h.second id change)

def drainFleet (f : Fleet Connection (Host σ)) : Fleet Connection (Host σ) :=
  { f with state := f.state.drain }

/-- Connects the default queue in a task of its own and waits for it; tasks that can go on go
first, and those that are due when it ends do so too. -/
def bootstrap (p : Platform σ Connection (Host σ)) (f : Fleet Connection (Host σ)) :
    Except Error Unit × Fleet Connection (Host σ) :=
  let (result, f) := Fleet.ensureDefault p (drainFleet f)
  (result.map fun _ => (), drainFleet f)

end Orchestration.Host
