import Orchestration.Collection.SortedMap
import Orchestration.Json.Value
import Orchestration.Text.Blank

/-! Workflow definitions: jobs under a common set of triggers, each job a list of
steps on one queue. Jobs are kept in the order of their names. -/
namespace Orchestration

/-- One action inside a job. `id` names its outputs for later steps. -/
structure Step where
  name : String
  id : String
  actionId : String
  timeout : Option String
  params : Option Payload
  deriving DecidableEq, Repr, Inhabited

structure Job where
  queue : String
  timeout : Option String
  steps : List Step
  deriving DecidableEq, Repr, Inhabited

structure CronTrigger where
  schedule : String
  deriving DecidableEq, Repr, Inhabited

structure Triggers where
  events : List String
  cron : Option CronTrigger
  deriving DecidableEq, Repr, Inhabited

structure Definition where
  name : String
  triggers : Triggers
  jobs : SortedMap Job
  deriving DecidableEq, Repr, Inhabited

namespace Step

def label (s : Step) : String := if s.name.isEmpty then s.id else s.name ++ " (" ++ s.id ++ ")"

end Step

namespace Definition

def listensTo (d : Definition) (event : String) : Bool := d.triggers.events.contains event

def cronSchedule (d : Definition) : Option String :=
  (d.triggers.cron.map fun c => Text.trim c.schedule).filter fun s => !s.isEmpty

def jobNames (d : Definition) : List String := d.jobs.keys

end Definition

structure Summary where
  name : String
  events : List String
  schedule : Option String
  jobs : List String
  deriving DecidableEq, Repr

def Definition.summary (d : Definition) : Summary :=
  ⟨d.name, d.triggers.events, d.cronSchedule, d.jobNames⟩

end Orchestration
