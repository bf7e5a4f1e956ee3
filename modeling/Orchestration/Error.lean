import Orchestration.Duration

/-! What can go wrong, kept as causes. The wording is in `Error.message` alone.
One trigger or one scheduling pass collects the failures of its jobs, so an error
can hold a list of others. -/
namespace Orchestration

inductive DocumentFault where
  | malformed
  | unfit (message : String)
  deriving DecidableEq, Repr

def DocumentFault.message : DocumentFault → String
  | malformed => "not one well-formed document"
  | unfit message => message

inductive SystemFault where
  | notFound
  | exists
  | notDirectory
  | isDirectory
  | tooManyLinks
  | networkUnreachable
  deriving DecidableEq, Repr

def SystemFault.message : SystemFault → String
  | notFound => "No such file or directory (os error 2)"
  | .exists => "File exists (os error 17)"
  | notDirectory => "Not a directory (os error 20)"
  | isDirectory => "Is a directory (os error 21)"
  | tooManyLinks => "Too many levels of symbolic links (os error 40)"
  | networkUnreachable => "Network is unreachable (os error 101)"

structure JobFailure (ε : Type) where
  workflow : String
  job : String
  error : ε
  deriving Repr

inductive Error where
  | config (reason : String)
  | connectionFailed (queue : String) (attempts : Nat) (reason : String)
  | malformedActionId (id : String)
  | actionNotRegistered (action : String)
  | unregisteredActivity (job step action : String)
  | noJobsRegistered (failures : List Error)
  | stepExecutionFailed (job step : String) (completed : List String) (source : Error)
  | actionFailed (action reason : String)
  | templateResolution (expression : String)
  | invalidInput (kind : String)
  | activityTimeout (activity : String) (timeout : Duration)
  | scheduleNotFound (id : String)
  | engine (reason : String)
  | dispatch (succeeded : List String) (failures : List (JobFailure Error))
  | workflowParse (path : String) (fault : DocumentFault)
  | io (fault : SystemFault)
  | json (reason : String)
  deriving Repr, Inhabited

namespace Error

def succeededText (succeeded : List String) : String :=
  if succeeded.isEmpty then ""
  else " (" ++ toString succeeded.length ++ " succeeded: " ++ ", ".intercalate succeeded ++ ")"

mutual
def message : Error → String
  | config reason => "configuration error: " ++ reason
  | connectionFailed queue attempts reason =>
    "could not connect to engine for queue '" ++ queue ++ "' after " ++ toString attempts ++
      " attempt(s): " ++ reason
  | malformedActionId id =>
    "malformed action id '" ++ id ++ "': expected '<integrationId>:<verb>'"
  | actionNotRegistered action => "action '" ++ action ++ "' is not registered"
  | unregisteredActivity job step action =>
    "job '" ++ job ++ "' step '" ++ step ++ "' uses action '" ++ action ++ "' which is not registered"
  | noJobsRegistered failures =>
    "no jobs could be registered (" ++ toString failures.length ++ " rejected)"
  | stepExecutionFailed job step _ source =>
    "step '" ++ step ++ "' of job '" ++ job ++ "' failed: " ++ source.message
  | actionFailed action reason => "action '" ++ action ++ "' failed: " ++ reason
  | templateResolution expression =>
    "template reference '" ++ expression ++ "' could not be resolved"
  | invalidInput kind => "run input must be a JSON object, got " ++ kind
  | activityTimeout activity timeout =>
    "activity '" ++ activity ++ "' timed out after " ++ timeout.text
  | scheduleNotFound id => "schedule '" ++ id ++ "' not found"
  | engine reason => "engine error: " ++ reason
  | dispatch succeeded failures =>
    toString failures.length ++ " job(s) failed to dispatch" ++ succeededText succeeded ++
      failuresText failures
  | workflowParse path fault => "failed to parse workflow file " ++ path ++ ": " ++ fault.message
  | io fault => fault.message
  | json reason => reason

def failuresText : List (JobFailure Error) → String
  | [] => ""
  | ⟨workflow, job, error⟩ :: rest =>
    "; job '" ++ job ++ "' (workflow '" ++ workflow ++ "'): " ++ error.message ++ failuresText rest
end

def procedureNotRegistered (procedure : String) : Error :=
  .engine ("procedure '" ++ procedure ++ "' is not registered")

def runCancelled (run : String) : Error := .engine ("run " ++ run ++ " was cancelled")

def runUnreported (run : String) : Error :=
  .engine ("run " ++ run ++ " does not report its outcome")

def scheduleExists (id : String) : Error := .engine ("schedule '" ++ id ++ "' already exists")

def cronWordCount (cron : String) : Error := .engine ("invalid cron expression '" ++ cron ++ "'")

def cronUnreadable (cron : String) : Error :=
  .engine ("invalid cron expression '" ++ cron ++ "': ParseSchedule")

def noRoute (hostPort : String) : Error := .engine ("no route to " ++ hostPort)

def activityNeverRan (activity : String) : Error :=
  .engine ("activity '" ++ activity ++ "' never ran")

def blankDefaultQueue : Error := .config "default queue name must not be empty"

def workflowFileMissing (path : String) : Error :=
  .config ("workflow file does not exist: " ++ path)

def walkFailed (path place : String) (fault : SystemFault) : Error :=
  .config ("error walking the path " ++ path ++ ": IO error for operation on " ++ place ++ ": " ++
    fault.message)

end Error
end Orchestration
