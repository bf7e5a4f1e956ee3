import Orchestration.Engine.Activity
import Orchestration.Run.Context

/-! Jobs in runnable form. Compiling checks every step's action; running walks the
steps in order, gives each step's input to its activity and records the outputs. -/
namespace Orchestration

structure CompiledStep where
  step : Step
  action : Action
  options : ActivityOptions
  deriving DecidableEq, Repr

structure CompiledJob (σ : Type) where
  name : String
  queue : String
  steps : List CompiledStep
  actions : ActionRegistry σ

namespace CompiledJob
variable {σ : Type}

def compileStep (name : String) (job : Job) (actions : ActionRegistry σ) (step : Step) :
    Except Error CompiledStep :=
  match Action.parse step.actionId with
  | .error e => .error e
  | .ok action =>
    match actions.lookup action with
    | none => .error (.unregisteredActivity name step.label action.text)
    | some _ => .ok ⟨step, action, .standard (step.timeout.or job.timeout)⟩

def compileSteps (name : String) (job : Job) (actions : ActionRegistry σ) :
    List Step → Except Error (List CompiledStep)
  | [] => .ok []
  | step :: rest =>
    match compileStep name job actions step with
    | .error e => .error e
    | .ok compiled => (compileSteps name job actions rest).map (compiled :: ·)

def compile (name : String) (job : Job) (actions : ActionRegistry σ) :
    Except Error (CompiledJob σ) :=
  (compileSteps name job actions job.steps).map fun steps => ⟨name, job.queue, steps, actions⟩

def withActivityOptions (j : CompiledJob σ) (maxAttempts : Nat) (timeout : Duration) :
    CompiledJob σ :=
  { j with
    steps := j.steps.map fun s =>
      { s with options := { s.options with maxAttempts := max 1 maxAttempts, timeout := timeout } } }

def addNew (names : List String) (name : String) : List String :=
  if names.contains name then names else names ++ [name]

def activityNames (j : CompiledJob σ) : List String :=
  j.steps.foldl (fun names s => addNew names s.action.text) []

def prepare (j : CompiledJob σ) (s : CompiledStep) (c : RunContext) : Except Error ActivityCall :=
  match s.step.input c with
  | .error e => .error e
  | .ok input =>
    match j.actions.lookup s.action with
    | none => .error (.actionNotRegistered s.action.text)
    | some handler => .ok ⟨handler.action.text, input, s.options⟩

def stepFailed (j : CompiledJob σ) (s : CompiledStep) (c : RunContext) (source : Error) : Error :=
  .stepExecutionFailed j.name s.step.id c.completed source

section
variable {τ : Type} (j : CompiledJob σ) (call : ActivityCall → τ → Except Error Payload × τ)

def runSteps : List CompiledStep → RunContext → τ → Except Error RunContext × τ
  | [], c, t => (.ok c, t)
  | s :: rest, c, t =>
    match j.prepare s c with
    | .error e => (.error (j.stepFailed s c e), t)
    | .ok activity =>
      match call activity t with
      | (.error e, t) => (.error (j.stepFailed s c e), t)
      | (.ok outputs, t) => runSteps rest (c.record s.step.id outputs) t

def execute (input : Json) (t : τ) : Except Error RunContext × τ :=
  match Template.payloadOf input with
  | .error e => (.error e, t)
  | .ok payload => runSteps j call j.steps (.start payload) t

end

end CompiledJob
end Orchestration
