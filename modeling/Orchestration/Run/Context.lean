import Orchestration.Template.Render
import Orchestration.Workflow.Definition

/-! What a run has gathered so far: its input, and for each completed step the
outputs under `steps`. -/
namespace Orchestration

structure RunContext where
  input : Payload
  steps : Payload
  completed : List String
  deriving DecidableEq, Repr, Inhabited

namespace RunContext

def start (input : Payload) : RunContext := ⟨input, .empty, []⟩

def shared (c : RunContext) : Payload :=
  .mergeAll [c.input, OrderedMap.empty.insert "steps" c.steps.toJson]

def record (c : RunContext) (step : String) (outputs : Payload) : RunContext :=
  { c with
    steps := c.steps.insert step (.obj [("outputs", outputs.toJson)])
    completed := if c.completed.contains step then c.completed else c.completed ++ [step] }

def outputs (c : RunContext) (step : String) : Option Json :=
  (c.steps.get? step).bind (·.field? "outputs")

end RunContext

def Step.input (s : Step) (c : RunContext) : Except Error Payload :=
  match s.params with
  | none => .ok .empty
  | some params =>
    (Template.renderPayload c.shared params).map fun rendered => .mergeAll [c.shared, rendered]

end Orchestration
