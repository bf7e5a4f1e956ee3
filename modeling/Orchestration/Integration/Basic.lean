import Orchestration.Action.Basic
import Orchestration.Json.Value

/-! An integration is a named set of verbs. Performing an action may change the
state `σ` that integrations live in; its answer comes after some time. -/
namespace Orchestration

structure Answer where
  wait : Duration
  result : Except Error Payload

namespace Answer

def now (result : Except Error Payload) : Answer := ⟨.zero, result⟩

end Answer

structure Integration (σ : Type) where
  id : String
  verbs : List String
  perform : Action → Payload → σ → Answer × σ

def requiredText (action : Action) (input : Payload) (field : String) : Except Error String :=
  match input.get? field with
  | none => .error (.ofAction action ("missing required field: " ++ field))
  | some .null => .error (.ofAction action ("missing required field: " ++ field))
  | some (.str s) => .ok s
  | some _ => .error (.ofAction action ("invalid type for field: " ++ field))

def unsupported (action : Action) : Error :=
  .ofAction action ("unsupported action: " ++ action.verb)

end Orchestration
