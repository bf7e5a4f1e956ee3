import Orchestration.Collection.SortedMap
import Orchestration.Integration.Basic

/-! Handlers by action text. Later integrations replace earlier ones verb by verb. -/
namespace Orchestration

structure ActionHandler (σ : Type) where
  action : Action
  integration : Integration σ

def ActionHandler.call {σ : Type} (h : ActionHandler σ) (input : Payload) (s : σ) : Answer × σ :=
  h.integration.perform h.action input s

structure ActionRegistry (σ : Type) where
  handlers : SortedMap (ActionHandler σ)

namespace ActionRegistry
variable {σ : Type}

def empty : ActionRegistry σ := ⟨.empty⟩

def registerVerb (integration : Integration σ) (r : ActionRegistry σ) (verb : String) :
    ActionRegistry σ :=
  let action : Action := ⟨integration.id, verb⟩
  ⟨r.handlers.insert action.text ⟨action, integration⟩⟩

def register (r : ActionRegistry σ) (integration : Integration σ) : ActionRegistry σ :=
  integration.verbs.foldl (registerVerb integration) r

def ofIntegrations (integrations : List (Integration σ)) : ActionRegistry σ :=
  integrations.foldl register empty

def lookup (r : ActionRegistry σ) (action : Action) : Option (ActionHandler σ) :=
  r.handlers.get? action.text

def resolve (r : ActionRegistry σ) (id : String) : Except Error (ActionHandler σ) :=
  match Action.parse id with
  | .error e => .error e
  | .ok action =>
    match r.lookup action with
    | some handler => .ok handler
    | none => .error (.actionNotRegistered action.text)

def keys (r : ActionRegistry σ) : List String := r.handlers.keys

end ActionRegistry
end Orchestration
