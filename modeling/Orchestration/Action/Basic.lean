import Orchestration.Error

/-! Action identifiers: an integration and one of its verbs, written with a colon
between them. Reading asks for exactly one colon and two non-empty parts; writing
is defined for any two texts. -/
namespace Orchestration

structure Action where
  integration : String
  verb : String
  deriving DecidableEq, Repr, Inhabited

namespace Action

def text (a : Action) : String := a.integration ++ ":" ++ a.verb

def cutColon (cs : List Char) : Option (List Char × List Char) :=
  match cs.dropWhile (· ≠ ':') with
  | [] => none
  | _ :: after => some (cs.takeWhile (· ≠ ':'), after)

def parse (id : String) : Except Error Action :=
  match cutColon id.toList with
  | some (integration, verb) =>
    if integration.isEmpty || verb.isEmpty || verb.contains ':' then .error (.malformedActionId id)
    else .ok ⟨String.ofList integration, String.ofList verb⟩
  | none => .error (.malformedActionId id)

end Action

def Error.ofAction (action : Action) (reason : String) : Error := .actionFailed action.text reason

end Orchestration
