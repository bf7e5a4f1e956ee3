import Orchestration.Integration.Basic

/-! Gives back the message it gets, and keeps it. -/
namespace Orchestration.Echo

/-- `keep` says where in the state a message is kept. -/
def perform {σ : Type} (keep : String → σ → σ) (action : Action) (input : Payload) (s : σ) :
    Answer × σ :=
  if action.verb = "echo" then
    match requiredText action input "message" with
    | .error e => (.now (.error e), s)
    | .ok message =>
      (.now (.ok (OrderedMap.empty.insert "message" (.str message))), keep message s)
  else (.now (.error (unsupported action)), s)

def integration {σ : Type} (keep : String → σ → σ) : Integration σ :=
  ⟨"echo", ["echo"], perform keep⟩

end Orchestration.Echo
