import Orchestration.Integration.Echo
import Orchestration.Integration.Scripted
import Orchestration.Integration.Slack

/-! The state that the integrations of one deployment share: the messages echoed
so far and the log of scripted calls. -/
namespace Orchestration

structure Services where
  messages : List String
  log : Scripted.Log

namespace Services

def empty : Services := ⟨[], .empty⟩

def keepMessage (message : String) (s : Services) : Services :=
  { s with messages := s.messages ++ [message] }

def takeCalls (s : Services) : List Scripted.Call × Services :=
  (s.log.calls, { s with log := ⟨[], s.log.counts⟩ })

def unreachable : Slack.Exchange Services := fun request s =>
  (.error ⟨request.url, .networkUnreachable⟩, s)

def echo : Integration Services := Echo.integration keepMessage

def slack (settings : Slack.Settings) : Integration Services :=
  Slack.integration unreachable settings

def scripted (name id : String) (scripts : List (String × Scripted.Script)) : Integration Services :=
  Scripted.integration (·.log) (fun log s => { s with log := log }) name id scripts

end Services
end Orchestration
