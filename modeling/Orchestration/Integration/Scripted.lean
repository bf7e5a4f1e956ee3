import Orchestration.Collection.SortedMap
import Orchestration.Integration.Basic

/-! Integrations that follow a script, to rehearse a deployment without services.
Each verb counts its calls; a script may wait, fail at first, fail, answer, or go
on with another script. -/
namespace Orchestration.Scripted

inductive Script where
  | fail (wait : Duration) (first : Nat) (reason : String)
  | give (wait : Duration) (first : Nat) (output : Payload)
  | back (wait : Duration) (first : Nat)
  | next (wait : Duration) (first : Nat) (script : Script)

structure Call where
  action : String
  input : Payload

def Script.answer (action : Action) (number : Nat) (input : Payload) : Script → Answer
  | .fail wait first reason => ⟨wait, .error (.ofAction action (early first reason))⟩
  | .give wait first output => ⟨wait, later first output⟩
  | .back wait first => ⟨wait, later first input⟩
  | .next wait first script =>
    if number ≤ first then ⟨wait, .error (.ofAction action ("attempt " ++ toString number))⟩
    else
      let rest := script.answer action number input
      ⟨⟨wait.nanos + rest.wait.nanos⟩, rest.result⟩
where
  early (first : Nat) (reason : String) : String :=
    if number ≤ first then "attempt " ++ toString number else reason
  later (first : Nat) (output : Payload) : Except Error Payload :=
    if number ≤ first then .error (.ofAction action ("attempt " ++ toString number)) else .ok output

structure Log where
  calls : List Call
  counts : SortedMap Nat

def Log.empty : Log := ⟨[], .empty⟩

def Log.note (log : Log) (counter : String) (call : Call) : Nat × Log :=
  let number := (log.counts.get? counter).getD 0 + 1
  (number, ⟨log.calls ++ [call], log.counts.insert counter number⟩)

/-- `get` and `set` say where in the state the log is; `name` tells two integrations with
one id apart. -/
def integration {σ : Type} (get : σ → Log) (set : Log → σ → σ) (name id : String)
    (scripts : List (String × Script)) : Integration σ :=
  { id := id
    verbs := scripts.map Prod.fst
    perform := fun action input s =>
      match scripts.find? (·.1 = action.verb) with
      | none => (.now (.error (unsupported action)), s)
      | some (verb, script) =>
        let (number, log) := (get s).note (name ++ ":" ++ verb) ⟨action.text, input⟩
        (script.answer action number input, set log s) }

end Orchestration.Scripted
