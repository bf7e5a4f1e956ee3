import Orchestration.Run.Job

/-! A run on an engine goes in bursts: from where it stands to its end, or to the next
attempt that takes time. Activities are looked up when they are called. -/
namespace Orchestration

structure PausedRun (σ : Type) where
  step : CompiledStep
  rest : List CompiledStep
  context : RunContext
  call : ActivityCall
  handler : ActionHandler σ
  result : Except Error Payload
  left : Nat

inductive Burst (σ : Type) where
  | finished (outcome : Except Error RunContext)
  | paused (wait : Duration) (run : PausedRun σ)

namespace CompiledJob
variable {σ : Type} (j : CompiledJob σ) (activities : SortedMap (ActionHandler σ))

def walk : List CompiledStep → RunContext → σ → Burst σ × σ
  | [], c, s => (.finished (.ok c), s)
  | step :: rest, c, s =>
    match j.prepare step c with
    | .error e => (.finished (.error (j.stepFailed step c e)), s)
    | .ok call =>
      match activities.get? call.activity with
      | none =>
        (.finished (.error (j.stepFailed step c (.actionNotRegistered call.activity))), s)
      | some handler =>
        match call.begin handler s with
        | (.settled (.ok outputs), s) => walk rest (c.record step.step.id outputs) s
        | (.settled (.error e), s) => (.finished (.error (j.stepFailed step c e)), s)
        | (.waiting wait result left, s) =>
          (.paused wait ⟨step, rest, c, call, handler, result, left⟩, s)

def launch (input : Json) (s : σ) : Burst σ × σ :=
  match Template.payloadOf input with
  | .error e => (.finished (.error e), s)
  | .ok payload => j.walk activities j.steps (.start payload) s

def resume (run : PausedRun σ) (s : σ) : Burst σ × σ :=
  match run.call.afterWait run.handler run.result run.left s with
  | (.settled (.ok outputs), s) =>
    j.walk activities run.rest (run.context.record run.step.step.id outputs) s
  | (.settled (.error e), s) => (.finished (.error (j.stepFailed run.step run.context e)), s)
  | (.waiting wait result left, s) =>
    (.paused wait { run with result := result, left := left }, s)

end CompiledJob

def waitsOf (steps : List CompiledStep) : Nat :=
  steps.foldr (fun s waits => max 1 s.options.maxAttempts + waits) 0

def PausedRun.waits {σ : Type} (run : PausedRun σ) : Nat := run.left + 1 + waitsOf run.rest

end Orchestration
