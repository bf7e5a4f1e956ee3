import Orchestration.Engine.Local

/-! Runs as tasks. A task that can go on is polled: it goes one burst, and then it has
ended, or it sleeps until the attempt it waits for is over. -/
namespace Orchestration

inductive RunStage (σ : Type) where
  | fresh (input : Json)
  | paused (run : PausedRun σ)
  | cancelled

structure RunTask (σ : Type) where
  engine : Nat
  run : RunId
  job : CompiledJob σ
  stage : RunStage σ

structure SleepingTask (σ : Type) where
  due : Duration
  task : RunTask σ

inductive Polled (σ : Type) where
  | ended (report : Report)
  | asleep (wait : Duration) (task : RunTask σ)

namespace RunTask
variable {σ : Type}

def waits (t : RunTask σ) : Nat :=
  match t.stage with
  | .fresh _ => waitsOf t.job.steps
  | .paused run => run.waits
  | .cancelled => 0

def cancel (t : RunTask σ) : RunTask σ := { t with stage := .cancelled }

def polled (t : RunTask σ) : Burst σ → Polled σ
  | .finished outcome => .ended (.settled (outcome.map fun _ => ()))
  | .paused wait run => .asleep wait { t with stage := .paused run }

def poll (t : RunTask σ) (activities : SortedMap (ActionHandler σ)) (s : σ) : Polled σ × σ :=
  match t.stage with
  | .fresh input =>
    let (burst, s) := t.job.launch activities input s
    (t.polled burst, s)
  | .paused run =>
    let (burst, s) := t.job.resume activities run s
    (t.polled burst, s)
  | .cancelled => (.ended .dropped, s)

end RunTask
end Orchestration
