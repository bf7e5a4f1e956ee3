import Orchestration.Engine.Platform
import Orchestration.Host.Task

/-! A host: the machine that engines live on. It answers dials, keeps the clock that
sleeping runs wait for and the moment that schedules look at, and knows how every run
ended. -/
namespace Orchestration

structure Connection where
  serial : Nat
  engine : Nat
  deriving DecidableEq, Repr

structure Dial where
  queue : String
  succeeded : Bool
  instant : Duration
  deriving DecidableEq, Repr

inductive Outage where
  | lasting
  | first (dials : Nat)
  deriving DecidableEq, Repr

structure Host (σ : Type) where
  engines : List (LocalEngine σ)
  /-- one engine serves every queue; otherwise every connection has its own -/
  shared : Bool
  outages : SortedMap Outage
  dials : List Dial
  connections : Nat
  clock : Duration
  /-- milliseconds since the start of 1970 -/
  moment : Nat
  started : Nat
  ready : List (RunTask σ)
  /-- in the order in which they will be woken -/
  sleeping : List (SleepingTask σ)
  reports : List (RunId × Report)
  services : σ

namespace Host
variable {σ : Type}

def start (shared : Bool) (outages : SortedMap Outage) (moment : Nat) (services : σ) : Host σ :=
  { engines := if shared then [.empty] else []
    shared := shared
    outages := outages
    dials := []
    connections := 0
    clock := .zero
    moment := moment
    started := 0
    ready := []
    sleeping := []
    reports := []
    services := services }

def engine (h : Host σ) (number : Nat) : LocalEngine σ := (h.engines[number]?).getD .empty

def changeEngine (h : Host σ) (number : Nat) (change : LocalEngine σ → LocalEngine σ) : Host σ :=
  { h with engines := h.engines.modify number change }

def tryEngine (h : Host σ) (number : Nat) : Except Error (LocalEngine σ) → Except Error Unit × Host σ
  | .ok e => (.ok (), h.changeEngine number fun _ => e)
  | .error e => (.error e, h)

def activeRuns (h : Host σ) : Nat := h.engines.foldr (fun e runs => e.runs.length + runs) 0

def second (h : Host σ) : Nat := h.moment / 1000

/-! Dials -/

def noteDial (h : Host σ) (queue : String) (succeeded : Bool) : Host σ :=
  { h with dials := h.dials ++ [⟨queue, succeeded, h.clock⟩] }

def accept (h : Host σ) : Connection × Host σ :=
  if h.shared then (⟨h.connections, 0⟩, { h with connections := h.connections + 1 })
  else
    (⟨h.connections, h.engines.length⟩,
      { h with connections := h.connections + 1, engines := h.engines ++ [.empty] })

def connect (h : Host σ) (settings : ConnectionSettings) : Except Error Connection × Host σ :=
  let queue := settings.queue
  match h.outages.get? queue with
  | some .lasting => (.error (.noRoute settings.hostPort), h.noteDial queue false)
  | some (.first (more + 1)) =>
    (.error (.noRoute settings.hostPort),
      { h.noteDial queue false with outages := h.outages.insert queue (.first more) })
  | _ =>
    let (connection, h) := (h.noteDial queue true).accept
    (.ok connection, h)

/-! Runs -/

def settle (h : Host σ) (t : RunTask σ) : Polled σ → Host σ
  | .ended report =>
    { h.changeEngine t.engine (·.untrack t.run) with reports := h.reports ++ [(t.run, report)] }
  | .asleep wait t =>
    let due : Duration := ⟨h.clock.nanos + wait.nanos⟩
    { h with
      sleeping := h.sleeping.takeWhile (·.due.nanos ≤ due.nanos) ++
        ⟨due, t⟩ :: h.sleeping.dropWhile (·.due.nanos ≤ due.nanos) }

def poll (h : Host σ) (t : RunTask σ) : Host σ :=
  let (polled, services) := t.poll (h.engine t.engine).activities h.services
  { h with services := services }.settle t polled

def startRun (runText : RunId → String) (h : Host σ) (engine : Nat) (procedure queue : String)
    (input : Json) : Except Error RunHandle × Host σ :=
  match (h.engine engine).procedure procedure with
  | .error e => (.error e, h)
  | .ok job =>
    let run : RunId := ⟨h.started⟩
    (.ok ⟨procedure ++ "-" ++ runText run, run, queue⟩,
      { h.changeEngine engine (·.track run) with
        started := h.started + 1
        ready := h.ready ++ [⟨engine, run, job, .fresh input⟩] })

def cancel (h : Host σ) (run : RunId) : Bool × Host σ :=
  if h.engines.any (·.runs.contains run) then
    let asleep := h.sleeping.filter (·.task.run = run)
    (true, { h with
      engines := h.engines.map (·.untrack run)
      ready := h.ready.map (fun t => if t.run = run then t.cancel else t) ++
        asleep.map (·.task.cancel)
      sleeping := h.sleeping.filter (·.task.run ≠ run) })
  else (false, h)

def report? (h : Host σ) (run : RunId) : Option Report := (h.reports.find? (·.1 = run)).map (·.2)

end Host
end Orchestration
