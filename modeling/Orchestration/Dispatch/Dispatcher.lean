import Orchestration.Client.Registry
import Orchestration.Schedule.Spec

/-! Events start runs, and schedules are put in place: one for each job, tried in the
order of the definitions and of the job names, every one whatever became of the
others. -/
namespace Orchestration

structure Outcome (α : Type) where
  results : List α
  succeeded : List String
  failures : List (JobFailure Error)

namespace Outcome
variable {α : Type}

def empty : Outcome α := ⟨[], [], []⟩

def add (o : Outcome α) (workflow job : String) : Except Error α → Outcome α
  | .ok result => ⟨o.results ++ [result], o.succeeded ++ [job], o.failures⟩
  | .error e => ⟨o.results, o.succeeded, o.failures ++ [⟨workflow, job, e⟩]⟩

def conclude (o : Outcome α) : Except Error (List α) :=
  if o.failures.isEmpty then .ok o.results else .error (.dispatch o.succeeded o.failures)

def forJobs {φ : Type} (attempt : String → Job → φ → Except Error α × φ) (workflow : String) :
    List (String × Job) → Outcome α × φ → Outcome α × φ
  | [], s => s
  | (name, job) :: rest, (o, f) =>
    let (result, f) := attempt name job f
    forJobs attempt workflow rest (o.add workflow name result, f)

end Outcome

namespace Dispatcher
variable {σ η κ : Type} (p : Platform σ η κ)

def startJob (input : Json) (name : String) (job : Job) (f : Fleet η κ) :
    Except Error RunHandle × Fleet η κ :=
  let queue := f.clients.queueName job.queue
  match f.getOrCreate p queue with
  | (.error e, f) => (.error e, f)
  | (.ok client, f) =>
    let (result, k) := p.startRun client name queue input f.state
    (result, ⟨f.clients, k⟩)

def trigger (definitions : List Definition) (event : String) (input : Json) (f : Fleet η κ) :
    Except Error (List RunHandle) × Fleet η κ :=
  let (o, f) := (definitions.filter (·.listensTo event)).foldl
    (fun s d => Outcome.forJobs (startJob p input) d.name d.jobs.entries s) (.empty, f)
  (o.conclude, f)

/-- How an existing schedule is brought in line: the action always, the expression unless it is
to be kept. -/
def revise (spec : ScheduleSpec) (action : ScheduleAction) (d : ScheduleDescription) :
    ScheduleDescription :=
  { d with
    expressions := if spec.preserve then d.expressions else [spec.expression]
    action := action }

def upsert (spec : ScheduleSpec) (name : String) (job : Job) (f : Fleet η κ) :
    Except Error Unit × Fleet η κ :=
  let queue := f.clients.queueName job.queue
  match f.getOrCreate p queue with
  | (.error e, f) => (.error e, f)
  | (.ok client, f) =>
    let action : ScheduleAction := ⟨name, queue, .null⟩
    match p.schedule? client name f.state with
    | .error e => (.error e, f)
    | .ok none =>
      let (result, k) := p.createSchedule client name spec.expression action f.state
      (result, ⟨f.clients, k⟩)
    | .ok (some _) =>
      let (result, k) := p.updateSchedule client name (revise spec action) f.state
      (result, ⟨f.clients, k⟩)

def scheduleDefinition (d : Definition) (s : (Outcome Unit × Fleet η κ) × List Nat) :
    (Outcome Unit × Fleet η κ) × List Nat :=
  match d.cronSchedule with
  | none => s
  | some schedule =>
    let (spec, words) := ScheduleSpec.resolve schedule s.2
    (Outcome.forJobs (upsert p spec) d.name d.jobs.entries s.1, words)

def initSchedules (definitions : List Definition) (words : List Nat) (f : Fleet η κ) :
    Except Error (List String) × Fleet η κ × List Nat :=
  let ((o, f), words) := definitions.foldl (fun s d => scheduleDefinition p d s) ((.empty, f), words)
  (o.conclude.map fun _ => o.succeeded, f, words)

end Dispatcher
end Orchestration
