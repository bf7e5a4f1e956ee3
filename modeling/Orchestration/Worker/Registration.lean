import Orchestration.Client.Registry

/-! A worker compiles every job of every definition and registers it, with the actions
it uses, on the engine of its queue. Jobs that cannot be registered are set aside. -/
namespace Orchestration

structure RegisteredJob where
  workflow : String
  job : String
  queue : String
  deriving DecidableEq, Repr

structure WorkerPlan (σ : Type) where
  queue : Option String
  integrations : List (Integration σ)
  definitions : List Definition
  retries : Option (Nat × Duration)

structure Worker (σ : Type) where
  queue : String
  actions : ActionRegistry σ
  registered : List RegisteredJob
  rejected : List (JobFailure Error)

structure Registration (η κ : Type) where
  fleet : Fleet η κ
  served : SortedMap (List String)
  registered : List RegisteredJob
  rejected : List (JobFailure Error)

namespace Registration
variable {σ η κ : Type} (p : Platform σ η κ) (plan : WorkerPlan σ) (actions : ActionRegistry σ)

def registerActivities (client : η) (queue : String) :
    List String → Registration η κ → Except Error Unit × Registration η κ
  | [], r => (.ok (), r)
  | name :: rest, r =>
    let served := (r.served.get? queue).getD []
    if served.contains name then registerActivities client queue rest r
    else match actions.resolve name with
      | .error e => (.error e, r)
      | .ok handler =>
        registerActivities client queue rest
          { r with
            fleet := ⟨r.fleet.clients, p.registerActivity client name handler r.fleet.state⟩
            served := r.served.insert queue (served ++ [name]) }

def compile (name : String) (job : Job) : Except Error (CompiledJob σ) :=
  (CompiledJob.compile name job actions).map fun compiled =>
    match plan.retries with
    | some (attempts, timeout) => compiled.withActivityOptions attempts timeout
    | none => compiled

def registerJob (name : String) (job : Job) (queue : String) (r : Registration η κ) :
    Except Error Unit × Registration η κ :=
  match compile plan actions name job with
  | .error e => (.error e, r)
  | .ok compiled =>
    match r.fleet.getOrCreate p queue with
    | (.error e, fleet) => (.error e, { r with fleet := fleet })
    | (.ok client, fleet) =>
      match registerActivities p actions client queue compiled.activityNames
          { r with fleet := fleet } with
      | (.error e, r) => (.error e, r)
      | (.ok (), r) =>
        (.ok (), { r with
          fleet := ⟨r.fleet.clients, p.registerProcedure client name compiled r.fleet.state⟩ })

def take (queue workflow : String) (r : Registration η κ) (entry : String × Job) :
    Registration η κ :=
  let (name, job) := entry
  let queue := if Text.isBlankText job.queue then queue else job.queue
  match registerJob p plan actions name job queue r with
  | (.ok (), r) => { r with registered := r.registered ++ [⟨workflow, name, queue⟩] }
  | (.error e, r) => { r with rejected := r.rejected ++ [⟨workflow, name, e⟩] }

def takeAll (queue : String) (r : Registration η κ) : Registration η κ :=
  plan.definitions.foldl
    (fun r d => d.jobs.entries.foldl (take p plan actions queue d.name) r) r

end Registration

namespace WorkerPlan
variable {σ η κ : Type} (p : Platform σ η κ) (plan : WorkerPlan σ)

def queueOn (clients : ClientRegistry η) : String :=
  (Text.given plan.queue).getD clients.defaultQueue

def build (fleet : Fleet η κ) : Except Error (Worker σ) × Fleet η κ :=
  let queue := plan.queueOn fleet.clients
  let actions := ActionRegistry.ofIntegrations plan.integrations
  let r := Registration.takeAll p plan actions queue ⟨fleet, .empty, [], []⟩
  if r.registered.isEmpty && !r.rejected.isEmpty then
    (.error (.noJobsRegistered (r.rejected.map (·.error))), r.fleet)
  else (.ok ⟨queue, actions, r.registered, r.rejected⟩, r.fleet)

end WorkerPlan
end Orchestration
