import Orchestration.Dispatch.Dispatcher
import Orchestration.Host.Platform
import Orchestration.Integration.Services
import Orchestration.Service.Config
import Orchestration.Worker.Registration
import Orchestration.Workflow.Registry

/-! A whole service on one host: workflows from a directory, one engine for every
queue, a worker for all jobs, and schedules in place. -/
namespace Orchestration

inductive StartupFault where
  | directory (fault : SystemFault)
  | workflows (error : Error)
  | clients (error : Error)
  | worker (error : Error)

def StartupFault.message : StartupFault → String
  | directory fault => "Failed to create workflow directory: " ++ fault.message
  | workflows error => "Failed to load workflows: " ++ error.message
  | clients error => "Failed to initialize engine clients: " ++ error.message
  | worker error => "Failed to start worker: " ++ error.message

structure App where
  workflows : WorkflowRegistry
  worker : Worker Services
  fleet : Fleet Connection (Host Services)
  files : FileTree

namespace App

def integrations (config : Config) : List (Integration Services) :=
  Services.echo ::
    (config.slack.map fun s => Services.slack (.standard s.token s.teamId)).toList

def load (directory : String) (files : FileTree) :
    Except StartupFault (WorkflowRegistry × FileTree) := do
  let files ← (files.makeDirectories directory).mapError .directory
  let workflows ← (WorkflowRegistry.ofDirectory files directory).mapError .workflows
  pure (workflows, files)

section
variable (p : Platform Services Connection (Host Services))

def connect (config : Config) (machine : Machine) (files : FileTree) (host : Host Services) :
    Except StartupFault (Fleet Connection (Host Services)) :=
  ((ClientRegistry.ofOptions config.client machine files.contentAt).mapError .clients).map
    fun clients => (Fleet.ensureDefault p ⟨clients, host⟩).2

def start (config : Config) (machine : Machine) (words : List Nat) (moment : Nat)
    (files : FileTree) : Except StartupFault App := do
  let (workflows, files) ← load config.workflowsDir files
  let fleet ← connect p config machine files (.start true .empty moment .empty)
  let plan : WorkerPlan Services :=
    ⟨some fleet.clients.defaultQueue, integrations config, workflows.definitions, none⟩
  let (built, fleet) := plan.build p fleet
  let worker ← built.mapError .worker
  let (_, fleet, _) := Dispatcher.initSchedules p workflows.definitions words fleet
  pure ⟨workflows, worker, fleet, files⟩

end

end App
end Orchestration
