import Orchestration.Error
import Orchestration.Workflow.Definition

/-! Reading a definition from a document of any notation. A `Reader` says how the
notation gives texts, items and members; the shapes below say which members a
definition has. A misfit is reported with the place where it was met. -/
namespace Orchestration

inductive Misfit where
  | missingField (name : String)
  | duplicateField (name : String)
  | invalidType (found expected : String)
  | invalidValue (found expected : String)
  | invalidLength (length : Nat) (expected : String)
  | numberOutOfRange
  | tooDeep
  deriving DecidableEq, Repr

def Misfit.message : Misfit → String
  | missingField name => "missing field `" ++ name ++ "`"
  | duplicateField name => "duplicate field `" ++ name ++ "`"
  | invalidType found expected => "invalid type: " ++ found ++ ", expected " ++ expected
  | invalidValue found expected => "invalid value: " ++ found ++ ", expected " ++ expected
  | invalidLength length expected =>
    "invalid length " ++ toString length ++ ", expected " ++ expected
  | numberOutOfRange => "JSON number out of range"
  | tooDeep => "recursion limit exceeded"

inductive Place where
  | key (name : String)
  | item (index : Nat)
  | unnamed
  deriving DecidableEq, Repr

structure Fault where
  path : List Place
  misfit : Misfit
  deriving DecidableEq, Repr

abbrev Read (α : Type) := Except Fault α

def atRoot {α : Type} (x : Except Misfit α) : Read α := x.mapError fun m => ⟨[], m⟩

def within {α : Type} (place : Place) (x : Read α) : Read α :=
  x.mapError fun f => ⟨place :: f.path, f.misfit⟩

def Place.after (written : String) : Place → String
  | key name => if written.isEmpty then name else written ++ "." ++ name
  | item index => (if written.isEmpty then "." else written) ++ "[" ++ toString index ++ "]"
  | unnamed => if written.isEmpty then "?" else written ++ ".?"

def pathText (path : List Place) : String := path.foldl Place.after ""

def Fault.message (f : Fault) : String :=
  if f.path.isEmpty || f.misfit = .tooDeep then f.misfit.message
  else pathText f.path ++ ": " ++ f.misfit.message

structure Members (ν : Type) where
  entries : List (ν × ν)
  missing : String → Misfit
  /-- what is wrong with the record besides its members -/
  surplus : Option Misfit

structure Shape where
  name : String
  fields : List String
  deriving DecidableEq, Repr

structure Reader (ν : Type) where
  text : String → ν → Except Misfit String
  present : ν → Except Misfit (Option ν)
  items : ν → Except Misfit (List ν)
  record : Shape → ν → Except Misfit (Members ν)
  entries : ν → Except Misfit (List (ν × ν))
  place : ν → Place
  json : ν → Read Json

namespace Reader
variable {ν : Type}

def string (r : Reader ν) (v : ν) : Read String := atRoot (r.text "a string" v)

def optional {α : Type} (r : Reader ν) (place : Place) (read : ν → Read α) (v : ν) :
    Read (Option α) :=
  match r.present v with
  | .error m => .error ⟨[], m⟩
  | .ok none => .ok none
  | .ok (some v) => (within place (read v)).map some

def each {α : Type} (read : ν → Read α) : Nat → List ν → Read (List α)
  | _, [] => .ok []
  | i, v :: rest =>
    match within (.item i) (read v) with
    | .error f => .error f
    | .ok a => (each read (i + 1) rest).map (a :: ·)

def list {α : Type} (r : Reader ν) (read : ν → Read α) (v : ν) : Read (List α) :=
  match r.items v with
  | .error m => .error ⟨[], m⟩
  | .ok vs => each read 0 vs

def eachEntry {δ : Type} (r : Reader ν) (expected : String)
    (take : δ → String → Place → ν → Read δ) : δ → List (ν × ν) → Read δ
  | d, [] => .ok d
  | d, (k, v) :: rest =>
    match r.text expected k with
    | .error m => .error ⟨[], m⟩
    | .ok key =>
      match take d key (r.place k) v with
      | .error f => .error f
      | .ok d => eachEntry r expected take d rest

def struct {δ α : Type} (r : Reader ν) (shape : Shape) (start : δ)
    (take : δ → String → Place → ν → Read δ) (finish : (String → Misfit) → δ → Except Misfit α)
    (v : ν) : Read α :=
  match r.record shape v with
  | .error m => .error ⟨[], m⟩
  | .ok members =>
    match eachEntry r "field identifier" take start members.entries with
    | .error f => .error f
    | .ok d =>
      match finish members.missing d with
      | .error m => .error ⟨[], m⟩
      | .ok a => match members.surplus with
        | some m => .error ⟨[], m⟩
        | none => .ok a

end Reader

def once {α : Type} (name : String) (seen : Option α) (value : Read α) : Read (Option α) :=
  if seen.isSome then .error ⟨[], .duplicateField name⟩ else value.map some

def required {α : Type} (missing : String → Misfit) (name : String) : Option α → Except Misfit α
  | some a => .ok a
  | none => .error (missing name)

section
variable {ν : Type} (r : Reader ν)

structure StepDraft where
  name : Option String
  id : Option String
  actionId : Option String
  timeout : Option (Option String)
  params : Option (Option Payload)

def StepDraft.empty : StepDraft := ⟨none, none, none, none, none⟩

def payloadTake (d : Payload) (key : String) (place : Place) (v : ν) : Read Payload :=
  (within place (r.json v)).map fun value => d.insert key value

def payloadRead (v : ν) : Read Payload :=
  match r.entries v with
  | .error m => .error ⟨[], m⟩
  | .ok entries => r.eachEntry "a string" (payloadTake r) .empty entries

def StepDraft.take (d : StepDraft) (key : String) (place : Place) (v : ν) : Read StepDraft :=
  if key = "name" then
    (once key d.name (within place (r.string v))).map fun x => { d with name := x }
  else if key = "id" then
    (once key d.id (within place (r.string v))).map fun x => { d with id := x }
  else if key = "actionId" then
    (once key d.actionId (within place (r.string v))).map fun x => { d with actionId := x }
  else if key = "timeout" then
    (once key d.timeout (r.optional place r.string v)).map fun x => { d with timeout := x }
  else if key = "with" then
    (once key d.params (r.optional place (payloadRead r) v)).map fun x => { d with params := x }
  else .ok d

def StepDraft.finish (missing : String → Misfit) (d : StepDraft) : Except Misfit Step :=
  match required missing "id" d.id with
  | .error m => .error m
  | .ok id =>
    (required missing "actionId" d.actionId).map fun actionId =>
      ⟨d.name.getD "", id, actionId, d.timeout.getD none, d.params.getD none⟩

def stepShape : Shape := ⟨"Step", ["name", "id", "actionId", "timeout", "with"]⟩

def Step.read (v : ν) : Read Step := r.struct stepShape .empty (StepDraft.take r) StepDraft.finish v

structure JobDraft where
  queue : Option String
  timeout : Option (Option String)
  steps : Option (List Step)

def JobDraft.take (d : JobDraft) (key : String) (place : Place) (v : ν) : Read JobDraft :=
  if key = "queue" then
    (once key d.queue (within place (r.string v))).map fun x => { d with queue := x }
  else if key = "timeout" then
    (once key d.timeout (r.optional place r.string v)).map fun x => { d with timeout := x }
  else if key = "steps" then
    (once key d.steps (within place (r.list (Step.read r) v))).map fun x => { d with steps := x }
  else .ok d

def JobDraft.finish (_missing : String → Misfit) (d : JobDraft) : Except Misfit Job :=
  .ok ⟨d.queue.getD "", d.timeout.getD none, d.steps.getD []⟩

def jobShape : Shape := ⟨"Job", ["queue", "timeout", "steps"]⟩

def Job.read (v : ν) : Read Job :=
  r.struct jobShape ⟨none, none, none⟩ (JobDraft.take r) JobDraft.finish v

def CronTrigger.take (d : Option String) (key : String) (place : Place) (v : ν) :
    Read (Option String) :=
  if key = "schedule" then once key d (within place (r.string v)) else .ok d

def cronShape : Shape := ⟨"CronTrigger", ["schedule"]⟩

def CronTrigger.read (v : ν) : Read CronTrigger :=
  r.struct cronShape none (CronTrigger.take r) (fun _ d => .ok ⟨d.getD ""⟩) v

structure TriggersDraft where
  events : Option (List String)
  cron : Option (Option CronTrigger)

def TriggersDraft.take (d : TriggersDraft) (key : String) (place : Place) (v : ν) :
    Read TriggersDraft :=
  if key = "events" then
    (once key d.events (within place (r.list r.string v))).map fun x => { d with events := x }
  else if key = "cron" then
    (once key d.cron (r.optional place (CronTrigger.read r) v)).map fun x => { d with cron := x }
  else .ok d

def TriggersDraft.finish (_missing : String → Misfit) (d : TriggersDraft) : Except Misfit Triggers :=
  .ok ⟨d.events.getD [], d.cron.getD none⟩

def triggersShape : Shape := ⟨"Triggers", ["events", "cron"]⟩

def Triggers.read (v : ν) : Read Triggers :=
  r.struct triggersShape ⟨none, none⟩ (TriggersDraft.take r) TriggersDraft.finish v

def jobsTake (d : SortedMap Job) (key : String) (place : Place) (v : ν) : Read (SortedMap Job) :=
  (within place (Job.read r v)).map fun job => d.insert key job

def jobsRead (v : ν) : Read (SortedMap Job) :=
  match r.entries v with
  | .error m => .error ⟨[], m⟩
  | .ok entries => r.eachEntry "a string" (jobsTake r) .empty entries

structure DefinitionDraft where
  name : Option String
  triggers : Option Triggers
  jobs : Option (SortedMap Job)

def DefinitionDraft.take (d : DefinitionDraft) (key : String) (place : Place) (v : ν) :
    Read DefinitionDraft :=
  if key = "name" then
    (once key d.name (within place (r.string v))).map fun x => { d with name := x }
  else if key = "on" then
    (once key d.triggers (within place (Triggers.read r v))).map fun x => { d with triggers := x }
  else if key = "jobs" then
    (once key d.jobs (within place (jobsRead r v))).map fun x => { d with jobs := x }
  else .ok d

def DefinitionDraft.finish (missing : String → Misfit) (d : DefinitionDraft) :
    Except Misfit Definition :=
  (required missing "name" d.name).map fun name =>
    ⟨name, d.triggers.getD ⟨[], none⟩, d.jobs.getD .empty⟩

def definitionShape : Shape := ⟨"WorkflowDefinition", ["name", "on", "jobs"]⟩

def Definition.read (v : ν) : Read Definition :=
  r.struct definitionShape ⟨none, none, none⟩ (DefinitionDraft.take r) DefinitionDraft.finish v

end

end Orchestration
