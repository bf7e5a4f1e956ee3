import Orchestration.Workflow.Directory

/-! The loaded definitions, in the order in which they were loaded. Two may share a
name; a look-up gives the first. -/
namespace Orchestration

structure WorkflowRegistry where
  definitions : List Definition
  deriving DecidableEq, Repr, Inhabited

namespace WorkflowRegistry

def empty : WorkflowRegistry := ⟨[]⟩

def names (r : WorkflowRegistry) : List String := r.definitions.map (·.name)

def get? (r : WorkflowRegistry) (name : String) : Option Definition :=
  r.definitions.find? (·.name = name)

def listeningTo (r : WorkflowRegistry) (event : String) : List Definition :=
  r.definitions.filter (·.listensTo event)

def scheduled (r : WorkflowRegistry) : List Definition :=
  r.definitions.filter (·.cronSchedule.isSome)

def ofDirectory (tree : FileTree) (path : String) : Except Error WorkflowRegistry :=
  (Directory.readAll tree path).map (⟨·⟩)

def size (r : WorkflowRegistry) : Nat := r.definitions.length

def reload (r : WorkflowRegistry) (tree : FileTree) (path : String) :
    Except Error Nat × WorkflowRegistry :=
  match ofDirectory tree path with
  | .ok loaded => (.ok loaded.size, loaded)
  | .error e => (.error e, r)

end WorkflowRegistry
end Orchestration
