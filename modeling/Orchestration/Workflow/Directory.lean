import Orchestration.Storage.FileTree
import Orchestration.Yaml.Reading

/-! Workflow files. A directory gives the definitions in the YAML files below it, in
the order of a walk; files that hold no definition are passed over. -/
namespace Orchestration.Directory

def extension? (name : List Char) : Option (List Char) :=
  let after := name.reverse.takeWhile (· ≠ '.')
  if after.length + 1 < name.length then some after.reverse else none

def fileName (path : String) : List Char := (path.toList.reverse.takeWhile (· ≠ '/')).reverse

def isYaml (path : String) : Bool :=
  match extension? (fileName path) with
  | some extension => extension = "yaml".toList || extension = "yml".toList
  | none => false

def readDefinition (tree : FileTree) (path : String) : Except Error Definition :=
  if tree.isFile path then
    match tree.contentAt path with
    | .error fault => .error (.io fault)
    | .ok content => (Definition.ofYaml content).mapError (.workflowParse path)
  else .error (.workflowFileMissing path)

def definition? (visit : FileTree.Visit) : Option Definition :=
  if isYaml visit.path then (Definition.ofYaml visit.content).toOption else none

def readAll (tree : FileTree) (path : String) : Except Error (List Definition) :=
  match tree.walk path with
  | .error fault => .error (.walkFailed path path fault)
  | .ok visits => .ok (visits.filterMap definition?)

end Orchestration.Directory
