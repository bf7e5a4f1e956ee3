import Orchestration.Collection.SortedMap
import Orchestration.Error

/-! A tree of directories, files and symbolic links, read by path. Paths are taken
from the top of the tree; a link's target is taken from the directory of the link
unless it begins with a slash. -/
namespace Orchestration

inductive FileTree where
  | file (content : ByteArray)
  | directory (entries : List (String × FileTree))
  | link (target : String)

namespace FileTree

instance : Inhabited FileTree := ⟨.directory []⟩

def empty : FileTree := .directory []

def names (path : String) : List String := (path.toList.splitOn '/').map String.ofList

def at? : FileTree → List String → Option FileTree
  | tree, [] => some tree
  | .directory entries, name :: rest =>
    match SortedEntries.get? name entries with
    | some node => node.at? rest
    | none => none
  | _, _ :: _ => none
termination_by structural _ names => names

structure Located where
  chain : List String
  node : FileTree

def maxLinks : Nat := 40

/-- Walks from the directory at `here` along the names still to go. A link at the end is
followed only if asked. -/
def walkFrom (tree : FileTree) (follow : Bool) (links : Nat) (here : List String) :
    List String → Except SystemFault Located
  | [] => match tree.at? here.reverse with
    | some node => .ok ⟨here, node⟩
    | none => .error .notFound
  | name :: rest =>
    match tree.at? here.reverse with
    | some (.directory entries) =>
      if name = "" || name = "." then walkFrom tree follow links here rest
      else if name = ".." then walkFrom tree follow links (here.drop 1) rest
      else match SortedEntries.get? name entries with
        | some (.link target) =>
          if rest.isEmpty && !follow then .ok ⟨name :: here, .link target⟩
          else match links with
            | 0 => .error .tooManyLinks
            | links + 1 =>
              let start := if target.startsWith "/" then [] else here
              walkFrom tree follow links start (names target ++ rest)
        | some _ => walkFrom tree follow links (name :: here) rest
        | none => .error .notFound
    | some _ => .error .notDirectory
    | none => .error .notFound
termination_by names => (links, names.length)

/-- Walks a path from the top of the tree. The empty path leads nowhere, not even to the top. -/
def walkPath (tree : FileTree) (follow : Bool) (path : String) : Except SystemFault Located :=
  if path = "" then .error .notFound else tree.walkFrom follow maxLinks [] (names path)

def locate (tree : FileTree) (path : String) : Except SystemFault Located := tree.walkPath true path

def entry (tree : FileTree) (path : String) : Except SystemFault FileTree :=
  (tree.walkPath false path).map (·.node)

def parent (tree : FileTree) (path : String) : Except SystemFault Located :=
  tree.walkFrom true maxLinks [] (names path).dropLast

def isFile (tree : FileTree) (path : String) : Bool :=
  match tree.locate path with
  | .ok ⟨_, .file _⟩ => true
  | _ => false

def isDirectory (tree : FileTree) (path : String) : Bool :=
  match tree.locate path with
  | .ok ⟨_, .directory _⟩ => true
  | _ => false

def contentAt (tree : FileTree) (path : String) : Except SystemFault ByteArray :=
  match tree.locate path with
  | .error fault => .error fault
  | .ok ⟨_, .file content⟩ => .ok content
  | .ok _ => .error .isDirectory

def put (node : FileTree) : List String → FileTree → FileTree
  | [], _ => node
  | name :: rest, .directory entries =>
    .directory (SortedEntries.put name
      (put node rest ((SortedEntries.get? name entries).getD .empty)) entries)
  | name :: rest, _ => .directory [(name, put node rest .empty)]

def removeAt : List String → FileTree → FileTree
  | [], tree => tree
  | [name], .directory entries => .directory (entries.filter fun e => e.1 ≠ name)
  | name :: rest, .directory entries =>
    match SortedEntries.get? name entries with
    | some node => .directory (SortedEntries.put name (removeAt rest node) entries)
    | none => .directory entries
  | _, tree => tree

def target (tree : FileTree) (path : String) : List String :=
  match tree.locate path with
  | .ok located => located.chain.reverse
  | .error _ =>
    match tree.parent path with
    | .ok located => located.chain.reverse ++ ((names path).getLast?).toList
    | .error _ => (names path).filter (· ≠ "")

def write (tree : FileTree) (path : String) (node : FileTree) : FileTree :=
  if path = "" then tree else put node (tree.target path) tree

def remove (tree : FileTree) (path : String) : FileTree :=
  match tree.parent path with
  | .ok located => removeAt (located.chain.reverse ++ ((names path).getLast?).toList) tree
  | .error _ => tree

def makeDirectory (tree : FileTree) (path : List String) : Except SystemFault FileTree :=
  match tree.walkFrom false maxLinks [] path with
  | .ok _ => .error .exists
  | .error .notFound =>
    match tree.walkFrom true maxLinks [] path.dropLast with
    | .ok ⟨chain, .directory _⟩ =>
      .ok (put .empty (chain.reverse ++ (path.getLast?).toList) tree)
    | .ok _ => .error .notDirectory
    | .error fault => .error fault
  | .error fault => .error fault

def isDirectoryAt (tree : FileTree) (path : List String) : Bool :=
  match tree.walkFrom true maxLinks [] path with
  | .ok ⟨_, .directory _⟩ => true
  | _ => false

/-- Makes a directory unless it is there, and before it those it lies in. The names of the
path come innermost first. -/
def makeAll (tree : FileTree) : List String → Except SystemFault FileTree
  | [] => .ok tree
  | name :: above =>
    let path := (name :: above).reverse
    let settle (tree : FileTree) (fault : SystemFault) : Except SystemFault FileTree :=
      if tree.isDirectoryAt path then .ok tree else .error fault
    match tree.makeDirectory path with
    | .ok tree => .ok tree
    | .error .notFound =>
      match makeAll tree above with
      | .error fault => .error fault
      | .ok tree => match tree.makeDirectory path with
        | .ok tree => .ok tree
        | .error fault => settle tree fault
    | .error fault => settle tree fault

def makeDirectories (tree : FileTree) (path : String) : Except SystemFault FileTree :=
  tree.makeAll (names path).reverse

structure Visit where
  path : String
  content : ByteArray

def join (directory name : String) : String :=
  if directory.endsWith "/" then directory ++ name else directory ++ "/" ++ name

def nameBytes (name : String) : List UInt8 := name.toUTF8.data.toList

def inOrder {α : Type} (rows : List (String × α)) : List (String × α) :=
  rows.mergeSort fun a b => nameBytes a.1 ≤ nameBytes b.1

mutual
/-- The files at a place and below it, each directory in the order of its names. Links are not
followed. -/
def visits (path : String) : FileTree → List Visit
  | .file content => [⟨path, content⟩]
  | .directory entries => (inOrder (visitEntries path entries)).flatMap Prod.snd
  | .link _ => []

def visitEntries (path : String) : List (String × FileTree) → List (String × List Visit)
  | [] => []
  | (name, node) :: rest => (name, visits (join path name) node) :: visitEntries path rest
end

def walk (tree : FileTree) (path : String) : Except SystemFault (List Visit) :=
  match tree.entry path with
  | .error fault => .error fault
  | .ok (.link _) =>
    match tree.locate path with
    | .error fault => .error fault
    | .ok ⟨_, .directory entries⟩ => .ok (visits path (.directory entries))
    | .ok _ => .ok []
  | .ok node => .ok (visits path node)

end FileTree
end Orchestration
