import Mathlib.Data.List.TakeWhile
import Orchestration.Proofs.Storage.Walk
import Orchestration.Workflow.Registry

/-! What a directory of workflows gives: one definition for each file below it that is named as
YAML and can be read, in the order of a walk, so that it depends on nothing else in the directory.
A registry that is loaded again holds just these, or what it held when there is nothing to load. -/
namespace Orchestration

namespace Directory
open FileTree

theorem behindLast {c : Char} {after : List Char} (apart : c ∉ after) (above : List Char) :
    (above ++ c :: after).reverse.takeWhile (· ≠ c) = after.reverse := by
  have kept : ∀ d ∈ after.reverse, decide (d ≠ c) = true := by
    intro d inside
    exact decide_eq_true fun same => apart (same ▸ List.mem_reverse.1 inside)
  rw [List.reverse_append, List.reverse_cons, List.append_assoc, List.takeWhile_append_of_pos kept]
  simp

theorem extensionIff {name extension : List Char} :
    extension? name = some extension ↔
      '.' ∉ extension ∧ ∃ stem, stem ≠ [] ∧ name = stem ++ '.' :: extension := by
  constructor
  · intro found
    have joined := List.takeWhile_append_dropWhile (p := fun c : Char => decide (c ≠ '.')) (l := name.reverse)
    simp only [extension?] at found
    split at found
    · rename_i longer
      cases found
      have apart : '.' ∉ name.reverse.takeWhile (· ≠ '.') := by
        intro inside
        simpa using List.mem_takeWhile_imp inside
      refine ⟨by simpa using apart, ?_⟩
      cases rest : name.reverse.dropWhile (· ≠ '.') with
      | nil =>
        have whole := congrArg List.length joined
        rw [List.length_append, rest, List.length_reverse, List.length_nil] at whole
        omega
      | cons c stem =>
        have dot : c = '.' := by
          have stops := List.head_dropWhile_not (fun c : Char => decide (c ≠ '.')) (l := name.reverse)
            (by rw [rest]; exact List.cons_ne_nil c stem)
          simpa only [rest, List.head_cons, decide_eq_false_iff_not, Decidable.not_not] using stops
        rw [rest] at joined
        subst dot
        refine ⟨stem.reverse, ?_, ?_⟩
        · intro empty
          have whole := congrArg List.length joined
          rw [List.reverse_eq_nil_iff.1 empty, List.length_append, List.length_reverse] at whole
          simp only [List.length_cons, List.length_nil] at whole
          omega
        · have turned := congrArg List.reverse joined
          simpa using turned.symm
    · cases found
  · intro parts
    obtain ⟨apart, stem, some, same⟩ := parts
    subst same
    have filled : 0 < stem.length := List.length_pos_iff.2 some
    simp only [extension?, behindLast apart, List.length_reverse, List.reverse_reverse,
      List.length_append, List.length_cons]
    rw [if_pos (by omega)]

def NamedYaml (name : String) : Prop :=
  ∃ stem, stem ≠ [] ∧
    (name.toList = stem ++ ".yaml".toList ∨ name.toList = stem ++ ".yml".toList)

theorem isYamlIff {path name : String} (named : fileName path = name.toList) :
    isYaml path = true ↔ NamedYaml name := by
  have yaml (stem : List Char) : stem ++ ".yaml".toList = stem ++ '.' :: "yaml".toList := by simp
  have yml (stem : List Char) : stem ++ ".yml".toList = stem ++ '.' :: "yml".toList := by simp
  simp only [isYaml, NamedYaml, yaml, yml, named]
  constructor
  · intro is
    split at is
    · rename_i extension found
      obtain ⟨-, stem, some, same⟩ := extensionIff.1 found
      simp only [Bool.or_eq_true, decide_eq_true_eq] at is
      refine ⟨stem, some, is.imp (fun e => ?_) fun e => ?_⟩ <;> rw [same, e]
    · cases is
  · intro parts
    obtain ⟨stem, some, same | same⟩ := parts
    · have found := extensionIff.2 ⟨by decide, stem, some, same⟩
      simp [found]
    · have found := extensionIff.2 ⟨by decide, stem, some, same⟩
      simp [found]

theorem joinChars (directory name : String) :
    ∃ above, (join directory name).toList = above ++ '/' :: name.toList := by
  unfold join
  split
  · rename_i ends
    rw [String.endsWith_eq_endsWith_toSlice, String.Slice.endsWith_string_iff] at ends
    obtain ⟨above, same⟩ := ends
    refine ⟨above, ?_⟩
    rw [String.copy_toSlice] at same
    rw [String.toList_append, ← same]
    simp
  · exact ⟨directory.toList, by simp⟩

theorem fileNameJoin (directory : String) {name : String} (named : '/' ∉ name.toList) :
    fileName (join directory name) = name.toList := by
  obtain ⟨above, joined⟩ := joinChars directory name
  rw [fileName, joined, behindLast named, List.reverse_reverse]

def Defines (tree : FileTree) (place : List String) (d : Definition) : Prop :=
  ∃ content name, tree.Holds place content ∧ place.getLast? = some name ∧ NamedYaml name ∧
    Definition.ofYaml content = .ok d

theorem definitionAt (path : String) {above : List String} {name : String} (named : '/' ∉ name.toList)
    {content : ByteArray} {d : Definition} :
    definition? (visitAt path (above ++ [name], content)) = some d ↔
      NamedYaml name ∧ Definition.ofYaml content = .ok d := by
  have placed : fileName (visitAt path (above ++ [name], content)).path = name.toList := by
    rw [visitAt, List.foldl_append]
    exact fileNameJoin _ named
  rw [definition?, ← isYamlIff placed, visitAt]
  split
  · rename_i yaml
    rw [and_iff_right yaml]
    cases Definition.ofYaml content <;> simp [Except.toOption]
  · rename_i other
    exact iff_of_false (Option.some_ne_none d).symm fun both => other both.1

theorem definesIff (path : String) {entries : List (String × FileTree)}
    (wellFormed : (FileTree.directory entries).WellFormed) {place : List String} {d : Definition} :
    Defines (.directory entries) place d ↔
      ∃ content, (FileTree.directory entries).Holds place content ∧
        definition? (visitAt path (place, content)) = some d := by
  have last {content} (holds : (FileTree.directory entries).Holds place content) :
      ∃ above name, place = above ++ [name] ∧ '/' ∉ name.toList := by
    have names := wellFormed.names holds
    obtain rfl | ⟨above, name, rfl⟩ := List.eq_nil_or_concat place
    · cases holds
    · exact ⟨above, name, List.concat_eq_append .., names name (by simp)⟩
  constructor
  · intro defines
    obtain ⟨content, name, holds, ending, yaml, read⟩ := defines
    obtain ⟨above, other, rfl, named⟩ := last holds
    rw [List.getLast?_concat, Option.some.injEq] at ending
    subst ending
    exact ⟨content, holds, (definitionAt path named).2 ⟨yaml, read⟩⟩
  · intro found
    obtain ⟨content, holds, read⟩ := found
    obtain ⟨above, name, rfl, named⟩ := last holds
    obtain ⟨yaml, read⟩ := (definitionAt path named).1 read
    exact ⟨content, name, holds, List.getLast?_concat .., yaml, read⟩

structure LeadsTo (tree : FileTree) (path : String) (entries : List (String × FileTree)) : Prop where
  located : ∃ chain, tree.locate path = .ok ⟨chain, .directory entries⟩
  wellFormed : (FileTree.directory entries).WellFormed

structure Loaded (entries : List (String × FileTree)) (rows : List (List String × Definition)) :
    Prop where
  defines : ∀ place d, (place, d) ∈ rows ↔ Defines (.directory entries) place d
  ordered : InPlaces rows

theorem readLoaded {tree : FileTree} {path : String} {entries : List (String × FileTree)}
    (leads : LeadsTo tree path entries) :
    ∃ rows, Loaded entries rows ∧ readAll tree path = .ok (rows.map Prod.snd) := by
  obtain ⟨⟨chain, located⟩, wellFormed⟩ := leads
  obtain ⟨files, listing, walked⟩ := wellFormed.listed
  let define (file : List String × ByteArray) : Option (List String × Definition) :=
    (definition? (visitAt path file)).map fun d => (file.1, d)
  refine ⟨files.filterMap define, ⟨fun place d => ?_, ?_⟩, ?_⟩
  · rw [definesIff path wellFormed]
    simp only [List.mem_filterMap, define, Option.map_eq_some_iff, Prod.mk.injEq]
    constructor
    · intro found
      obtain ⟨⟨place, content⟩, inside, d, read, rfl, rfl⟩ := found
      exact ⟨content, (listing.holds ..).1 inside, read⟩
    · intro found
      obtain ⟨content, holds, read⟩ := found
      exact ⟨(place, content), (listing.holds ..).2 holds, d, read, rfl, rfl⟩
  · refine List.pairwise_filterMap.2 (listing.ordered.imp fun {a b} before x first y second => ?_)
    obtain ⟨d, -, rfl⟩ := Option.map_eq_some_iff.1 first
    obtain ⟨e, -, rfl⟩ := Option.map_eq_some_iff.1 second
    exact before
  · simp only [readAll, walkLocated located, walked, List.filterMap_map, List.map_filterMap, define,
      Option.map_map, Function.comp_def, Option.map_id']

variable {entries entries' : List (String × FileTree)} {rows rows' : List (List String × Definition)}

theorem Loaded.unchanged (loaded : Loaded entries rows) (other : Loaded entries' rows')
    (same : ∀ place d, Defines (.directory entries') place d ↔ Defines (.directory entries) place d) :
    rows' = rows := by
  refine other.ordered.unique loaded.ordered fun row => ?_
  rw [other.defines, loaded.defines, same]

theorem Loaded.replaced (loaded : Loaded entries rows) (other : Loaded entries' rows')
    {place : List String} {old new : Definition} (before : Defines (.directory entries) place old)
    (after : Defines (.directory entries') place new)
    (same : ∀ p d, p ≠ place →
      (Defines (.directory entries') p d ↔ Defines (.directory entries) p d)) :
    ∃ first last, rows = first ++ (place, old) :: last ∧ rows' = first ++ (place, new) :: last := by
  obtain ⟨first, last, cut⟩ := List.append_of_mem ((loaded.defines ..).2 before)
  refine ⟨first, last, cut, ?_⟩
  have ordered : InPlaces (first ++ (place, old) :: last) := cut ▸ loaded.ordered
  have replaced : InPlaces (first ++ (place, new) :: last) := ordered.replace
  refine other.ordered.unique replaced fun row => ?_
  obtain ⟨p, d⟩ := row
  by_cases here : p = place
  · subst here
    rw [other.ordered.only ((other.defines ..).2 after), replaced.only List.mem_append_cons_self]
  · have apart (value : Definition) : (p, d) ≠ (place, value) := fun equal => here (congrArg Prod.fst equal)
    rw [other.defines, same p d here, ← loaded.defines, cut]
    simp only [List.mem_append, List.mem_cons, apart, false_or]

end Directory

/-- Loading a directory gives the definition of each file below it that is named as YAML and can be
read, once, in the order of a walk. Whatever else the directory holds makes no difference, and
another text at one place changes the definition of that place only. A registry loaded again holds
these definitions and no others, or stays as it is when loading fails. -/
theorem WorkflowRegistry.directoryLoaded {tree : FileTree} {path : String}
    {entries : List (String × FileTree)} (leads : Directory.LeadsTo tree path entries) :
    ∃ rows, (∀ place d, (place, d) ∈ rows ↔ Directory.Defines (.directory entries) place d) ∧
      FileTree.InPlaces rows ∧
      Directory.readAll tree path = .ok (rows.map Prod.snd) ∧
      (∀ tree' path' entries', Directory.LeadsTo tree' path' entries' →
        ((∀ place d, Directory.Defines (.directory entries') place d ↔
            Directory.Defines (.directory entries) place d) →
          Directory.readAll tree' path' = Directory.readAll tree path) ∧
        ∀ place old new, Directory.Defines (.directory entries) place old →
          Directory.Defines (.directory entries') place new →
          (∀ p d, p ≠ place → (Directory.Defines (.directory entries') p d ↔
            Directory.Defines (.directory entries) p d)) →
          ∃ first last, rows = first ++ (place, old) :: last ∧
            Directory.readAll tree' path' = .ok ((first ++ (place, new) :: last).map Prod.snd)) ∧
      ∀ r : WorkflowRegistry, r.reload tree path = (.ok rows.length, ⟨rows.map Prod.snd⟩) ∧
        ∀ tree' path' e, Directory.readAll tree' path' = .error e →
          r.reload tree' path' = (.error e, r) := by
  obtain ⟨rows, loaded, read⟩ := Directory.readLoaded leads
  refine ⟨rows, loaded.defines, loaded.ordered, read, fun tree' path' entries' leads' => ?_, fun r => ?_⟩
  · obtain ⟨rows', other, read'⟩ := Directory.readLoaded leads'
    refine ⟨fun same => ?_, fun place old new before after same => ?_⟩
    · rw [read', read, loaded.unchanged other same]
    · obtain ⟨first, last, cut, cut'⟩ := loaded.replaced other before after same
      exact ⟨first, last, cut, cut' ▸ read'⟩
  · refine ⟨?_, fun tree' path' e failed => ?_⟩
    · simp [reload, ofDirectory, read, Except.map, size]
    · simp only [reload, ofDirectory, failed, Except.map]

def mixedInner : List (String × FileTree) :=
  [("notes.txt", .file "name: no".toUTF8), ("first.yaml", .file "name: first".toUTF8)]

def mixedEntries : List (String × FileTree) :=
  [("last.yml", .file "name: last".toUTF8), ("alias.yml", .link "last.yml"),
    ("a", .directory mixedInner), ("broken.yaml", .file "name: [".toUTF8)]

def mixedFiles : FileTree := .directory [("w", .directory mixedEntries)]

theorem mixedLeads : Directory.LeadsTo mixedFiles "w" mixedEntries := by
  have path : FileTree.names "w" = ["w"] := by decide +kernel
  refine ⟨⟨["w"], ?_⟩, .directory (by decide) (by decide) fun e inside => ?_⟩
  · simp [FileTree.locate, FileTree.walkPath, path, FileTree.walkFrom, mixedFiles, FileTree.at?, SortedEntries.get?]
  · simp only [mixedEntries, List.mem_cons, List.not_mem_nil, or_false] at inside
    obtain rfl | rfl | rfl | rfl := inside
    · exact .file _
    · exact .link _
    · refine .directory (by decide) (by decide) fun e inside => ?_
      simp only [mixedInner, List.mem_cons, List.not_mem_nil, or_false] at inside
      obtain rfl | rfl := inside <;> exact .file _
    · exact .file _

def mixedContents : List (List String × ByteArray) :=
  [(["a", "first.yaml"], "name: first".toUTF8), (["a", "notes.txt"], "name: no".toUTF8),
    (["broken.yaml"], "name: [".toUTF8), (["last.yml"], "name: last".toUTF8)]

theorem mixedHolds {place : List String} {content : ByteArray} :
    (FileTree.directory mixedEntries).Holds place content ↔ (place, content) ∈ mixedContents := by
  constructor
  · intro holds
    cases holds with
    | under entry below =>
      simp only [mixedEntries, List.mem_cons, List.not_mem_nil, or_false, Prod.mk.injEq] at entry
      obtain ⟨rfl, rfl⟩ | ⟨rfl, rfl⟩ | ⟨rfl, rfl⟩ | ⟨rfl, rfl⟩ := entry
      · cases below
        simp [mixedContents]
      · cases below
      · cases below with
        | under entry below =>
          simp only [mixedInner, List.mem_cons, List.not_mem_nil, or_false, Prod.mk.injEq] at entry
          obtain ⟨rfl, rfl⟩ | ⟨rfl, rfl⟩ := entry <;> cases below <;> simp [mixedContents]
      · cases below
        simp [mixedContents]
  · intro inside
    have inner : ("a", .directory mixedInner) ∈ mixedEntries := by simp [mixedEntries]
    simp only [mixedContents, List.mem_cons, List.not_mem_nil, or_false, Prod.mk.injEq] at inside
    obtain ⟨rfl, rfl⟩ | ⟨rfl, rfl⟩ | ⟨rfl, rfl⟩ | ⟨rfl, rfl⟩ := inside
    · exact .under inner (.under (by simp [mixedInner]) .file)
    · exact .under inner (.under (by simp [mixedInner]) .file)
    · exact .under (by simp [mixedEntries]) .file
    · exact .under (by simp [mixedEntries]) .file

def mixedRows : List (List String × Definition) :=
  [(["a", "first.yaml"], ⟨"first", ⟨[], none⟩, default⟩), (["last.yml"], ⟨"last", ⟨[], none⟩, default⟩)]

theorem mixedRead : mixedContents.filterMap (fun file =>
    (Directory.definition? (FileTree.visitAt "w" file)).map fun d => (file.1, d)) = mixedRows := by
  decide +kernel

theorem directoryLoadedMixed : Directory.LeadsTo mixedFiles "w" mixedEntries ∧
    Directory.readAll mixedFiles "w" = .ok (mixedRows.map Prod.snd) := by
  obtain ⟨rows, defines, ordered, read, -⟩ := WorkflowRegistry.directoryLoaded mixedLeads
  have inPlaces : FileTree.InPlaces mixedRows :=
    List.pairwise_pair.2 (.here (by decide +kernel))
  have same : rows = mixedRows := by
    refine ordered.unique inPlaces fun row => ?_
    obtain ⟨place, d⟩ := row
    rw [defines, Directory.definesIff "w" mixedLeads.wellFormed, ← mixedRead]
    simp [mixedHolds]
  exact ⟨mixedLeads, same ▸ read⟩

end Orchestration
