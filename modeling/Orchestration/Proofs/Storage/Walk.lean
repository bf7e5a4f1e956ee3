import Mathlib.Data.List.Nodup
import Orchestration.Storage.FileTree

/-! The walk of a tree, told without it: the files that the tree holds, each at the names that lead
to it, in the one order in which of two files the one comes first whose names part from the
other's at a smaller name. Files are the leaves of a tree, so that is the order of a walk that
goes into a directory before it goes on to what comes after it. -/
namespace Orchestration.FileTree

/-- A file and the names that lead to it. A link leads nowhere. -/
inductive Holds : FileTree → List String → ByteArray → Prop where
  | file {content} : Holds (.file content) [] content
  | under {entries name node place content} (entry : (name, node) ∈ entries)
      (below : Holds node place content) : Holds (.directory entries) (name :: place) content

/-- What a directory is, whatever the order of its entries: the names in it differ, and no name
has a slash in it. -/
inductive WellFormed : FileTree → Prop where
  | file (content) : WellFormed (.file content)
  | link (target) : WellFormed (.link target)
  | directory {entries} (distinct : (entries.map Prod.fst).Nodup)
      (named : ∀ e ∈ entries, '/' ∉ e.1.toList) (below : ∀ e ∈ entries, WellFormed e.2) :
      WellFormed (.directory entries)

/-- Two places part at some directory, where the first goes on with the smaller name. -/
inductive Precedes : List String → List String → Prop where
  | here {x y a b} (smaller : nameBytes x < nameBytes y) : Precedes (x :: a) (y :: b)
  | inside {x a b} (further : Precedes a b) : Precedes (x :: a) (x :: b)

theorem nameBytesInj {a b : String} (same : nameBytes a = nameBytes b) : a = b := by
  have data : a.toUTF8 = b.toUTF8 := ByteArray.ext (Array.toList_inj.1 same)
  exact String.toByteArray_inj.1 data

theorem Precedes.asymm {a b : List String} (first : Precedes a b) : ¬ Precedes b a := by
  induction first with
  | here smaller =>
    intro back
    cases back with
    | here larger => exact List.lt_asymm smaller larger
    | inside => exact List.lt_irrefl _ smaller
  | inside further ih =>
    intro back
    cases back with
    | here larger => exact List.lt_irrefl _ larger
    | inside back => exact ih back

section
variable {α : Type}

def InPlaces (rows : List (List String × α)) : Prop := rows.Pairwise fun a b => Precedes a.1 b.1

theorem InPlaces.nodup {rows : List (List String × α)} (ordered : InPlaces rows) :
    (rows.map Prod.fst).Nodup := by
  refine List.pairwise_map.2 (ordered.imp fun {a b} before same => ?_)
  rw [same] at before
  exact before.asymm before

theorem InPlaces.only {rows : List (List String × α)} (ordered : InPlaces rows) {place : List String}
    {a b : α} (inside : (place, a) ∈ rows) : (place, b) ∈ rows ↔ b = a := by
  constructor
  · intro other
    exact congrArg Prod.snd (List.inj_on_of_nodup_map ordered.nodup other inside rfl)
  · intro same
    exact same ▸ inside

theorem InPlaces.unique {a b : List (List String × α)} (ordered : InPlaces a) (other : InPlaces b)
    (same : ∀ row, row ∈ a ↔ row ∈ b) : a = b := by
  have perm : a.Perm b :=
    (List.perm_ext_iff_of_nodup (List.Nodup.of_map _ ordered.nodup)
      (List.Nodup.of_map _ other.nodup)).2 same
  exact perm.eq_of_pairwise (fun x y _ _ before after => absurd after before.asymm) ordered other

theorem InPlaces.replace {place : List String} {old new : α} {before after : List (List String × α)}
    (ordered : InPlaces (before ++ (place, old) :: after)) :
    InPlaces (before ++ (place, new) :: after) := by
  rw [InPlaces, List.pairwise_append, List.pairwise_cons] at ordered ⊢
  obtain ⟨first, ⟨least, second⟩, between⟩ := ordered
  refine ⟨first, ⟨least, second⟩, fun a inside b later => ?_⟩
  obtain rfl | later := List.mem_cons.1 later
  · exact between a inside (place, old) List.mem_cons_self
  · exact between a inside b (List.mem_cons_of_mem _ later)

theorem inOrderPerm (rows : List (String × α)) : (inOrder rows).Perm rows := List.mergeSort_perm ..

theorem inOrderMem {rows : List (String × α)} {row : String × α} : row ∈ inOrder rows ↔ row ∈ rows :=
  (inOrderPerm rows).mem_iff

theorem inOrderMap {β : Type} (g : String × α → β) (rows : List (String × α)) :
    inOrder (rows.map fun row => (row.1, g row)) = (inOrder rows).map fun row => (row.1, g row) := by
  refine Eq.symm (List.map_mergeSort (f := fun row => (row.1, g row)) fun a _ b _ => ?_)
  rfl

theorem inOrderAscends {rows : List (String × α)} (distinct : (rows.map Prod.fst).Nodup) :
    (inOrder rows).Pairwise fun a b => nameBytes a.1 < nameBytes b.1 := by
  have trans (a b c : String × α) (first : decide (nameBytes a.1 ≤ nameBytes b.1) = true)
      (second : decide (nameBytes b.1 ≤ nameBytes c.1) = true) :
      decide (nameBytes a.1 ≤ nameBytes c.1) = true := by
    simp only [decide_eq_true_eq] at first second ⊢
    exact List.le_trans first second
  have total (a b : String × α) : (decide (nameBytes a.1 ≤ nameBytes b.1) ||
      decide (nameBytes b.1 ≤ nameBytes a.1)) = true := by
    simpa using List.le_total (nameBytes a.1) (nameBytes b.1)
  have sorted := List.pairwise_mergeSort trans total rows
  have apart : (inOrder rows).Pairwise fun a b => a.1 ≠ b.1 :=
    List.pairwise_map.1 (((inOrderPerm rows).map Prod.fst).nodup_iff.2 distinct)
  refine (sorted.and apart).imp fun {a b} both => ?_
  obtain smaller | same := List.le_iff_lt_or_eq.1 (of_decide_eq_true both.1)
  · exact smaller
  · exact absurd (nameBytesInj same) both.2

end

theorem visitsDirectory (path : String) (entries : List (String × FileTree)) :
    visits path (.directory entries) =
      (inOrder entries).flatMap fun e => visits (join path e.1) e.2 := by
  have rows : visitEntries path entries = entries.map fun e => (e.1, visits (join path e.1) e.2) := by
    induction entries with
    | nil => rfl
    | cons e rest ih => rw [visitEntries, ih, List.map_cons]
  rw [visits, rows, inOrderMap, List.flatMap_map]

def visitAt (path : String) (row : List String × ByteArray) : Visit := ⟨row.1.foldl join path, row.2⟩

structure Listing (tree : FileTree) (rows : List (List String × ByteArray)) : Prop where
  holds : ∀ place content, (place, content) ∈ rows ↔ tree.Holds place content
  ordered : InPlaces rows

theorem Listing.directory {entries : List (String × FileTree)}
    {rowsOf : String × FileTree → List (List String × ByteArray)}
    (distinct : (entries.map Prod.fst).Nodup) (each : ∀ e ∈ entries, Listing e.2 (rowsOf e)) :
    Listing (.directory entries)
      ((inOrder entries).flatMap fun e => (rowsOf e).map fun row => (e.1 :: row.1, row.2)) := by
  constructor
  · intro place content
    simp only [List.mem_flatMap, List.mem_map, inOrderMem, Prod.mk.injEq]
    constructor
    · intro listed
      obtain ⟨e, inside, row, listed, rfl, rfl⟩ := listed
      exact .under inside (((each e inside).holds ..).1 listed)
    · intro holds
      cases holds with
      | @under _ name node place content entry below =>
        exact ⟨(name, node), entry, (place, content), ((each _ entry).holds ..).2 below, rfl, rfl⟩
  · refine List.pairwise_flatMap.2 ⟨fun e inside => ?_, (inOrderAscends distinct).imp ?_⟩
    · exact List.pairwise_map.2 ((each e (inOrderMem.1 inside)).ordered.imp .inside)
    · intro a b smaller x first y second
      obtain ⟨row, -, rfl⟩ := List.mem_map.1 first
      obtain ⟨other, -, rfl⟩ := List.mem_map.1 second
      exact .here smaller

theorem WellFormed.listed {tree : FileTree} (wellFormed : tree.WellFormed) :
    ∃ rows, Listing tree rows ∧ ∀ path, visits path tree = rows.map (visitAt path) := by
  induction wellFormed with
  | file content =>
    refine ⟨[([], content)], ⟨fun place found => ?_, List.pairwise_singleton ..⟩, fun path => rfl⟩
    rw [List.mem_singleton, Prod.mk.injEq]
    constructor
    · intro same
      obtain ⟨rfl, rfl⟩ := same
      exact .file
    · intro holds
      cases holds
      exact ⟨rfl, rfl⟩
  | link target =>
    refine ⟨[], ⟨fun place found => ?_, List.Pairwise.nil⟩, fun path => rfl⟩
    exact iff_of_false List.not_mem_nil nofun
  | @directory entries distinct named below ih =>
    choose! rowsOf listing walked using ih
    refine ⟨_, .directory distinct listing, fun path => ?_⟩
    rw [visitsDirectory, List.map_flatMap]
    refine List.flatMap_congr fun e inside => ?_
    rw [walked e (inOrderMem.1 inside), List.map_map]
    rfl

theorem WellFormed.names {tree : FileTree} (wellFormed : tree.WellFormed) {place : List String}
    {content : ByteArray} (holds : tree.Holds place content) : ∀ name ∈ place, '/' ∉ name.toList := by
  induction holds with
  | file => exact fun name inside => absurd inside List.not_mem_nil
  | under entry below ih =>
    cases wellFormed with
    | directory distinct named subtrees =>
      exact List.forall_mem_cons.2 ⟨named _ entry, ih (subtrees _ entry)⟩

/-! A path is walked from the directory that it leads to, also through a link. -/

theorem walkUnfollowed {tree : FileTree} {found : Located} (links : Nat) (here names : List String)
    (located : tree.walkFrom true links here names = .ok found) :
    tree.walkFrom false links here names = .ok found ∨
      ∃ place target, tree.walkFrom false links here names = .ok ⟨place, .link target⟩ := by
  match names with
  | [] =>
    rw [walkFrom] at located ⊢
    exact .inl located
  | name :: rest =>
    rw [walkFrom] at located ⊢
    split at located
    · rename_i entries listed
      split at located
      · rename_i stays
        simp only [stays, if_true]
        exact walkUnfollowed links here rest located
      · rename_i goes
        simp only [goes]
        split at located
        · rename_i up
          simp only [up, if_true]
          exact walkUnfollowed links (here.drop 1) rest located
        · rename_i down
          simp only [down]
          split at located
          · rename_i target held
            simp only [Bool.not_true, Bool.and_false] at located
            by_cases last : rest = []
            · subst last
              exact .inr ⟨_, target, rfl⟩
            · cases links with
              | zero => cases located
              | succ links =>
                have more : rest.isEmpty = false := by simpa using last
                simp only [more, Bool.false_and]
                exact walkUnfollowed links _ _ located
          · rename_i inner held
            exact walkUnfollowed links (name :: here) rest located
          · cases located
    · cases located
    · cases located
termination_by (links, names.length)

theorem walkLocated {tree : FileTree} {path : String} {chain : List String}
    {entries : List (String × FileTree)} (located : tree.locate path = .ok ⟨chain, .directory entries⟩) :
    tree.walk path = .ok (visits path (.directory entries)) := by
  have placed : path ≠ "" := by
    rintro rfl
    cases located
  have found := located
  rw [locate, walkPath, if_neg placed] at found
  obtain same | ⟨place, target, link⟩ := walkUnfollowed _ _ _ found
  · simp only [walk, entry, walkPath, if_neg placed, same, Except.map]
  · simp only [walk, entry, walkPath, if_neg placed, link, Except.map, located]

end Orchestration.FileTree
