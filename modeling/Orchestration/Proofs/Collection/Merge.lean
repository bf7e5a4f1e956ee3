import Orchestration.Proofs.Collection.FirstLast
import Orchestration.Proofs.Collection.OrderedMap

/-! Merging maps: the keys are those of all the maps, map after map, each where it first comes,
and a key has the value that the last map with it gives. Both are kept when parts of a row
of maps are merged first, so merging joins rows as it joins maps. -/
namespace Orchestration.OrderedMap

universe u
variable {α : Type u}

theorem keysInsertAll (m : OrderedMap α) (entries : List (String × α)) :
    (m.insertAll entries).keys = (m.keys ++ entries.map Prod.fst).eraseDups := by
  induction entries using List.reverseRecOn with
  | nil =>
    have distinct : m.keys.eraseDups = m.keys := eraseDupsDistinct m.distinct
    rw [List.map_nil, List.append_nil, distinct]
    rfl
  | append_singleton entries entry ih =>
    have step : m.insertAll (entries ++ [entry]) = (m.insertAll entries).insert entry.1 entry.2 := by
      simp only [insertAll, List.foldl_append, List.foldl_cons, List.foldl_nil]
    rw [step, keysInsert, ih, List.map_append, ← List.append_assoc, List.map_singleton, eraseDupsSnoc]
    simp only [List.mem_eraseDups]

theorem keysMergeAll (maps : List (OrderedMap α)) :
    (mergeAll maps).keys = (maps.flatMap (·.keys)).eraseDups := by
  have flat : mergeAll maps = empty.insertAll (maps.flatMap (·.entries)) := List.foldl_flatMap.symm
  rw [flat, keysInsertAll, List.map_flatMap]
  rfl

theorem getMergeAll (maps : List (OrderedMap α)) (key : String) :
    (mergeAll maps).get? key = maps.reverse.findSome? (·.get? key) := by
  induction maps using List.reverseRecOn with
  | nil => rfl
  | append_singleton maps last ih =>
    rw [getMergeLast, ih, List.reverse_append, List.findSome?_append, List.reverse_singleton,
      List.findSome?_singleton]

theorem mergeOne (m : OrderedMap α) : mergeAll [m] = m := insertAllEmpty m

theorem getMergePair (a b : OrderedMap α) (key : String) :
    (mergeAll [a, b]).get? key = (b.get? key).or (a.get? key) := by
  have last := getMergeLast [a] b key
  rwa [mergeOne] at last

theorem mergeAllAppend (xs ys : List (OrderedMap α)) :
    mergeAll (xs ++ ys) = mergeAll [mergeAll xs, mergeAll ys] := by
  refine eqOfGet ?_ fun key _ => ?_
  · simp only [keysMergeAll, List.flatMap_append, List.flatMap_cons, List.flatMap_nil, List.append_nil,
      eraseDupsStages]
  · rw [getMergePair, getMergeAll, List.reverse_append, List.findSome?_append, ← getMergeAll,
      ← getMergeAll]

theorem mergeEmptyLeft (m : OrderedMap α) : mergeAll [empty, m] = m := insertAllEmpty m

theorem mergeEmptyRight (m : OrderedMap α) : mergeAll [m, empty] = m := insertAllEmpty m

theorem mergeSelf (m : OrderedMap α) : mergeAll [m, m] = m := by
  refine eqOfGet ?_ fun key _ => ?_
  · simp only [keysMergeAll, List.flatMap_cons, List.flatMap_nil, List.append_nil]
    exact eraseDupsTwice m.distinct
  · rw [getMergePair, Option.or_self]

def LastGives (maps : List (OrderedMap α)) (key : String) (value : α) : Prop :=
  ∃ before last after, maps = before ++ last :: after ∧ last.get? key = some value ∧
    ∀ m ∈ after, key ∉ m.keys

theorem getMergeAllIff {maps : List (OrderedMap α)} {key : String} {value : α} :
    (mergeAll maps).get? key = some value ↔ LastGives maps key value := by
  rw [getMergeAll, findLastSome]
  simp only [getEqNone, LastGives]

end Orchestration.OrderedMap
