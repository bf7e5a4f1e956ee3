import Orchestration.Collection.OrderedMap

/-! Maps in the order of insertion, seen through look-ups and keys. A map is determined
by the list of its keys and by what each key gives; merging one map alone gives it back,
so merging in two stages is merging at once. -/
namespace Orchestration

universe u

namespace Entries
variable {α : Type u}

theorem getPut {key other : String} {value : α} {entries : List (String × α)} :
    get? other (put key value entries) = if key = other then some value else get? other entries := by
  induction entries with
  | nil => simp [put, get?]
  | cons head rest ih =>
    obtain ⟨k, v⟩ := head
    by_cases same : k = key
    · subst k
      by_cases found : key = other <;> simp [put, get?, found]
    · by_cases found : k = other
      · subst k
        simp [put, get?, same, Ne.symm same]
      · simp [put, get?, same, found, ih]

theorem keysPut {key : String} {value : α} {entries : List (String × α)} :
    (put key value entries).map Prod.fst =
      if key ∈ entries.map Prod.fst then entries.map Prod.fst else entries.map Prod.fst ++ [key] := by
  induction entries with
  | nil => simp [put]
  | cons head rest ih =>
    obtain ⟨k, v⟩ := head
    by_cases same : k = key
    · subst k
      simp [put]
    · simp only [put, same, if_false, List.map_cons, ih, List.mem_cons, Ne.symm same, false_or]
      split <;> rfl

theorem putNew {key : String} {value : α} {entries : List (String × α)}
    (fresh : key ∉ entries.map Prod.fst) : put key value entries = entries ++ [(key, value)] := by
  induction entries with
  | nil => rfl
  | cons head rest ih =>
    obtain ⟨k, v⟩ := head
    simp only [List.map_cons, List.mem_cons, not_or] at fresh
    simp [put, Ne.symm fresh.1, ih fresh.2]

theorem getEqNone {key : String} {entries : List (String × α)} :
    get? key entries = none ↔ key ∉ entries.map Prod.fst := by
  induction entries with
  | nil => simp [get?]
  | cons head rest ih =>
    obtain ⟨k, v⟩ := head
    by_cases same : k = key
    · simp [get?, same]
    · simp only [get?, same, if_false, ih, List.map_cons, List.mem_cons, Ne.symm same, false_or]

theorem eqOfGet {a b : List (String × α)} (distinct : (a.map Prod.fst).Nodup)
    (keys : a.map Prod.fst = b.map Prod.fst)
    (values : ∀ key ∈ a.map Prod.fst, get? key a = get? key b) : a = b := by
  induction a generalizing b with
  | nil => simpa using keys.symm
  | cons head rest ih =>
    obtain ⟨k, v⟩ := head
    cases b with
    | nil => simp at keys
    | cons other more =>
      obtain ⟨l, w⟩ := other
      simp only [List.map_cons, List.cons.injEq] at keys
      obtain ⟨rfl, keys⟩ := keys
      simp only [List.map_cons, List.nodup_cons] at distinct
      have value : v = w := by simpa [get?] using values k (by simp)
      have tail : rest = more := by
        refine ih distinct.2 keys fun key inside => ?_
        have different : k ≠ key := fun same => distinct.1 (same ▸ inside)
        simpa [get?, different] using values key (List.mem_cons_of_mem _ inside)
      rw [value, tail]

end Entries

namespace OrderedMap
variable {α : Type u}

@[simp] theorem getEmpty (key : String) : (empty : OrderedMap α).get? key = none := rfl

theorem getInsert (m : OrderedMap α) (key other : String) (value : α) :
    (m.insert key value).get? other = if key = other then some value else m.get? other :=
  Entries.getPut

theorem keysInsert (m : OrderedMap α) (key : String) (value : α) :
    (m.insert key value).keys = if key ∈ m.keys then m.keys else m.keys ++ [key] :=
  Entries.keysPut

theorem getEqNone {m : OrderedMap α} {key : String} : m.get? key = none ↔ key ∉ m.keys :=
  Entries.getEqNone

theorem eqOfGet {a b : OrderedMap α} (keys : a.keys = b.keys)
    (values : ∀ key ∈ a.keys, a.get? key = b.get? key) : a = b :=
  entriesEq (Entries.eqOfGet a.distinct keys values)

theorem insertAllNew {m : OrderedMap α} {entries : List (String × α)}
    (distinct : ((m.entries ++ entries).map Prod.fst).Nodup) :
    (m.insertAll entries).entries = m.entries ++ entries := by
  induction entries generalizing m with
  | nil => simp [insertAll]
  | cons head rest ih =>
    obtain ⟨key, value⟩ := head
    have fresh : key ∉ m.entries.map Prod.fst := by
      intro inside
      rw [List.map_append, List.nodup_append] at distinct
      exact distinct.2.2 key inside key (by simp) rfl
    have step : (m.insert key value).entries = m.entries ++ [(key, value)] := Entries.putNew fresh
    have next := @ih (m.insert key value) (by rw [step]; simpa using distinct)
    simpa [insertAll, step] using next

theorem insertAllEmpty (m : OrderedMap α) : empty.insertAll m.entries = m :=
  entriesEq (by simpa [empty] using @insertAllNew α empty m.entries m.distinct)

theorem getInsertAll {entries : List (String × α)} (distinct : (entries.map Prod.fst).Nodup)
    (m : OrderedMap α) (key : String) :
    (m.insertAll entries).get? key = (Entries.get? key entries).or (m.get? key) := by
  induction entries generalizing m with
  | nil => rfl
  | cons head rest ih =>
    obtain ⟨k, v⟩ := head
    obtain ⟨fresh, others⟩ := List.nodup_cons.1 distinct
    have step : m.insertAll ((k, v) :: rest) = (m.insert k v).insertAll rest := rfl
    rw [step, ih others, getInsert, Entries.get?]
    by_cases same : k = key
    · subst same
      rw [Entries.getEqNone.2 fresh, if_pos rfl, if_pos rfl]
      rfl
    · rw [if_neg same, if_neg same]

theorem getMergeLast (maps : List (OrderedMap α)) (last : OrderedMap α) (key : String) :
    (mergeAll (maps ++ [last])).get? key = (last.get? key).or ((mergeAll maps).get? key) := by
  rw [mergeAll, List.foldl_append, List.foldl_cons, List.foldl_nil]
  exact getInsertAll last.distinct _ key

theorem mergeAllAgain (maps : List (OrderedMap α)) (last : OrderedMap α) :
    mergeAll [mergeAll maps, last] = mergeAll (maps ++ [last]) := by
  simp only [mergeAll, List.foldl_append, List.foldl_cons, List.foldl_nil, insertAllEmpty]

end OrderedMap
end Orchestration
