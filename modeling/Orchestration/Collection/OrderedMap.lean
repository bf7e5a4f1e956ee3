/-! A map from texts to values that remembers the order in which its keys came.
Putting a present key replaces its value and leaves its place; a new key goes
to the end. Keys are distinct by construction. -/
namespace Orchestration

universe u

namespace Entries
variable {α : Type u}

def put (key : String) (value : α) : List (String × α) → List (String × α)
  | [] => [(key, value)]
  | (k, v) :: rest => if k = key then (k, value) :: rest else (k, v) :: put key value rest

def get? (key : String) : List (String × α) → Option α
  | [] => none
  | (k, v) :: rest => if k = key then some v else get? key rest

theorem memPutKeys {key other : String} {value : α} {entries : List (String × α)} :
    other ∈ (put key value entries).map Prod.fst ↔ other = key ∨ other ∈ entries.map Prod.fst := by
  induction entries with
  | nil => simp [put]
  | cons head rest ih =>
    obtain ⟨k, v⟩ := head
    by_cases same : k = key
    · subst same; simp [put]
    · simp only [put, same, if_false, List.map_cons, List.mem_cons, ih]
      constructor
      · rintro (h | h | h) <;> simp [h]
      · rintro (h | h | h) <;> simp [h]

theorem putDistinct {key : String} {value : α} {entries : List (String × α)}
    (distinct : (entries.map Prod.fst).Nodup) : ((put key value entries).map Prod.fst).Nodup := by
  induction entries with
  | nil => simp [put]
  | cons head rest ih =>
    obtain ⟨k, v⟩ := head
    simp only [List.map_cons, List.nodup_cons] at distinct
    by_cases same : k = key
    · simp only [put, same, if_true, List.map_cons, List.nodup_cons]
      exact ⟨same ▸ distinct.1, distinct.2⟩
    · simp only [put, same, if_false, List.map_cons, List.nodup_cons]
      refine ⟨fun inside => ?_, ih distinct.2⟩
      rcases memPutKeys.1 inside with h | h
      · exact same h
      · exact distinct.1 h

end Entries

structure OrderedMap (α : Type u) where
  entries : List (String × α)
  distinct : (entries.map Prod.fst).Nodup

namespace OrderedMap
variable {α : Type u}

theorem entriesEq {a b : OrderedMap α} (h : a.entries = b.entries) : a = b := by
  cases a; cases b; cases h; rfl

instance [DecidableEq α] : DecidableEq (OrderedMap α) := fun a b =>
  if h : a.entries = b.entries then isTrue (entriesEq h) else isFalse fun e => h (e ▸ rfl)

instance [Repr α] : Repr (OrderedMap α) := ⟨fun m n => reprPrec m.entries n⟩

def empty : OrderedMap α := ⟨[], List.nodup_nil⟩

instance : EmptyCollection (OrderedMap α) := ⟨empty⟩
instance : Inhabited (OrderedMap α) := ⟨empty⟩

def get? (m : OrderedMap α) (key : String) : Option α := Entries.get? key m.entries

def insert (m : OrderedMap α) (key : String) (value : α) : OrderedMap α :=
  ⟨Entries.put key value m.entries, Entries.putDistinct m.distinct⟩

def keys (m : OrderedMap α) : List String := m.entries.map Prod.fst

def insertAll (m : OrderedMap α) (entries : List (String × α)) : OrderedMap α :=
  entries.foldl (fun m e => m.insert e.1 e.2) m

def ofList (entries : List (String × α)) : OrderedMap α := insertAll empty entries

/-- Shallow merge: values of later maps win, keys stay where they first came. -/
def mergeAll (maps : List (OrderedMap α)) : OrderedMap α :=
  maps.foldl (fun merged m => merged.insertAll m.entries) empty

end OrderedMap
end Orchestration
