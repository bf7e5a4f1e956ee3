/-! A map from texts to values kept in the order of its keys, by code point. -/
namespace Orchestration

universe u

namespace SortedEntries
variable {α : Type u}

def put (key : String) (value : α) : List (String × α) → List (String × α)
  | [] => [(key, value)]
  | (k, v) :: rest =>
    if key < k then (key, value) :: (k, v) :: rest
    else if k < key then (k, v) :: put key value rest
    else (k, value) :: rest

def get? (key : String) : List (String × α) → Option α
  | [] => none
  | (k, v) :: rest => if k = key then some v else get? key rest

def Ascending (entries : List (String × α)) : Prop := entries.Pairwise fun a b => a.1 < b.1

theorem memPut {key : String} {value : α} {entries : List (String × α)} {e : String × α}
    (inside : e ∈ put key value entries) : e.1 = key ∨ ∃ old ∈ entries, e.1 = old.1 := by
  induction entries with
  | nil => simp [put] at inside; simp [inside]
  | cons head rest ih =>
    obtain ⟨k, v⟩ := head
    simp only [put] at inside
    split at inside
    · rcases List.mem_cons.1 inside with h | h
      · simp [h]
      · exact .inr ⟨e, h, rfl⟩
    · split at inside
      · rcases List.mem_cons.1 inside with h | h
        · exact .inr ⟨(k, v), by simp, by simp [h]⟩
        · rcases ih h with h | ⟨old, member, same⟩
          · exact .inl h
          · exact .inr ⟨old, List.mem_cons_of_mem _ member, same⟩
      · rcases List.mem_cons.1 inside with h | h
        · exact .inr ⟨(k, v), by simp, by simp [h]⟩
        · exact .inr ⟨e, List.mem_cons_of_mem _ h, rfl⟩

theorem putAscending {key : String} {value : α} {entries : List (String × α)}
    (ascending : Ascending entries) : Ascending (put key value entries) := by
  induction entries with
  | nil => simp [put, Ascending]
  | cons head rest ih =>
    obtain ⟨k, v⟩ := head
    obtain ⟨below, tail⟩ := List.pairwise_cons.1 ascending
    simp only [put]
    split
    · rename_i first
      refine List.pairwise_cons.2 ⟨fun e member => ?_, ascending⟩
      rcases List.mem_cons.1 member with h | h
      · simpa [h] using first
      · exact String.lt_trans first (below e h)
    · split
      · rename_i later
        refine List.pairwise_cons.2 ⟨fun e member => ?_, ih tail⟩
        rcases memPut member with h | ⟨old, h, same⟩
        · simpa [h] using later
        · exact same ▸ below old h
      · exact List.pairwise_cons.2 ⟨below, tail⟩

theorem eraseAscending {p : String × α → Bool} {entries : List (String × α)}
    (ascending : Ascending entries) : Ascending (entries.filter p) :=
  List.Pairwise.filter p ascending

end SortedEntries

structure SortedMap (α : Type u) where
  entries : List (String × α)
  ascending : SortedEntries.Ascending entries

namespace SortedMap
variable {α : Type u}

theorem entriesEq {a b : SortedMap α} (h : a.entries = b.entries) : a = b := by
  cases a; cases b; cases h; rfl

instance [DecidableEq α] : DecidableEq (SortedMap α) := fun a b =>
  if h : a.entries = b.entries then isTrue (entriesEq h) else isFalse fun e => h (e ▸ rfl)

instance [Repr α] : Repr (SortedMap α) := ⟨fun m n => reprPrec m.entries n⟩

def empty : SortedMap α := ⟨[], List.Pairwise.nil⟩

instance : EmptyCollection (SortedMap α) := ⟨empty⟩
instance : Inhabited (SortedMap α) := ⟨empty⟩

def get? (m : SortedMap α) (key : String) : Option α := SortedEntries.get? key m.entries

def contains (m : SortedMap α) (key : String) : Bool := (m.get? key).isSome

def insert (m : SortedMap α) (key : String) (value : α) : SortedMap α :=
  ⟨SortedEntries.put key value m.entries, SortedEntries.putAscending m.ascending⟩

def filterKeys (m : SortedMap α) (keep : String → Bool) : SortedMap α :=
  ⟨m.entries.filter fun e => keep e.1, SortedEntries.eraseAscending m.ascending⟩

def erase (m : SortedMap α) (key : String) : SortedMap α := m.filterKeys (· != key)

def keys (m : SortedMap α) : List String := m.entries.map Prod.fst

def values (m : SortedMap α) : List α := m.entries.map Prod.snd

def size (m : SortedMap α) : Nat := m.entries.length

def isEmpty (m : SortedMap α) : Bool := m.entries.isEmpty

def ofList (entries : List (String × α)) : SortedMap α :=
  entries.foldl (fun m e => m.insert e.1 e.2) empty

end SortedMap
end Orchestration
