import Orchestration.Collection.SortedMap

/-! Maps in the order of their keys, seen through look-ups. Since the order leaves no
choice, two maps that answer every look-up alike are the same map. -/
namespace Orchestration

universe u

namespace SortedEntries
variable {α : Type u}

theorem eqOfNotLess {a b : String} (notLess : ¬ a < b) (notMore : ¬ b < a) : a = b :=
  String.le_antisymm (String.not_lt.1 notMore) (String.not_lt.1 notLess)

theorem getPut {key other : String} {value : α} {entries : List (String × α)} :
    get? other (put key value entries) = if key = other then some value else get? other entries := by
  induction entries with
  | nil => simp [put, get?]
  | cons head rest ih =>
    obtain ⟨k, v⟩ := head
    simp only [put]
    split
    · by_cases found : key = other <;> simp [get?, found]
    · split
      · rename_i before after
        have different : key ≠ k := fun same => String.lt_irrefl k (same ▸ after)
        by_cases found : k = other
        · subst k
          simp [get?, different]
        · simp [get?, found, ih]
      · rename_i before after
        have same : key = k := eqOfNotLess before after
        subst k
        by_cases found : key = other <;> simp [get?, found]

theorem getEqNone {key : String} {entries : List (String × α)} :
    get? key entries = none ↔ ∀ e ∈ entries, e.1 ≠ key := by
  induction entries with
  | nil => simp [get?]
  | cons head rest ih =>
    obtain ⟨k, v⟩ := head
    by_cases same : k = key <;> simp [get?, same, ih]

theorem getFilter {key : String} {keep : String → Bool} {entries : List (String × α)} :
    get? key (entries.filter fun e => keep e.1) = if keep key then get? key entries else none := by
  induction entries with
  | nil => simp [get?]
  | cons head rest ih =>
    obtain ⟨k, v⟩ := head
    by_cases kept : keep k = true
    · simp only [List.filter_cons, kept, if_true, get?, ih]
      by_cases same : k = key
      · subst k
        simp [kept]
      · simp [same]
    · simp only [List.filter_cons, kept, Bool.false_eq_true, if_false, get?, ih]
      by_cases same : k = key
      · subst k
        simp [kept]
      · simp [same]

theorem getEqSome {key : String} {value : α} {entries : List (String × α)}
    (ascending : Ascending entries) : get? key entries = some value ↔ (key, value) ∈ entries := by
  induction entries with
  | nil => simp [get?]
  | cons head rest ih =>
    obtain ⟨k, v⟩ := head
    obtain ⟨below, tail⟩ := List.pairwise_cons.1 ascending
    by_cases same : k = key
    · subst k
      have absent : (key, value) ∉ rest := fun inside => String.lt_irrefl key (below _ inside)
      simp [get?, absent, eq_comm]
    · simp [get?, same, Ne.symm same, ih tail]

theorem keysNodup {entries : List (String × α)} (ascending : Ascending entries) :
    (entries.map Prod.fst).Nodup := by
  refine List.pairwise_map.2 (ascending.imp fun {a b} less same => ?_)
  exact String.lt_irrefl b.1 (same ▸ less)

theorem entriesNodup {entries : List (String × α)} (ascending : Ascending entries) :
    entries.Nodup :=
  List.Pairwise.of_map Prod.fst (fun _ _ different same => different (congrArg Prod.fst same))
    (keysNodup ascending)

theorem getMap {β : Type u} (f : α → β) {key : String} {entries : List (String × α)} :
    get? key (entries.map fun e => (e.1, f e.2)) = (get? key entries).map f := by
  induction entries with
  | nil => rfl
  | cons head rest ih =>
    simp only [List.map_cons, get?, ih]
    split <;> rfl

theorem eqOfGet {a b : List (String × α)} (first : Ascending a) (second : Ascending b)
    (values : ∀ key, get? key a = get? key b) : a = b := by
  have members : ∀ e, e ∈ a ↔ e ∈ b := fun e => by
    rw [← getEqSome first, ← getEqSome second, values]
  have permuted : a.Perm b :=
    (List.perm_ext_iff_of_nodup (entriesNodup first) (entriesNodup second)).2 members
  refine permuted.eq_of_pairwise (fun x y _ _ less more => ?_) first second
  exact absurd (String.lt_trans less more) (String.lt_irrefl x.1)

theorem putLast {key : String} {value : α} {entries : List (String × α)}
    (last : ∀ e ∈ entries, e.1 < key) : put key value entries = entries ++ [(key, value)] := by
  induction entries with
  | nil => rfl
  | cons head rest ih =>
    obtain ⟨before, others⟩ := List.forall_mem_cons.1 last
    have notBefore : ¬ key < head.1 := fun after => String.lt_irrefl key (String.lt_trans after before)
    rw [put, if_neg notBefore, if_pos before, ih others, List.cons_append]

end SortedEntries

namespace SortedMap
variable {α : Type u}

@[simp] theorem getEmpty (key : String) : (empty : SortedMap α).get? key = none := rfl

theorem getInsert (m : SortedMap α) (key other : String) (value : α) :
    (m.insert key value).get? other = if key = other then some value else m.get? other :=
  SortedEntries.getPut

@[simp] theorem getInsertSelf (m : SortedMap α) (key : String) (value : α) :
    (m.insert key value).get? key = some value := by simp [getInsert]

theorem getInsertOther (m : SortedMap α) {key other : String} (value : α) (different : key ≠ other) :
    (m.insert key value).get? other = m.get? other := by simp [getInsert, different]

theorem getErase (m : SortedMap α) (key other : String) :
    (m.erase key).get? other = if other = key then none else m.get? other := by
  have kept := @SortedEntries.getFilter α other (· != key) m.entries
  by_cases same : other = key <;> simpa [erase, filterKeys, get?, same] using kept

theorem memEntries (m : SortedMap α) {key : String} {value : α} :
    (key, value) ∈ m.entries ↔ m.get? key = some value :=
  (SortedEntries.getEqSome m.ascending).symm

theorem memKeys (m : SortedMap α) {key : String} : key ∈ m.keys ↔ ∃ value, m.get? key = some value := by
  simp [keys, ← memEntries]

theorem containsEq (m : SortedMap α) (key : String) : m.contains key = (m.get? key).isSome := rfl

theorem eqOfGet {a b : SortedMap α} (values : ∀ key, a.get? key = b.get? key) : a = b :=
  entriesEq (SortedEntries.eqOfGet a.ascending b.ascending values)

theorem keysNodup (m : SortedMap α) : m.keys.Nodup := SortedEntries.keysNodup m.ascending

def map {β : Type u} (f : α → β) (m : SortedMap α) : SortedMap β :=
  ⟨m.entries.map fun e => (e.1, f e.2), by
    rw [SortedEntries.Ascending, List.pairwise_map]
    exact m.ascending⟩

theorem getMap {β : Type u} (f : α → β) (m : SortedMap α) (key : String) :
    (m.map f).get? key = (m.get? key).map f := SortedEntries.getMap f

theorem insertAscending {m : SortedMap α} {entries : List (String × α)}
    (ascending : SortedEntries.Ascending (m.entries ++ entries)) :
    (entries.foldl (fun m e => m.insert e.1 e.2) m).entries = m.entries ++ entries := by
  induction entries generalizing m with
  | nil => simp
  | cons head rest ih =>
    have last : ∀ e ∈ m.entries, e.1 < head.1 := fun e inside =>
      (List.pairwise_append.1 ascending).2.2 e inside head List.mem_cons_self
    have step : (m.insert head.1 head.2).entries = m.entries ++ [head] := SortedEntries.putLast last
    have next := @ih (m.insert head.1 head.2) (by rw [step]; simpa using ascending)
    simpa [step] using next

theorem ofListEntries (m : SortedMap α) : ofList m.entries = m :=
  entriesEq (by simpa [ofList, empty] using @insertAscending α empty m.entries m.ascending)

end SortedMap
end Orchestration
