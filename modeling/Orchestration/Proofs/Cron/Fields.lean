import Mathlib.Data.List.DropRight
import Orchestration.Proofs.Cron.Instants

/-! A text as a row of fields, from its first character to its last. How a text is cut into fields
depends on the text alone: what a field may hold decides only whether the cut is taken. -/
namespace Orchestration.Cron

def scanFields : List Field → Scan (List Selection)
  | [], cs => some ([], cs)
  | f :: fs, cs =>
    match scanField f cs with
    | none => none
    | some (s, rest) => (scanFields fs rest).map fun (ss, rest) => (s :: ss, rest)

def Reads (fields : List Field) (text : List Char) (ss : List Selection) : Prop :=
  scanFields fields text = some (ss, [])

instance (fields : List Field) (text : List Char) (ss : List Selection) : Decidable (Reads fields text ss) :=
  inferInstanceAs (Decidable (_ = _))

theorem scanFieldsNil {cs rest : List Char} {ss : List Selection} :
    scanFields [] cs = some (ss, rest) ↔ ss = [] ∧ rest = cs := by
  simp only [scanFields, Option.some.injEq, Prod.mk.injEq, eq_comm]

theorem scanFieldsCons {f : Field} {fs : List Field} {cs rest : List Char} {ss : List Selection} :
    scanFields (f :: fs) cs = some (ss, rest) ↔
      ∃ s mid more, scanField f cs = some (s, mid) ∧ scanFields fs mid = some (more, rest) ∧
        ss = s :: more := by
  simp only [scanFields]
  cases scanField f cs with
  | none => simp
  | some row =>
    obtain ⟨s, mid⟩ := row
    simp only [Option.map_eq_some_iff, Prod.mk.injEq, Option.some.injEq]
    constructor
    · intro found
      obtain ⟨⟨more, last⟩, scanned, rfl, rfl⟩ := found
      exact ⟨s, mid, more, ⟨rfl, rfl⟩, scanned, rfl⟩
    · intro found
      obtain ⟨_, _, more, ⟨rfl, rfl⟩, scanned, rfl⟩ := found
      exact ⟨(more, rest), scanned, rfl, rfl⟩

theorem scanFieldsAppend {fs gs : List Field} {cs rest : List Char} {ss : List Selection} :
    scanFields (fs ++ gs) cs = some (ss, rest) ↔
      ∃ a b mid, scanFields fs cs = some (a, mid) ∧ scanFields gs mid = some (b, rest) ∧
        ss = a ++ b := by
  induction fs generalizing cs ss with
  | nil => simp [scanFields]
  | cons f fs ih =>
    simp only [List.cons_append, scanFieldsCons, ih]
    constructor
    · intro found
      obtain ⟨s, mid, more, scanned, ⟨a, b, next, first, last, rfl⟩, rfl⟩ := found
      exact ⟨s :: a, b, next, ⟨s, mid, a, scanned, first, rfl⟩, last, rfl⟩
    · intro found
      obtain ⟨_, b, next, ⟨s, mid, a, scanned, first, rfl⟩, last, rfl⟩ := found
      exact ⟨s, mid, a ++ b, scanned, ⟨a, b, next, first, last, rfl⟩, rfl⟩

theorem scanFieldsLength {fs : List Field} {cs rest : List Char} {ss : List Selection}
    (scanned : scanFields fs cs = some (ss, rest)) : ss.length = fs.length := by
  induction fs generalizing cs ss with
  | nil =>
    cases scanned
    rfl
  | cons f fs ih =>
    obtain ⟨s, mid, more, -, further, rfl⟩ := scanFieldsCons.1 scanned
    exact congrArg Nat.succ (ih further)

/-! A field selects within its bounds. -/

theorem namedWithin {f : Field} {name : String} {n : Nat} (named : f.named? name = some n) :
    f.first ≤ n ∧ n ≤ f.last := by
  obtain ⟨i, found, rfl⟩ := Option.map_eq_some_iff.1 named
  obtain ⟨short, -⟩ := List.findIdx?_eq_some_iff_getElem.1 found
  refine ⟨Nat.le_add_right .., ?_⟩
  cases f <;> simp [Field.names, Field.monthNames, Field.weekdayNames] at short <;>
    simp only [Field.first, Field.last] <;> omega

theorem allowedWithin {f : Field} {n m : Nat} (allowed : f.allowed? n = some m) :
    m = n ∧ f.first ≤ n ∧ n ≤ f.last := by
  simp only [Field.allowed?, Option.ite_none_right_eq_some, Option.some.injEq] at allowed
  exact ⟨allowed.2.symm, allowed.1⟩

theorem orderedWithin {f : Field} {low high : Nat} {p : Progression}
    (ordered : f.ordered? low high = some p) : f.first ≤ p.low ∧ p.high ≤ f.last := by
  simp only [Field.ordered?] at ordered
  split at ordered
  · rename_i l h lowest highest
    split at ordered
    · cases ordered
      obtain ⟨rfl, least, -⟩ := allowedWithin lowest
      obtain ⟨rfl, -, most⟩ := allowedWithin highest
      exact ⟨least, most⟩
    · cases ordered
  · cases ordered

theorem spanWithin {f : Field} {span : Span} {p : Progression} (selected : f.span? span = some p) :
    f.first ≤ p.low ∧ p.high ≤ f.last := by
  cases span with
  | every =>
    cases selected
    exact ⟨Nat.le_refl _, Nat.le_refl _⟩
  | only n =>
    obtain ⟨m, allowed, rfl⟩ := Option.map_eq_some_iff.1 selected
    obtain ⟨rfl, bounds⟩ := allowedWithin allowed
    exact bounds
  | between low high => exact orderedWithin selected
  | betweenNames low high =>
    simp only [Field.span?] at selected
    split at selected
    · exact orderedWithin selected
    · cases selected

theorem stretchWithin {f : Field} {span : Span} {p : Progression}
    (selected : f.stretch? span = some p) : f.first ≤ p.low ∧ p.high ≤ f.last := by
  cases span with
  | only n =>
    obtain ⟨m, allowed, rfl⟩ := Option.map_eq_some_iff.1 selected
    obtain ⟨rfl, least, -⟩ := allowedWithin allowed
    exact ⟨least, Nat.le_refl _⟩
  | every =>
    rw [Field.stretch?] at selected
    · exact spanWithin selected
    · exact nofun
  | between low high =>
    rw [Field.stretch?] at selected
    · exact spanWithin selected
    · exact nofun
  | betweenNames low high =>
    rw [Field.stretch?] at selected
    · exact spanWithin selected
    · exact nofun

theorem itemWithin {f : Field} {item : Item} {p : Progression} (selected : f.item? item = some p) :
    f.first ≤ p.low ∧ p.high ≤ f.last := by
  cases item with
  | plain span => exact spanWithin selected
  | stepped span step =>
    simp only [Field.item?] at selected
    split at selected
    · cases selected
    · obtain ⟨q, stretched, rfl⟩ := Option.map_eq_some_iff.1 selected
      have bounds : f.first ≤ q.low ∧ q.high ≤ f.last := stretchWithin stretched
      exact bounds
  | named name =>
    obtain ⟨n, named, rfl⟩ := Option.map_eq_some_iff.1 selected
    exact namedWithin named

theorem itemsWithin {f : Field} {items : List Item} {s : Selection}
    (selected : items.mapM f.item? = some s) : Within f s := by
  induction items generalizing s with
  | nil =>
    cases selected
    exact fun p inside => absurd inside List.not_mem_nil
  | cons item items ih =>
    simp only [List.mapM_cons, bind, Option.bind_eq_some_iff, pure, Option.some.injEq] at selected
    obtain ⟨p, first, more, rest, rfl⟩ := selected
    exact List.forall_mem_cons.2 ⟨itemWithin first, ih rest⟩

theorem scanFieldIff {f : Field} {cs rest : List Char} {s : Selection} :
    scanField f cs = some (s, rest) ↔ ∃ items after,
      scanItems f.allowsAny (skipGaps cs) = some (items, after) ∧ items.mapM f.item? = some s ∧
        skipGaps after = rest := by
  simp only [scanField]
  cases scanItems f.allowsAny (skipGaps cs) with
  | none => simp
  | some row =>
    obtain ⟨items, after⟩ := row
    simp only [Option.map_eq_some_iff, Prod.mk.injEq, Option.some.injEq]
    constructor
    · intro found
      obtain ⟨selection, selected, rfl, rfl⟩ := found
      exact ⟨items, after, ⟨rfl, rfl⟩, selected, rfl⟩
    · intro found
      obtain ⟨_, _, ⟨rfl, rfl⟩, selected, rfl⟩ := found
      exact ⟨s, selected, rfl, rfl⟩

theorem fieldsWithin {fs : List Field} {cs rest : List Char} {ss : List Selection}
    (scanned : scanFields fs cs = some (ss, rest)) : List.Forall₂ Within fs ss := by
  induction fs generalizing cs ss with
  | nil =>
    cases scanned
    exact .nil
  | cons f fs ih =>
    obtain ⟨s, mid, more, first, further, rfl⟩ := scanFieldsCons.1 scanned
    obtain ⟨items, after, -, selected, -⟩ := scanFieldIff.1 first
    exact .cons (itemsWithin selected) (ih further)

end Orchestration.Cron
