import Orchestration.Proofs.Cron.Cut

/-! What a row of fields means: the expression that is read from it and the moments at which that
ticks. Seconds and years may be left out of a row, for second 0 and for any year up to the last. -/
namespace Orchestration

namespace Cron

def datedFields : List Field := fiveFields ++ [.year]

def atZero : Selection := [⟨0, 0, 1⟩]

structure Falls (fields : List Field) (ss : List Selection) (moment : Nat) : Prop where
  selected : List.Forall₂ (fun f s => Selection.holds s (f.part moment) = true) fields ss
  second : .second ∉ fields → Field.second.part moment = 0
  year : Field.year.part moment ≤ Field.year.last

def Means (fields : List Field) (ss : List Selection) (e : CronExpression) : Prop :=
  e.selections = (if .second ∈ fields then ss else atZero :: ss) ++
    (if .year ∈ fields then [] else [CronExpression.allYears])

theorem scanFieldNil (f : Field) : scanField f [] = none := by
  rw [scanField, show skipGaps [] = [] from rfl, scanItemsNil]

theorem readsYear {cs : List Char} {years : Selection} :
    CronExpression.scanYears cs = some years ↔
      (cs = [] ∧ years = CronExpression.allYears) ∨ Reads [.year] cs [years] := by
  have read : Reads [.year] cs [years] ↔ scanField .year cs = some (years, []) := by
    simp [Reads, scanFieldsCons, scanFieldsNil]
  rw [read]
  cases cs with
  | nil => simp [CronExpression.scanYears, scanFieldNil, eq_comm]
  | cons c cs =>
    simp only [CronExpression.scanYears, List.cons_ne_nil, false_and, false_or]
    split
    · rename_i years' scanned
      simp [scanned]
    · rename_i other
      constructor
      · exact nofun
      · intro scanned
        exact absurd scanned (other years)

end Cron

namespace CronExpression
open Cron

theorem ofCharsIff {cs : List Char} {e : CronExpression} : ofChars cs = some e ↔
    ∃ ss rest, scanFields sixFields cs = some (ss, rest) ∧ scanYears rest = some e.years ∧
      e.selections = ss ++ [e.years] := by
  constructor
  · intro read
    simp only [ofChars, bind, Option.bind_eq_some_iff, Option.some.injEq, Prod.exists] at read
    obtain ⟨s, r1, second, m, r2, minute, h, r3, hour, d, r4, day, mo, r5, month, w, rest, weekday,
      y, years, rfl⟩ := read
    refine ⟨[s, m, h, d, mo, w], rest, ?_, years, rfl⟩
    simp only [sixFields, fiveFields, scanFieldsCons, scanFieldsNil]
    exact ⟨s, r1, _, second, ⟨m, r2, _, minute, ⟨h, r3, _, hour, ⟨d, r4, _, day, ⟨mo, r5, _, month,
      ⟨w, rest, _, weekday, ⟨rfl, rfl⟩, rfl⟩, rfl⟩, rfl⟩, rfl⟩, rfl⟩, rfl⟩
  · intro scanned
    obtain ⟨ss, rest, fields, years, same⟩ := scanned
    simp only [sixFields, fiveFields, scanFieldsCons, scanFieldsNil] at fields
    obtain ⟨s, r1, _, second, ⟨m, r2, _, minute, ⟨h, r3, _, hour, ⟨d, r4, _, day, ⟨mo, r5, _, month,
      ⟨w, _, _, weekday, ⟨rfl, rfl⟩, rfl⟩, rfl⟩, rfl⟩, rfl⟩, rfl⟩, rfl⟩ := fields
    obtain ⟨_, _, _, _, _, _, y⟩ := e
    cases same
    simp [ofChars, second, minute, hour, day, month, weekday, years]

theorem selectionsAppend {e : CronExpression} {ss : List Selection} {years : List Selection}
    (same : e.selections = ss ++ years) (one : [e.years].length = years.length) :
    [e.seconds, e.minutes, e.hours, e.days, e.months, e.weekdays] = ss ∧ [e.years] = years :=
  List.append_inj' same one

section
variable {ss : List Selection} {e : CronExpression}

theorem meansFive : Means fiveFields ss e ↔ e.selections = atZero :: (ss ++ [allYears]) := by
  rw [Means, if_neg (by decide), if_neg (by decide), List.cons_append]

theorem meansDated : Means datedFields ss e ↔ e.selections = atZero :: ss := by
  rw [Means, if_neg (by decide), if_pos (by decide), List.append_nil]

theorem meansSix : Means sixFields ss e ↔ e.selections = ss ++ [allYears] := by
  rw [Means, if_pos (by decide), if_neg (by decide)]

theorem meansSeven : Means sevenFields ss e ↔ e.selections = ss := by
  rw [Means, if_pos (by decide), if_pos (by decide), List.append_nil]

end

theorem ofCharsFull {cs : List Char} {e : CronExpression} : ofChars cs = some e ↔
    ∃ fields ss, (fields = sixFields ∨ fields = sevenFields) ∧ Reads fields cs ss ∧
      Means fields ss e := by
  rw [ofCharsIff]
  constructor
  · intro read
    obtain ⟨ss, rest, fields, years, same⟩ := read
    obtain ⟨rfl, all⟩ | dated := readsYear.1 years
    · exact ⟨sixFields, ss, .inl rfl, fields, meansSix.2 (all ▸ same)⟩
    · exact ⟨sevenFields, e.selections, .inr rfl,
        scanFieldsAppend.2 ⟨ss, [e.years], rest, fields, dated, same⟩, meansSeven.2 rfl⟩
  · intro read
    obtain ⟨fields, ss, rfl | rfl, reads, means⟩ := read
    · have same := meansSix.1 means
      obtain ⟨-, all⟩ := selectionsAppend same rfl
      exact ⟨ss, [], reads, readsYear.2 (.inl ⟨rfl, (List.cons.inj all).1⟩), all ▸ same⟩
    · obtain rfl := meansSeven.1 means
      obtain ⟨a, b, mid, first, last, same⟩ := scanFieldsAppend.1 reads
      obtain ⟨-, rfl⟩ := selectionsAppend same (scanFieldsLength last).symm
      exact ⟨a, mid, first, readsYear.2 (.inr last), same⟩

theorem ofCharsZero {cs : List Char} {e : CronExpression} (settled : skipGaps cs = cs)
    (unmarked : ¬ Marked cs) : ofChars ('0' :: ' ' :: cs) = some e ↔
      ∃ fields ss, (fields = fiveFields ∨ fields = datedFields) ∧ Reads fields cs ss ∧
        Means fields ss e := by
  have zero : scanField .second ('0' :: ' ' :: cs) = some (atZero, cs) := by
    rw [zeroField (settled.symm ▸ unmarked), settled, atZero]
  have reads (fs : List Field) (ss : List Selection) : Reads (.second :: fs) ('0' :: ' ' :: cs) ss ↔
      ∃ more, Reads fs cs more ∧ ss = atZero :: more := by
    simp [Reads, scanFieldsCons, zero]
  rw [ofCharsFull]
  constructor
  · intro read
    obtain ⟨fields, ss, rfl | rfl, read, means⟩ := read
    · obtain ⟨more, inner, rfl⟩ := (reads fiveFields ss).1 read
      exact ⟨fiveFields, more, .inl rfl, inner, meansFive.2 (meansSix.1 means)⟩
    · obtain ⟨more, inner, rfl⟩ := (reads datedFields ss).1 read
      exact ⟨datedFields, more, .inr rfl, inner, meansDated.2 (meansSeven.1 means)⟩
  · intro read
    obtain ⟨fields, ss, rfl | rfl, read, means⟩ := read
    · exact ⟨sixFields, atZero :: ss, .inl rfl, (reads fiveFields _).2 ⟨ss, read, rfl⟩,
        meansSix.2 (meansFive.1 means)⟩
    · exact ⟨sevenFields, atZero :: ss, .inr rfl, (reads datedFields _).2 ⟨ss, read, rfl⟩,
        meansSeven.2 (meansDated.1 means)⟩

theorem ofCharsGlued {cs : List Char} (marked : Marked cs) :
    ofChars ('0' :: ' ' :: cs) = ofChars ('0' :: cs) := by
  simp only [ofChars, zeroGlued marked]

/-! What the fields mean. -/

theorem forall₂Append {α β : Type} {R : α → β → Prop} {as as' : List α} {bs bs' : List β}
    (same : as.length = bs.length) : List.Forall₂ R (as ++ as') (bs ++ bs') ↔
      List.Forall₂ R as bs ∧ List.Forall₂ R as' bs' := by
  induction as generalizing bs with
  | nil =>
    obtain rfl := List.eq_nil_of_length_eq_zero same.symm
    simp
  | cons a as ih =>
    cases bs with
    | nil => cases same
    | cons b bs => simp [ih (Nat.succ.inj same), and_assoc]

def forms : List (List Field) := [fiveFields, datedFields, sixFields, sevenFields]

theorem meansForall {R : Field → Selection → Prop} {fields : List Field} {ss : List Selection}
    {e : CronExpression} (form : fields ∈ forms) (same : fields.length = ss.length)
    (means : Means fields ss e) : List.Forall₂ R sevenFields e.selections ↔
      List.Forall₂ R fields ss ∧ (.second ∉ fields → R .second atZero) ∧
        (.year ∉ fields → R .year allYears) := by
  have before (rest : List Selection) : List.Forall₂ R sevenFields (atZero :: rest) ↔
      R .second atZero ∧ List.Forall₂ R datedFields rest := List.forall₂_cons
  have last : List.Forall₂ R [.year] [allYears] ↔ R .year allYears := by
    rw [List.forall₂_cons, and_iff_left .nil]
  simp only [forms, List.mem_cons, List.not_mem_nil, or_false] at form
  obtain rfl | rfl | rfl | rfl := form
  · rw [meansFive.1 means, before, datedFields, forall₂Append same, last]
    constructor
    · intro selected
      exact ⟨selected.2.1, fun _ => selected.1, fun _ => selected.2.2⟩
    · intro selected
      exact ⟨selected.2.1 (by decide), selected.1, selected.2.2 (by decide)⟩
  · rw [meansDated.1 means, before]
    constructor
    · intro selected
      exact ⟨selected.2, fun _ => selected.1, fun absent => absurd (by decide) absent⟩
    · intro selected
      exact ⟨selected.2.1 (by decide), selected.1⟩
  · rw [meansSix.1 means, sevenFields, forall₂Append same, last]
    constructor
    · intro selected
      exact ⟨selected.1, fun absent => absurd (by decide) absent, fun _ => selected.2⟩
    · intro selected
      exact ⟨selected.1, selected.2.2 (by decide)⟩
  · rw [meansSeven.1 means]
    constructor
    · intro selected
      exact ⟨selected, fun absent => absurd (by decide) absent, fun absent => absurd (by decide) absent⟩
    · exact And.left

theorem ofSelections : ∀ {row : List Selection}, row.length = 7 → ∃ e, selections e = row
  | [s, m, h, d, mo, w, y], _ => ⟨⟨s, m, h, d, mo, w, y⟩, rfl⟩

theorem meansExists {fields : List Field} {ss : List Selection} (form : fields ∈ forms)
    (same : fields.length = ss.length) : ∃ e, Means fields ss e := by
  refine ofSelections ?_
  simp only [forms, List.mem_cons, List.not_mem_nil, or_false] at form
  obtain rfl | rfl | rfl | rfl := form <;> simp [← same, fiveFields, datedFields, sixFields, sevenFields]

theorem zeroHolds (n : Nat) : Selection.holds atZero n = true ↔ n = 0 := by
  simp [atZero, Selection.holds, Progression.holds, Nat.mod_one]

theorem allYearsHold (year : Nat) : Selection.holds allYears year = true ↔
    Field.year.first ≤ year ∧ year ≤ Field.year.last := by
  simp [allYears, Selection.holds, Progression.holds, Nat.mod_one]

theorem meansTicks {fields : List Field} {ss : List Selection} {e : CronExpression}
    (form : fields ∈ forms) (within : List.Forall₂ Within fields ss) (means : Means fields ss e) :
    e.TicksAt (Falls fields ss) := by
  have same : fields.length = ss.length := within.length_eq
  have zero : Within .second atZero := by simp [Within, atZero, Field.first, Field.last]
  have all : Within .year allYears := by simp [Within, allYears]
  have every := (meansForall form same means).2 ⟨within, fun _ => zero, fun _ => all⟩
  have bounded : Within .year e.years := by
    simp only [sevenFields, sixFields, fiveFields, selections, List.cons_append, List.nil_append,
      List.forall₂_cons] at every
    exact every.2.2.2.2.2.2.1
  refine ticksAt bounded fun moment => ?_
  have years : e.holds moment = true → Field.year.part moment ≤ Field.year.last := by
    intro holds
    simp only [CronExpression.holds, dayHolds, Bool.and_eq_true] at holds
    exact (bounded.bounds holds.1.1.1.1).2
  have falls : e.holds moment = true ↔ _ := holdsIff.trans (meansForall form same means)
  rw [zeroHolds, allYearsHold] at falls
  constructor
  · intro holds
    obtain ⟨selected, second, -⟩ := falls.1 holds
    exact ⟨selected, second, years holds⟩
  · intro falling
    exact falls.2 ⟨falling.selected, falling.second, fun _ => ⟨Calendar.yearFrom _, falling.year⟩⟩

end CronExpression
end Orchestration
