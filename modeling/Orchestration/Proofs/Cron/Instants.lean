import Mathlib.Data.List.Forall2
import Orchestration.Cron.Expression

/-! When an expression ticks. A moment matches when every field selects its part of the moment, and
`next` is the first match after a moment. The search by days stops at the end of the last year, so
that nothing is missed only if no year beyond it is selected. -/
namespace Orchestration

inductive FirstFrom (P : Nat → Prop) (start : Nat) : Option Nat → Prop where
  | found {n} (reached : start ≤ n) (holds : P n) (least : ∀ m, start ≤ m → m < n → ¬ P m) :
      FirstFrom P start (some n)
  | absent (fails : ∀ m, start ≤ m → ¬ P m) : FirstFrom P start none

theorem FirstFrom.earlier {P : Nat → Prop} {start later : Nat} {first : Option Nat}
    (found : FirstFrom P later first) (before : start ≤ later)
    (between : ∀ m, start ≤ m → m < later → ¬ P m) : FirstFrom P start first := by
  cases found with
  | found reached holds least =>
    refine .found (Nat.le_trans before reached) holds fun m behind below => ?_
    by_cases near : m < later
    · exact between m behind near
    · exact least m (Nat.le_of_not_lt near) below
  | absent fails =>
    refine .absent fun m behind => ?_
    by_cases near : m < later
    · exact between m behind near
    · exact fails m (Nat.le_of_not_lt near)

theorem FirstFrom.congr {P Q : Nat → Prop} {start : Nat} {first : Option Nat}
    (found : FirstFrom P start first) (same : ∀ m, start ≤ m → (P m ↔ Q m)) :
    FirstFrom Q start first := by
  cases found with
  | found reached holds least =>
    exact .found reached ((same _ reached).1 holds) fun m behind below other =>
      least m behind below ((same m behind).2 other)
  | absent fails => exact .absent fun m behind other => fails m behind ((same m behind).2 other)

namespace Calendar

theorem takeYearsFrom (year days : Nat) : year ≤ (takeYears year days).1 := by
  fun_induction takeYears year days with
  | case1 year days short => exact Nat.le_refl year
  | case2 year days long ih => exact Nat.le_of_succ_le ih

theorem takeYearsBefore {count year days : Nat} (within : (takeYears year days).1 < year + count) :
    days < (List.range' year count).foldr (fun y rest => yearLength y + rest) 0 := by
  induction count generalizing year days with
  | zero => exact absurd (takeYearsFrom year days) (by omega)
  | succ count ih =>
    rw [takeYears] at within
    rw [List.range'_succ, List.foldr_cons]
    split at within
    · omega
    · have further : (takeYears (year + 1) (days - yearLength year)).1 < year + 1 + count := by omega
      have rest := ih further
      omega

theorem yearFrom (day : Nat) : 1970 ≤ (date day).year := takeYearsFrom 1970 day

theorem beforeYearStart {year day : Nat} (within : (date day).year < year) : day < yearStart year := by
  have least := yearFrom day
  have counted : (takeYears 1970 day).1 < 1970 + (year - 1970) := by
    change (date day).year < _
    omega
  exact takeYearsBefore counted

theorem shortOfDay (moment : Nat) : secondOfDay moment < dayLength := Nat.mod_lt _ (by decide)

theorem dayParts (moment : Nat) : day moment * dayLength + secondOfDay moment = moment :=
  Nat.div_add_mod' ..

theorem dayAt (d : Nat) {second : Nat} (within : second < dayLength) :
    day (d * dayLength + second) = d := by
  simp only [day, dayLength] at within ⊢
  omega

theorem secondAt (d : Nat) {second : Nat} (within : second < dayLength) :
    secondOfDay (d * dayLength + second) = second := by
  simp only [secondOfDay, dayLength] at within ⊢
  omega

theorem dayFrom {d moment : Nat} : d ≤ day moment ↔ d * dayLength ≤ moment := by
  simp only [day, dayLength]
  omega

end Calendar

namespace Cron

def fiveFields : List Field := [.minute, .hour, .day, .month, .weekday]

def sixFields : List Field := .second :: fiveFields

def sevenFields : List Field := sixFields ++ [.year]

def Field.part (f : Field) (moment : Nat) : Nat :=
  match f with
  | second => moment % 60
  | minute => moment / 60 % 60
  | hour => moment / 3600 % 24
  | day => (Calendar.date (Calendar.day moment)).day
  | month => (Calendar.date (Calendar.day moment)).month
  | weekday => Calendar.weekday (Calendar.day moment)
  | year => (Calendar.date (Calendar.day moment)).year

def Within (f : Field) (s : Selection) : Prop := ∀ p ∈ s, f.first ≤ p.low ∧ p.high ≤ f.last

theorem Within.bounds {f : Field} {s : Selection} (within : Within f s) {n : Nat}
    (holds : s.holds n = true) : f.first ≤ n ∧ n ≤ f.last := by
  obtain ⟨p, inside, selects⟩ := List.any_eq_true.1 holds
  simp only [Progression.holds, Bool.and_eq_true, decide_eq_true_eq] at selects
  have bounds := within p inside
  omega

end Cron

namespace CronExpression
open Cron

theorem firstFromSpec (test : Nat → Bool) (start count : Nat) :
    FirstFrom (fun n => n < start + count ∧ test n = true) start (firstFrom test start count) := by
  induction count generalizing start with
  | zero => exact .absent fun m behind both => absurd both.1 (Nat.not_lt.2 behind)
  | succ count ih =>
    rw [firstFrom]
    split
    · rename_i holds
      exact .found (Nat.le_refl _) ⟨by omega, holds⟩ fun m behind below => by omega
    · rename_i fails
      have later : FirstFrom (fun n => n < start + (count + 1) ∧ test n = true) (start + 1)
          (firstFrom test (start + 1) count) :=
        (ih (start + 1)).congr fun m _ => by rw [Nat.add_right_comm, Nat.add_assoc]
      refine later.earlier (Nat.le_succ _) fun m behind below => ?_
      obtain rfl : m = start := by omega
      exact fun both => fails both.2

def selections (e : CronExpression) : List Selection :=
  [e.seconds, e.minutes, e.hours, e.days, e.months, e.weekdays, e.years]

theorem holdsIff {e : CronExpression} {moment : Nat} : e.holds moment = true ↔
    List.Forall₂ (fun f s => Selection.holds s (f.part moment) = true) sevenFields e.selections := by
  have hour : Calendar.secondOfDay moment / 3600 = moment / 3600 % 24 := by
    simp only [Calendar.secondOfDay, Calendar.dayLength]
    omega
  have minute : Calendar.secondOfDay moment / 60 % 60 = moment / 60 % 60 := by
    simp only [Calendar.secondOfDay, Calendar.dayLength]
    omega
  have second : Calendar.secondOfDay moment % 60 = moment % 60 := by
    simp only [Calendar.secondOfDay, Calendar.dayLength]
    omega
  simp only [holds, dayHolds, timeHolds, Calendar.timeOfDay, hour, minute, second, sevenFields,
    sixFields, fiveFields, selections, List.cons_append, List.nil_append, List.forall₂_cons,
    List.forall₂_nil_left_iff, Field.part, Bool.and_eq_true]
  tauto

theorem holdsSplit (e : CronExpression) (moment : Nat) : e.holds moment = true ↔
    e.dayHolds (Calendar.day moment) = true ∧
      Calendar.secondOfDay moment < Calendar.dayLength ∧
      e.timeHolds (Calendar.secondOfDay moment) = true := by
  simp [holds, Calendar.shortOfDay]

theorem nextTimeSpec (e : CronExpression) {start : Nat} (within : start ≤ Calendar.dayLength) :
    FirstFrom (fun s => s < Calendar.dayLength ∧ e.timeHolds s = true) start (e.nextTime start) := by
  have found := firstFromSpec e.timeHolds start (Calendar.dayLength - start)
  rwa [Nat.add_sub_of_le within] at found

theorem nextDaySpec {e : CronExpression} (bounded : Within .year e.years) (day : Nat) :
    FirstFrom (fun d => e.dayHolds d = true) day (firstFrom e.dayHolds day (horizon - day)) := by
  refine (firstFromSpec e.dayHolds day (horizon - day)).congr fun d reached => ?_
  constructor
  · intro both
    exact both.2
  · intro holds
    refine ⟨?_, holds⟩
    simp only [dayHolds, Bool.and_eq_true] at holds
    have year := (bounded.bounds holds.1.1.1).2
    have before : d < horizon := Calendar.beforeYearStart (Nat.lt_succ_of_le year)
    omega

theorem onDay {e : CronExpression} {day start second : Nat} (today : e.dayHolds day = true)
    (first : FirstFrom (fun s => s < Calendar.dayLength ∧ e.timeHolds s = true) start (some second)) :
    FirstFrom (fun m => e.holds m = true) (day * Calendar.dayLength + start)
      (some (day * Calendar.dayLength + second)) := by
  cases first with
  | found reached holds least =>
    obtain ⟨within, time⟩ := holds
    have hit : e.holds (day * Calendar.dayLength + second) = true := by
      rw [holdsSplit, Calendar.dayAt day within, Calendar.secondAt day within]
      exact ⟨today, within, time⟩
    refine .found (Nat.add_le_add_left reached _) hit fun m behind before hits => ?_
    refine least (Calendar.secondOfDay m) ?_ ?_ ((holdsSplit e m).1 hits).2
    all_goals
      simp only [Calendar.secondOfDay, Calendar.dayLength] at within behind before ⊢
      omega

theorem offDay {e : CronExpression} {day start : Nat}
    (idle : e.dayHolds day = true →
      FirstFrom (fun s => s < Calendar.dayLength ∧ e.timeHolds s = true) start none) :
    ∀ m, day * Calendar.dayLength + start ≤ m → m < (day + 1) * Calendar.dayLength →
      ¬ e.holds m = true := by
  intro m behind before hits
  obtain ⟨holds, time⟩ := (holdsSplit e m).1 hits
  have here : Calendar.day m = day ∧ start ≤ Calendar.secondOfDay m := by
    simp only [Calendar.day, Calendar.secondOfDay, Calendar.dayLength] at behind before ⊢
    omega
  rw [here.1] at holds
  cases idle holds with
  | absent fails => exact fails _ here.2 time

theorem fromDaySpec {e : CronExpression} (bounded : Within .year e.years) (day : Nat) :
    FirstFrom (fun m => e.holds m = true) (day * Calendar.dayLength) (e.fromDay day) := by
  have days := nextDaySpec bounded day
  have time := nextTimeSpec e (Nat.zero_le Calendar.dayLength)
  unfold fromDay
  generalize firstFrom e.dayHolds day (horizon - day) = found at days ⊢
  cases days with
  | absent fails =>
    exact .absent fun m behind hits =>
      fails _ (Calendar.dayFrom.2 behind) ((holdsSplit e m).1 hits).1
  | found reached holds least =>
    generalize e.nextTime 0 = when at time ⊢
    cases when with
    | none =>
      cases time with
      | absent fails =>
        exact .absent fun m _ hits => fails _ (Nat.zero_le _) ((holdsSplit e m).1 hits).2
    | some second =>
      have hit := onDay holds time
      rw [Nat.add_zero] at hit
      refine hit.earlier (Nat.mul_le_mul_right _ reached) fun m behind before hits => ?_
      refine least _ (Calendar.dayFrom.2 behind) ?_ ((holdsSplit e m).1 hits).1
      exact Nat.lt_of_not_le fun late => absurd (Calendar.dayFrom.1 late) (Nat.not_le.2 before)

theorem nextFirst {e : CronExpression} (bounded : Within .year e.years) (moment : Nat) :
    FirstFrom (fun m => e.holds m = true) (moment + 1) (e.next moment) := by
  have cut := Calendar.dayParts (moment + 1)
  have short := Calendar.shortOfDay (moment + 1)
  have time := nextTimeSpec e (Nat.le_of_lt short)
  have later (idle : e.dayHolds (Calendar.day (moment + 1)) = true →
      FirstFrom (fun s => s < Calendar.dayLength ∧ e.timeHolds s = true)
        (Calendar.secondOfDay (moment + 1)) none) :
      FirstFrom (fun m => e.holds m = true) (moment + 1)
        (e.fromDay (Calendar.day (moment + 1) + 1)) := by
    have rest := offDay idle
    rw [cut] at rest
    exact (fromDaySpec bounded _).earlier (by rw [Nat.succ_mul]; omega) rest
  -- the rest of the day goes by seconds; only when it has no match are the days after it searched
  simp only [next]
  split
  · rename_i holds
    generalize e.nextTime (Calendar.secondOfDay (moment + 1)) = when at time ⊢
    cases when with
    | none => exact later fun _ => time
    | some second =>
      have hit := onDay holds time
      rwa [cut] at hit
  · rename_i fails
    exact later fun holds => absurd holds fails

def TicksAt (e : CronExpression) (P : Nat → Prop) : Prop :=
  ∀ moment, (e.holds moment = true ↔ P moment) ∧ FirstFrom P (moment + 1) (e.next moment)

theorem ticksAt {e : CronExpression} {P : Nat → Prop} (bounded : Within .year e.years)
    (same : ∀ moment, e.holds moment = true ↔ P moment) : e.TicksAt P :=
  fun moment => ⟨same moment, (nextFirst bounded moment).congr fun m _ => same m⟩

end CronExpression
end Orchestration
