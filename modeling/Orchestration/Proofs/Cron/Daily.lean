import Mathlib.Algebra.Ring.Nat
import Orchestration.Proofs.Cron.Reading

/-! Expressions that leave the day open. Every day of every year up to the last is selected by the
fields that ask for any value, so such an expression ticks by the clock alone. -/
namespace Orchestration

namespace Calendar

theorem takeYearsWithin (year days : Nat) : (takeYears year days).2 < yearLength (takeYears year days).1 := by
  fun_induction takeYears year days with
  | case1 year days short => exact short
  | case2 year days long ih => exact ih

theorem takeMonthsWithin (month : Nat) {days : Nat} {lengths : List Nat} (within : days < lengths.sum) :
    month ≤ (takeMonths month days lengths).1 ∧
      (takeMonths month days lengths).1 < month + lengths.length ∧
      ∃ length ∈ lengths, (takeMonths month days lengths).2 < length := by
  induction lengths generalizing month days with
  | nil => exact absurd within (Nat.not_lt_zero days)
  | cons length rest ih =>
    rw [List.sum_cons] at within
    rw [takeMonths, List.length_cons]
    split
    · rename_i short
      exact ⟨Nat.le_refl _, by omega, length, List.mem_cons_self, short⟩
    · have later : days - length < rest.sum := by omega
      obtain ⟨after, before, other, inside, short⟩ := ih (month + 1) later
      exact ⟨by omega, by omega, other, List.mem_cons_of_mem _ inside, short⟩

theorem monthLengthsSum (year : Nat) : (monthLengths year).sum = yearLength year := by
  unfold monthLengths yearLength
  split <;> rfl

theorem monthLengthsShort {year length : Nat} (inside : length ∈ monthLengths year) : length ≤ 31 := by
  simp only [monthLengths, List.mem_cons, List.not_mem_nil, or_false] at inside
  split at inside <;> omega

theorem dateWithin (day : Nat) : 1 ≤ (date day).month ∧ (date day).month ≤ 12 ∧
    1 ≤ (date day).day ∧ (date day).day ≤ 31 := by
  have rest := takeYearsWithin 1970 day
  rw [← monthLengthsSum] at rest
  obtain ⟨after, before, length, inside, short⟩ := takeMonthsWithin 1 rest
  have most := monthLengthsShort inside
  change _ < 1 + 12 at before
  exact ⟨after, Nat.le_of_lt_succ (by rwa [Nat.add_comm] at before), Nat.le_add_left ..,
    Nat.le_trans short most⟩

theorem weekdayWithin (day : Nat) : 1 ≤ weekday day ∧ weekday day ≤ 7 := by
  unfold weekday
  omega

theorem takeYearsReach {count year days : Nat}
    (within : days < (List.range' year count).foldr (fun y rest => yearLength y + rest) 0) :
    (takeYears year days).1 < year + count := by
  induction count generalizing year days with
  | zero => exact absurd within (Nat.not_lt_zero days)
  | succ count ih =>
    rw [List.range'_succ, List.foldr_cons] at within
    rw [takeYears]
    split
    · exact Nat.lt_add_of_pos_right (Nat.succ_pos count)
    · have short : days - yearLength year <
          (List.range' (year + 1) count).foldr (fun y rest => yearLength y + rest) 0 := by omega
      have rest := ih short
      omega

theorem yearBefore {year : Nat} (since : 1970 ≤ year) (day : Nat) :
    (date day).year < year ↔ day < yearStart year := by
  constructor
  · exact beforeYearStart
  · intro within
    have reach := takeYearsReach within
    change (date day).year < _ at reach
    omega

end Calendar

namespace CronExpression
open Cron

def Covered (day : Nat) : Prop := (Calendar.date day).year ≤ Field.year.last

theorem coveredBefore {day later : Nat} (covered : Covered later) (before : day ≤ later) : Covered day := by
  have since : 1970 ≤ Field.year.last + 1 := by decide
  refine Nat.le_of_lt_succ ((Calendar.yearBefore since day).2 ?_)
  exact Nat.lt_of_le_of_lt before ((Calendar.yearBefore since later).1 (Nat.lt_succ_of_le covered))

def daily (minutes hours : Selection) : CronExpression :=
  ⟨atZero, minutes, hours, [⟨1, 31, 1⟩], [⟨1, 12, 1⟩], [⟨1, 7, 1⟩], allYears⟩

theorem stretchHolds (low high n : Nat) :
    Selection.holds [⟨low, high, 1⟩] n = true ↔ low ≤ n ∧ n ≤ high := by
  simp [Selection.holds, Progression.holds, Nat.mod_one]

theorem dailyHolds {minutes hours : Selection} {moment : Nat} :
    (daily minutes hours).holds moment = true ↔ Covered (Calendar.day moment) ∧ moment % 60 = 0 ∧
      minutes.holds (moment / 60 % 60) = true ∧ hours.holds (moment / 3600 % 24) = true := by
  obtain ⟨month, lastMonth, day, lastDay⟩ := Calendar.dateWithin (Calendar.day moment)
  obtain ⟨weekday, lastWeekday⟩ := Calendar.weekdayWithin (Calendar.day moment)
  have year := Calendar.yearFrom (Calendar.day moment)
  rw [holdsIff]
  simp only [daily, selections, sevenFields, sixFields, fiveFields, List.cons_append, List.nil_append,
    List.forall₂_cons, List.forall₂_nil_left_iff, zeroHolds, stretchHolds, allYearsHold, Field.part,
    Field.first, Covered, year, month, lastMonth, day, lastDay, weekday, lastWeekday, true_and,
    and_true]
  tauto

theorem dailyBounded (minutes hours : Selection) : Within .year (daily minutes hours).years := by
  simp [Within, daily, allYears]

end CronExpression
end Orchestration
