import Orchestration.Proofs.Cron.Daily
import Orchestration.Proofs.Cron.Service
import Orchestration.Schedule.Spec

/-! What is drawn for a class of schedules. Whatever the random words are, the number stays
below the bound of its class, and every expression of a class can be read. Two draws
of one schedule differ in the expression alone, and only when it is to be kept. -/
namespace Orchestration

namespace Draw

def Narrow (words : List Nat) : Prop := ∀ word ∈ words, word < wordSize

theorem takeBelow {bound word n : Nat} (narrow : word < wordSize) (taken : take? bound word = some n)
    (positive : 0 < bound) : n < bound := by
  simp only [take?] at taken
  split at taken
  · cases taken
    rw [Nat.div_lt_iff_lt_mul (by decide)]
    exact (Nat.mul_lt_mul_left positive).2 narrow
  · cases taken

theorem belowBound {bound : Nat} (positive : 0 < bound) {words : List Nat} (narrow : Narrow words) :
    below bound words < bound := by
  induction words with
  | nil => exact positive
  | cons word rest ih =>
    obtain ⟨first, others⟩ := List.forall_mem_cons.1 narrow
    rw [below]
    cases taken : take? bound word with
    | none => exact ih others
    | some n => exact takeBelow first taken positive

theorem restNarrow {bound : Nat} {words : List Nat} (narrow : Narrow words) :
    Narrow (rest bound words) := by
  induction words with
  | nil => exact narrow
  | cons word more ih =>
    obtain ⟨-, others⟩ := List.forall_mem_cons.1 narrow
    rw [rest]
    split
    · exact others
    · exact ih others

theorem narrowOfWords (words : List UInt32) : Narrow (words.map UInt32.toNat) := by
  intro word inside
  obtain ⟨w, -, rfl⟩ := List.mem_map.1 inside
  exact w.toNat_lt

end Draw

open CronExpression

namespace ScheduleClass

def timing : ScheduleClass → Nat → CronExpression
  | .daily, n => CronExpression.daily [⟨0, 0, 1⟩] [⟨n, n, 1⟩]
  | .hourly, n => CronExpression.daily [⟨n, n, 1⟩] [⟨0, 23, 1⟩]
  | .quarterly, n =>
    CronExpression.daily ([n, n + 15, n + 30, n + 45].map fun m => ⟨m, m, 1⟩) [⟨0, 23, 1⟩]

theorem expressionRead (c : ScheduleClass) {n : Nat} (inside : n < c.bound) :
    CronExpression.read (c.expression n) = .ok (c.timing n) := by
  -- the classes are finite, so each expression is read as it stands
  have read : (CronExpression.read (c.expression n)).toOption = some (c.timing n) := by
    cases c with
    | daily =>
      exact (by decide +kernel : ∀ n < 24, (CronExpression.read (daily.expression n)).toOption =
        some (daily.timing n)) n inside
    | hourly =>
      exact (by decide +kernel : ∀ n < 60, (CronExpression.read (hourly.expression n)).toOption =
        some (hourly.timing n)) n inside
    | quarterly =>
      exact (by decide +kernel : ∀ n < 15, (CronExpression.read (quarterly.expression n)).toOption =
        some (quarterly.timing n)) n inside
  cases whole : CronExpression.read (c.expression n) with
  | error e =>
    rw [whole] at read
    cases read
  | ok e =>
    rw [whole] at read
    rw [Option.some.inj read]

theorem expressionReadable (c : ScheduleClass) {n : Nat} (inside : n < c.bound) :
    Readable (c.expression n) := ⟨c.timing n, c.expressionRead inside⟩

end ScheduleClass

namespace ScheduleSpec

def Sound (s : ScheduleSpec) : Prop := s.preserve = true → Readable s.expression

structure Alike (s t : ScheduleSpec) : Prop where
  preserve : t.preserve = s.preserve
  expression : s.preserve = false → t.expression = s.expression

theorem resolveSound (schedule : String) {words : List Nat} (narrow : Draw.Narrow words) :
    (resolve schedule words).1.Sound ∧ Draw.Narrow (resolve schedule words).2 := by
  rw [resolve]
  cases ScheduleClass.parse schedule with
  | none =>
    refine ⟨fun kept => ?_, narrow⟩
    cases kept
  | some c =>
    have positive : 0 < c.bound := by cases c <;> decide
    exact ⟨fun _ => c.expressionReadable (Draw.belowBound positive narrow), Draw.restNarrow narrow⟩

theorem resolveAlike (schedule : String) (first second : List Nat) :
    (resolve schedule first).1.Alike (resolve schedule second).1 := by
  simp only [resolve]
  cases ScheduleClass.parse schedule with
  | none => exact ⟨rfl, fun _ => rfl⟩
  | some c =>
    refine ⟨rfl, fun loose => ?_⟩
    cases loose

end ScheduleSpec
end Orchestration
