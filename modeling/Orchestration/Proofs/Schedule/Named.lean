import Mathlib.Data.Int.CardIntervalMod
import Mathlib.Data.Nat.Periodic
import Orchestration.Proofs.Schedule.Drawn

/-! When the schedules of a class tick. Whatever is drawn, the moments of one schedule leave one
remainder by the length of its period, up to the end of the last year: so many fall into every day
or hour, and two that follow each other lie one period apart wherever hours and days end. -/
namespace Orchestration

namespace CronExpression

def matchesIn (e : CronExpression) (start length : Nat) : Nat :=
  ((Finset.Ico start (start + length)).filter fun moment => e.holds moment = true).card

structure Consecutive (e : CronExpression) (first second : Nat) : Prop where
  holdsFirst : e.holds first = true
  holdsSecond : e.holds second = true
  ordered : first < second
  between : ∀ moment, first < moment → moment < second → ¬ e.holds moment = true

def Recurs (e : CronExpression) (period offset : Nat) : Prop :=
  ∀ moment, e.holds moment = true ↔ Covered (Calendar.day moment) ∧ moment % period = offset

section
variable {e : CronExpression} {period offset : Nat}

theorem Recurs.matches (recurs : e.Recurs period offset) (short : offset < period) {start : Nat}
    (times : Nat) (covered : ∀ moment, moment < start + times * period → Covered (Calendar.day moment)) :
    e.matchesIn start (times * period) = times := by
  have positive : 0 < period := Nat.zero_lt_of_lt short
  have remainder : ∀ moment ∈ Finset.Ico start (start + times * period),
      e.holds moment = true ↔ moment ≡ offset [MOD period] := by
    intro moment inside
    rw [recurs moment, Nat.ModEq, Nat.mod_eq_of_lt short]
    exact and_iff_right (covered moment (Finset.mem_Ico.1 inside).2)
  have periodic : Function.Periodic (· ≡ offset [MOD period]) (times * period) := by
    intro moment
    simp [Nat.ModEq]
  rw [matchesIn, Finset.filter_congr remainder, Nat.filter_Ico_card_eq_of_periodic _ _ _ periodic,
    Nat.count_modEq_card _ positive, Nat.mul_div_cancel _ positive, Nat.mul_mod_left,
    if_neg (Nat.not_lt_zero _), Nat.add_zero]

theorem Recurs.apart (recurs : e.Recurs period offset) (positive : 0 < period) {first second : Nat}
    (consecutive : e.Consecutive first second) : second = first + period := by
  obtain ⟨holds, holds', ordered, between⟩ := consecutive
  obtain ⟨-, remainder⟩ := (recurs first).1 holds
  obtain ⟨covered, remainder'⟩ := (recurs second).1 holds'
  have reach : first + period ≤ second := by
    have divides : period ∣ second - first :=
      (Nat.modEq_iff_dvd' (Nat.le_of_lt ordered)).1 (remainder.trans remainder'.symm)
    have least := Nat.le_of_dvd (Nat.sub_pos_of_lt ordered) divides
    omega
  -- one period on there is a match, so the next match can not lie behind it
  by_contra further
  have early : first + period < second := by omega
  refine between (first + period) (Nat.lt_add_of_pos_right positive) early ((recurs _).2 ⟨?_, ?_⟩)
  · exact coveredBefore covered (Nat.div_le_div_right reach)
  · rw [Nat.add_mod_right, remainder]

end

end CronExpression

namespace ScheduleClass
open CronExpression

/-- The text, trimmed, in small letters and with hyphens for underscores, is the name of the class. -/
def Named (text : String) (c : ScheduleClass) : Prop :=
  ((Text.trim text).toLower.map fun letter => if letter = '_' then '-' else letter) = c.name

theorem namedUnique {text : String} {c d : ScheduleClass} (one : Named text c) (other : Named text d) :
    c = d := by
  have same : c.name = d.name := one.symm.trans other
  revert same
  cases c <;> cases d <;> decide

theorem parseIff {text : String} {c : ScheduleClass} : parse text = some c ↔ Named text c := by
  have plain (d : ScheduleClass) : Named text d ↔ d.name.toList =
      (Text.trimChars text.toList).map fun c => if c.toLower = '_' then '-' else c.toLower := by
    have small : (Text.trim text).toLower = (Text.trim text).map Char.toLower := rfl
    rw [Named, small, ← String.toList_inj, eq_comm]
    simp [Text.trim, Function.comp_def]
  constructor
  · intro parsed
    exact (plain c).2 (by simpa using List.find?_some parsed)
  · intro named
    cases parsed : parse text with
    | none =>
      have unnamed := List.find?_eq_none.1 parsed c (by cases c <;> simp)
      exact absurd ((plain c).1 named) (by simpa using unnamed)
    | some d => rw [namedUnique ((plain d).2 (by simpa using List.find?_some parsed)) named]

def period : ScheduleClass → Nat
  | daily => 86400
  | hourly => 3600
  | quarterly => 900

def offset : ScheduleClass → Nat → Nat
  | daily, n => n * 3600
  | hourly, n => n * 60
  | quarterly, n => n * 60

theorem offsetShort (c : ScheduleClass) {n : Nat} (inside : n < c.bound) : c.offset n < c.period := by
  cases c <;> simp only [offset, period, bound] at inside ⊢ <;> omega

theorem timingRecurs (c : ScheduleClass) {n : Nat} (inside : n < c.bound) :
    (c.timing n).Recurs c.period (c.offset n) := by
  intro moment
  cases c with
  | daily =>
    rw [timing, dailyHolds, stretchHolds, stretchHolds, and_congr_right_iff]
    intro _
    simp only [offset, period, bound] at inside ⊢
    omega
  | hourly =>
    rw [timing, dailyHolds, stretchHolds, stretchHolds, and_congr_right_iff]
    intro _
    simp only [offset, period, bound] at inside ⊢
    omega
  | quarterly =>
    have minutes : Cron.Selection.holds ([n, n + 15, n + 30, n + 45].map fun m => ⟨m, m, 1⟩)
        (moment / 60 % 60) = true ↔ moment / 60 % 15 = n := by
      simp [Cron.Selection.holds, Cron.Progression.holds, Nat.mod_one]
      simp only [bound] at inside
      omega
    rw [timing, dailyHolds, minutes, stretchHolds, and_congr_right_iff]
    intro _
    simp only [offset, period, bound] at inside ⊢
    omega

/-- What the name of a class says of an expression: on the hour once on every day, at second 0 once
in every hour, or four times in every hour with a quarter of an hour from each to the next. -/
def Promises (e : CronExpression) : ScheduleClass → Prop
  | daily =>
    (∀ day, Covered day → e.matchesIn (day * 86400) 86400 = 1) ∧
      ∀ moment, e.holds moment = true → moment % 3600 = 0
  | hourly =>
    (∀ hour, Covered (hour / 24) → e.matchesIn (hour * 3600) 3600 = 1) ∧
      ∀ moment, e.holds moment = true → moment % 60 = 0
  | quarterly =>
    (∀ hour, Covered (hour / 24) → e.matchesIn (hour * 3600) 3600 = 4) ∧
      ∀ first second, e.Consecutive first second → second = first + 15 * 60

theorem coveredSlot (length parts : Nat) {slot moment : Nat} (whole : length * parts = Calendar.dayLength)
    (covered : Covered (slot / parts)) (within : moment < slot * length + length) :
    Covered (Calendar.day moment) := by
  have positive : 0 < length := Nat.pos_of_ne_zero fun none => by
    subst none
    exact absurd within (Nat.not_lt_zero _)
  have before : moment / length ≤ slot := by
    rw [← Nat.succ_mul] at within
    exact Nat.le_of_lt_succ ((Nat.div_lt_iff_lt_mul positive).2 within)
  refine coveredBefore covered ?_
  rw [Calendar.day, ← whole, ← Nat.div_div_eq_div_mul]
  exact Nat.div_le_div_right before

theorem recursPromises {c : ScheduleClass} {e : CronExpression} {n : Nat} (inside : n < c.bound)
    (recurs : e.Recurs c.period (c.offset n)) : c.Promises e := by
  have short := c.offsetShort inside
  cases c with
  | daily =>
    refine ⟨fun day covered => ?_, fun moment holds => ?_⟩
    · exact recurs.matches short 1 fun moment within =>
        coveredSlot 86400 1 rfl (by rwa [Nat.div_one]) within
    · have remainder := ((recurs moment).1 holds).2
      simp only [period, offset] at remainder
      omega
  | hourly =>
    refine ⟨fun hour covered => ?_, fun moment holds => ?_⟩
    · exact recurs.matches short 1 fun moment within => coveredSlot 3600 24 rfl covered within
    · have remainder := ((recurs moment).1 holds).2
      simp only [period, offset] at remainder
      omega
  | quarterly =>
    refine ⟨fun hour covered => ?_, fun first second consecutive => ?_⟩
    · exact recurs.matches short 4 fun moment within => coveredSlot 3600 24 rfl covered within
    · exact recurs.apart (by decide) consecutive

end ScheduleClass

open CronExpression in
/-- Whatever the text and the random words are: the expression is to be kept exactly when the text
names a class, and any other text stands for itself, trimmed. For a class the drawn expression always
makes a job; its moments are as the name says, and each of them is found from the one before. -/
theorem ScheduleSpec.firesAsNamed {τ : Type} (text : String) (words : List UInt32) (key : String)
    (tick : τ) :
    let spec := (resolve text (words.map UInt32.toNat)).1
    (spec.preserve = true ↔ ∃ c, ScheduleClass.Named text c) ∧
    ((∀ c, ¬ ScheduleClass.Named text c) → spec.expression = Text.trim text) ∧
    ∀ c, ScheduleClass.Named text c → ∃ e, CronJob.build key spec.expression tick = .ok ⟨key, e, tick⟩ ∧
      c.Promises e ∧
      ∀ moment, FirstFrom (fun m => e.holds m = true) (moment + 1) (e.next moment) := by
  intro spec
  have narrow := Draw.narrowOfWords words
  cases parsed : ScheduleClass.parse text with
  | none =>
    have literal : spec = ⟨Text.trim text, false⟩ := by simp only [spec, resolve, parsed]
    have unnamed : ∀ c, ¬ ScheduleClass.Named text c := by
      intro c named
      cases parsed.symm.trans (ScheduleClass.parseIff.2 named)
    rw [literal]
    refine ⟨iff_of_false Bool.false_ne_true fun named => ?_, fun _ => rfl, fun c named => absurd named (unnamed c)⟩
    obtain ⟨c, named⟩ := named
    exact unnamed c named
  | some c =>
    have named := ScheduleClass.parseIff.1 parsed
    have drawn : spec = ⟨c.expression (Draw.below c.bound (words.map UInt32.toNat)), true⟩ := by
      simp only [spec, resolve, parsed]
    have inside : Draw.below c.bound (words.map UInt32.toNat) < c.bound :=
      Draw.belowBound (by cases c <;> decide) narrow
    rw [drawn]
    refine ⟨iff_of_true rfl ⟨c, named⟩, fun unnamed => absurd named (unnamed c), fun d other => ?_⟩
    obtain rfl := ScheduleClass.namedUnique named other
    refine ⟨c.timing _, ?_, ScheduleClass.recursPromises inside (c.timingRecurs inside), ?_⟩
    · rw [CronJob.build, c.expressionRead inside]
      rfl
    · refine nextFirst ?_
      cases c <;> exact dailyBounded _ _

end Orchestration
