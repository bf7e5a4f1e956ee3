import Orchestration.Proofs.Run.Replay

/-! Runs on activities whose answers are told by their inputs. Whatever the services hold when a
leg is gone, it asks for the same and comes to the same; so the legs of a run, from its input
on, are one sequence, which has an end, and every run of the job goes along it. -/
namespace Orchestration

variable {σ : Type}

/-- What is answered, and after how long, is told by the input. -/
def ActionHandler.Steady (handler : ActionHandler σ) : Prop :=
  ∀ input s t, (handler.call input s).1 = (handler.call input t).1

def AllSteady (activities : SortedMap (ActionHandler σ)) : Prop :=
  ∀ name handler, activities.get? name = some handler → handler.Steady

def Burst.Steady : Burst σ → Prop
  | .finished _ => True
  | .paused _ run => run.handler.Steady

namespace CompiledJob
variable {j : CompiledJob σ} {activities : SortedMap (ActionHandler σ)}

inductive SteadyLeg : (σ → Leg σ) → Prop where
  | still (ask : Option Ask) (outcome : Except Error RunContext) :
      SteadyLeg fun s => ⟨ask, .finished outcome, s⟩
  | once {run : PausedRun σ} (own : run.handler.Steady) (left : Nat) : SteadyLeg (tryOnce run left)

namespace SteadyLeg
variable {leg : σ → Leg σ}

theorem steady (steadyLeg : SteadyLeg leg) (s : σ) : (leg s).burst.Steady := by
  cases steadyLeg with
  | still ask outcome => trivial
  | once own left => exact own

theorem alike (steadyLeg : SteadyLeg leg) (s t : σ) :
    (leg s).ask = (leg t).ask ∧ (leg s).burst = (leg t).burst := by
  cases steadyLeg with
  | still ask outcome => exact ⟨rfl, rfl⟩
  | @once run own left =>
    have answer : (run.call.attempt run.handler s).1 = (run.call.attempt run.handler t).1 :=
      congrArg (Answer.bounded _ _) (own run.call.input s t)
    simp only [tryOnce, answer, and_self]

end SteadyLeg

section
variable (steady : AllSteady activities)
include steady

theorem enterSteady (steps : List CompiledStep) (c : RunContext) :
    SteadyLeg fun s => j.enter activities steps c s := by
  cases steps with
  | nil => exact .still _ _
  | cons step rest =>
    simp only [enter]
    cases step.step.input c with
    | error e => exact .still _ _
    | ok input =>
      cases j.actions.lookup step.action with
      | none => exact .still _ _
      | some known =>
        simp only
        cases served : activities.get? known.action.text with
        | none => exact .still _ _
        | some handler =>
          have own := steady _ _ served
          exact .once own _

theorem setOutSteady (input : Json) : SteadyLeg fun s => j.setOut activities input s := by
  simp only [setOut]
  cases Template.payloadOf input with
  | error e => exact .still _ _
  | ok payload => exact enterSteady steady j.steps _

theorem goOnSteady {run : PausedRun σ} (own : run.handler.Steady) :
    SteadyLeg fun s => j.goOn activities run s := by
  simp only [goOn]
  cases run.result with
  | ok outputs => exact enterSteady steady run.rest _
  | error e =>
    cases run.left with
    | zero => exact .still _ _
    | succ left => exact .once own _

end

variable (j activities) in
inductive Goes (input : Json) : List (Option Ask) → Burst σ → Prop where
  | setOut (s) : Goes input [(j.setOut activities input s).ask] (j.setOut activities input s).burst
  | goOn {legs wait run} (before : Goes input legs (.paused wait run)) (s) :
      Goes input (legs ++ [(j.goOn activities run s).ask]) (j.goOn activities run s).burst

namespace Goes
variable {input : Json} {legs others : List (Option Ask)} {burst other : Burst σ}

theorem filled (goes : j.Goes activities input legs burst) : 0 < legs.length := by
  cases goes with
  | setOut s => exact Nat.zero_lt_one
  | goOn before s => simp

theorem ends (s : σ) (goes : j.Goes activities input legs burst) :
    ∃ calls outcome, j.Goes activities input calls (.finished outcome) := by
  induction measure : ahead burst using Nat.strongRecOn generalizing legs burst with
  | ind n ih =>
    cases burst with
    | finished outcome => exact ⟨legs, outcome, goes⟩
    | paused wait run =>
      have fewer := @goOnAhead _ j activities run s
      simp only [ahead] at measure
      exact ih _ (by omega) (goes.goOn s) rfl

section
variable (steady : AllSteady activities)
include steady

theorem kept (goes : j.Goes activities input legs burst) : burst.Steady := by
  induction goes with
  | setOut s => exact (setOutSteady steady input).steady s
  | goOn before s ih => exact (goOnSteady steady ih).steady s

theorem same (one : j.Goes activities input legs burst) (two : j.Goes activities input others other)
    (length : legs.length = others.length) : legs = others ∧ burst = other := by
  induction one generalizing others other with
  | setOut s =>
    cases two with
    | setOut t =>
      obtain ⟨ask, burst⟩ := (@setOutSteady _ j _ steady input).alike s t
      exact ⟨congrArg (fun a => [a]) ask, burst⟩
    | goOn before t =>
      have some := before.filled
      rw [List.length_append, List.length_singleton, List.length_singleton] at length
      omega
  | goOn first s ih =>
    cases two with
    | setOut t =>
      have some := first.filled
      rw [List.length_append, List.length_singleton, List.length_singleton] at length
      omega
    | goOn second t =>
      obtain ⟨rfl, paused⟩ := ih second (by simpa using length)
      cases paused
      obtain ⟨ask, burst⟩ := (@goOnSteady _ j _ steady _ (first.kept steady)).alike s t
      exact ⟨congrArg (fun a => _ ++ [a]) ask, burst⟩

theorem behind (one : j.Goes activities input legs burst) (two : j.Goes activities input others other)
    (fewer : legs.length < others.length) : legs <+: others ∧ ∀ outcome, burst ≠ .finished outcome := by
  induction two with
  | setOut s =>
    have some := one.filled
    rw [List.length_singleton] at fewer
    omega
  | @goOn earlier wait run before s ih =>
    have further : earlier <+: earlier ++ [(j.goOn activities run s).ask] := List.prefix_append _ _
    rw [List.length_append, List.length_singleton] at fewer
    cases Nat.lt_or_eq_of_le (Nat.le_of_lt_succ fewer) with
    | inl short =>
      obtain ⟨on, unfinished⟩ := ih short
      exact ⟨on.trans further, unfinished⟩
    | inr level =>
      obtain ⟨rfl, here⟩ := one.same steady before level
      refine ⟨further, fun outcome finished => ?_⟩
      rw [finished] at here
      cases here

theorem toTheEnd {outcome : Except Error RunContext} (one : j.Goes activities input legs burst)
    (whole : j.Goes activities input others (.finished outcome)) :
    legs <+: others ∧ ∀ ended, burst = .finished ended → legs = others ∧ ended = outcome := by
  rcases Nat.lt_trichotomy legs.length others.length with fewer | level | more
  · obtain ⟨on, unfinished⟩ := one.behind steady whole fewer
    exact ⟨on, fun ended finished => absurd finished (unfinished ended)⟩
  · obtain ⟨rfl, here⟩ := one.same steady whole level
    refine ⟨List.prefix_refl _, fun ended finished => ⟨rfl, ?_⟩⟩
    rw [finished] at here
    exact Burst.finished.inj here
  · exact absurd rfl ((whole.behind steady one more).2 outcome)

end
end Goes
end CompiledJob
end Orchestration
