import Mathlib.Data.List.ReduceOption
import Orchestration.Proofs.Run.Legs

/-! What a run ends with. Between its legs anything may happen to the engine and to the services;
the outcome is still the one that its job computes from the answers of its own attempts. -/
namespace Orchestration

variable {σ : Type}

def ActivityCall.replayed (call : ActivityCall) :
    Nat → Error → List Ask → Except Error Payload × List Ask
  | left + 1, last, .attempt made answer :: asks =>
    if made = call then
      match answer.result with
      | .ok outputs => (.ok outputs, asks)
      | .error e => replayed call left e asks
    else (.error last, .attempt made answer :: asks)
  | _, last, asks => (.error last, asks)

def ActivityCall.replay (call : ActivityCall) : List Ask → Except Error Payload × List Ask
  | .unserved _ :: asks => (.error (.actionNotRegistered call.activity), asks)
  | asks => call.replayed (max 1 call.options.maxAttempts) (.activityNeverRan call.activity) asks

namespace CompiledJob
variable (j : CompiledJob σ)

/-- How a run comes to stand where it does: the legs it has gone from its input, each with whatever
the engine knew and the services held at the time. -/
inductive Gone (input : Json) : List (Option Ask) → Burst σ → Prop where
  | setOut (activities s) :
      Gone input [(j.setOut activities input s).ask] (j.setOut activities input s).burst
  | goOn {legs wait run} (before : Gone input legs (.paused wait run)) (activities s) :
      Gone input (legs ++ [(j.goOn activities run s).ask]) (j.goOn activities run s).burst

def conclude (step : CompiledStep) (rest : List CompiledStep) (c : RunContext) :
    Except Error Payload × List Ask → Except Error RunContext × List Ask
  | (.ok outputs, asks) => runSteps j ActivityCall.replay rest (c.record step.step.id outputs) asks
  | (.error e, asks) => (.error (j.stepFailed step c e), asks)

def finish (run : PausedRun σ) (asks : List Ask) : Except Error RunContext × List Ask :=
  j.conclude run.step run.rest run.context <|
    match run.result with
    | .ok outputs => (.ok outputs, asks)
    | .error e => run.call.replayed run.left e asks

def Replays (burst : Burst σ) (asks : List Ask) (out : Except Error RunContext × List Ask) : Prop :=
  match burst with
  | .finished outcome => out.1 = outcome
  | .paused _ run => out = j.finish run asks

variable {j} {activities : SortedMap (ActionHandler σ)}

theorem tryOnceReplays (run : PausedRun σ) (left : Nat) (last : Error) (s : σ) (more : List Ask) :
    j.Replays (tryOnce run left s).burst more (j.conclude run.step run.rest run.context
      (run.call.replayed (left + 1) last ((tryOnce run left s).ask.toList ++ more))) := by
  rcases answered : run.call.attempt run.handler s with ⟨⟨wait, result⟩, after⟩
  simp only [tryOnce, answered, Replays, finish, Option.toList, List.cons_append, List.nil_append,
    ActivityCall.replayed, if_true]

theorem enterReplays (steps : List CompiledStep) (c : RunContext) (s : σ) (more : List Ask) :
    j.Replays (j.enter activities steps c s).burst more
      (runSteps j ActivityCall.replay steps c ((j.enter activities steps c s).ask.toList ++ more)) := by
  cases steps with
  | nil => rfl
  | cons step rest =>
    simp only [enter, runSteps, prepare]
    cases step.step.input c with
    | error e => rfl
    | ok input =>
      cases j.actions.lookup step.action with
      | none => rfl
      | some known =>
        simp only
        cases activities.get? known.action.text with
        | none => rfl
        | some handler =>
          obtain ⟨left, some⟩ : ∃ left, max 1 step.options.maxAttempts = left + 1 :=
            ⟨max 1 step.options.maxAttempts - 1, by omega⟩
          have once := @tryOnceReplays _ j ⟨step, rest, c, ⟨known.action.text, input, step.options⟩,
            handler, .error (.activityNeverRan known.action.text), 0⟩ left
            (.activityNeverRan known.action.text) s more
          simp only [tryOnce, Option.toList, List.cons_append, List.nil_append, ActivityCall.replay,
            some, Nat.add_sub_cancel] at once ⊢
          generalize ActivityCall.replayed _ _ _ _ = answered at once ⊢
          obtain ⟨e | outputs, asks⟩ := answered <;> exact once

theorem goOnReplays (run : PausedRun σ) (s : σ) (more : List Ask) :
    j.Replays (j.goOn activities run s).burst more
      (j.finish run ((j.goOn activities run s).ask.toList ++ more)) := by
  obtain ⟨step, rest, c, call, handler, result, left⟩ := run
  cases result with
  | ok outputs => exact enterReplays rest _ s more
  | error e =>
    cases left with
    | zero => rfl
    | succ left => exact tryOnceReplays ⟨step, rest, c, call, handler, .error e, left + 1⟩ left e s more

theorem setOutReplays (input : Json) (s : σ) (more : List Ask) :
    j.Replays (j.setOut activities input s).burst more
      (execute j ActivityCall.replay input ((j.setOut activities input s).ask.toList ++ more)) := by
  simp only [setOut, execute]
  cases Template.payloadOf input with
  | error e => rfl
  | ok payload => exact enterReplays j.steps _ s more

theorem Gone.replays {input : Json} {legs : List (Option Ask)} {burst : Burst σ}
    (gone : j.Gone input legs burst) (more : List Ask) :
    j.Replays burst more (execute j ActivityCall.replay input (legs.reduceOption ++ more)) := by
  induction gone generalizing more with
  | setOut activities s =>
    have first := @setOutReplays _ j activities input s more
    cases asked : (j.setOut activities input s).ask <;>
    · rw [asked] at first
      exact first
  | @goOn legs wait run before activities s ih =>
    have earlier := ih ((j.goOn activities run s).ask.toList ++ more)
    have later := @goOnReplays _ j activities run s more
    rw [← show _ = j.finish run _ from earlier, ← List.append_assoc] at later
    cases asked : (j.goOn activities run s).ask <;>
    · rw [asked] at later
      simpa [List.reduceOption_append] using later

theorem Gone.outcome {input : Json} {legs : List (Option Ask)} {outcome : Except Error RunContext}
    (gone : j.Gone input legs (.finished outcome)) :
    (execute j ActivityCall.replay input legs.reduceOption).1 = outcome := by
  have ended := gone.replays []
  rwa [List.append_nil] at ended

def ahead : Burst σ → Nat
  | .finished _ => 0
  | .paused _ run => run.waits

theorem enterAhead (steps : List CompiledStep) (c : RunContext) (s : σ) :
    ahead (j.enter activities steps c s).burst ≤ waitsOf steps := by
  cases steps with
  | nil => exact Nat.le_refl 0
  | cons step rest =>
    simp only [enter]
    split
    · exact Nat.zero_le _
    · split
      · exact Nat.zero_le _
      · split
        · exact Nat.zero_le _
        · simp only [tryOnce, ahead, PausedRun.waits, waitsOf, List.foldr_cons]
          omega

theorem goOnAhead (run : PausedRun σ) (s : σ) :
    ahead (j.goOn activities run s).burst + 1 ≤ run.waits := by
  simp only [goOn]
  split
  · have entered := @enterAhead _ j activities run.rest (run.context.record run.step.step.id ‹_›) s
    rw [PausedRun.waits]
    omega
  · split
    · simp only [ahead, PausedRun.waits]
      omega
    · rename_i more
      simp only [tryOnce, ahead, PausedRun.waits, more]
      omega

theorem Gone.bounded {input : Json} {legs : List (Option Ask)} {burst : Burst σ}
    (gone : j.Gone input legs burst) : legs.length + ahead burst ≤ waitsOf j.steps + 1 := by
  induction gone with
  | setOut activities s =>
    simp only [CompiledJob.setOut]
    split
    · simp [ahead]
    · have entered := @enterAhead _ j activities j.steps (.start ‹_›) s
      rw [List.length_singleton]
      omega
  | @goOn legs wait run before activities s ih =>
    have later := @goOnAhead _ j activities run s
    simp only [ahead] at ih
    rw [List.length_append, List.length_singleton]
    omega

end CompiledJob
end Orchestration
