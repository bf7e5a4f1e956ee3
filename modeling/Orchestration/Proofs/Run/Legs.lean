import Orchestration.Engine.Run

/-! A run from one await to the next. In such a leg it looks up one action at most, with its job
and then with the engine, and makes one attempt at most. A burst is made of legs: it goes on
as long as attempts take no time. -/
namespace Orchestration

variable {σ : Type}

inductive Ask where
  | unregistered (action : String)
  | unserved (activity : String)
  | attempt (call : ActivityCall) (answer : Answer)

structure Leg (σ : Type) where
  ask : Option Ask
  burst : Burst σ
  services : σ

namespace CompiledJob
variable (j : CompiledJob σ) (activities : SortedMap (ActionHandler σ))

def tryOnce (run : PausedRun σ) (left : Nat) (s : σ) : Leg σ :=
  let (answer, s) := run.call.attempt run.handler s
  ⟨some (.attempt run.call answer), .paused answer.wait { run with result := answer.result, left := left }, s⟩

def enter : List CompiledStep → RunContext → σ → Leg σ
  | [], c, s => ⟨none, .finished (.ok c), s⟩
  | step :: rest, c, s =>
    match step.step.input c with
    | .error e => ⟨none, .finished (.error (j.stepFailed step c e)), s⟩
    | .ok input =>
      match j.actions.lookup step.action with
      | none =>
        ⟨some (.unregistered step.action.text),
          .finished (.error (j.stepFailed step c (.actionNotRegistered step.action.text))), s⟩
      | some known =>
        match activities.get? known.action.text with
        | none =>
          ⟨some (.unserved known.action.text),
            .finished (.error (j.stepFailed step c (.actionNotRegistered known.action.text))), s⟩
        | some handler =>
          let call : ActivityCall := ⟨known.action.text, input, step.options⟩
          tryOnce ⟨step, rest, c, call, handler, .error (.activityNeverRan call.activity), 0⟩
            (max 1 step.options.maxAttempts - 1) s

def setOut (input : Json) (s : σ) : Leg σ :=
  match Template.payloadOf input with
  | .error e => ⟨none, .finished (.error e), s⟩
  | .ok payload => j.enter activities j.steps (.start payload) s

def goOn (run : PausedRun σ) (s : σ) : Leg σ :=
  match run.result with
  | .ok outputs => j.enter activities run.rest (run.context.record run.step.step.id outputs) s
  | .error e =>
    match run.left with
    | 0 => ⟨none, .finished (.error (j.stepFailed run.step run.context e)), s⟩
    | left + 1 => tryOnce run left s

inductive Rolls : Leg σ → List Ask → Burst σ × σ → Prop where
  | stop {leg} (still : ∀ run, leg.burst ≠ .paused .zero run) :
      Rolls leg leg.ask.toList (leg.burst, leg.services)
  | on {ask run s asks out} (rest : Rolls (j.goOn activities run s) asks out) :
      Rolls ⟨ask, .paused .zero run, s⟩ (ask.toList ++ asks) out

variable {j activities}

theorem finishedRolls (ask : Option Ask) (outcome : Except Error RunContext) (s : σ) :
    j.Rolls activities ⟨ask, .finished outcome, s⟩ ask.toList (.finished outcome, s) :=
  .stop fun run same => by cases same

theorem tryOnceRolls {run : PausedRun σ} {left : Nat} {s : σ} {wait : Duration}
    {result : Except Error Payload} {after : σ} {out : Burst σ × σ}
    (answered : run.call.attempt run.handler s = (⟨wait, result⟩, after))
    (later : wait = .zero →
      ∃ asks, j.Rolls activities (j.goOn activities { run with result := result, left := left } after) asks out)
    (waits : wait ≠ .zero → out = (.paused wait { run with result := result, left := left }, after)) :
    ∃ asks, j.Rolls activities (tryOnce run left s) asks out := by
  have leg : tryOnce run left s = ⟨some (.attempt run.call ⟨wait, result⟩),
      .paused wait { run with result := result, left := left }, after⟩ := by
    simp only [tryOnce, answered]
  rw [leg]
  by_cases now : wait = .zero
  · subst now
    obtain ⟨asks, rolls⟩ := later rfl
    exact ⟨_, .on rolls⟩
  · rw [waits now]
    exact ⟨_, .stop fun run same => by cases same; exact now rfl⟩

theorem resumeRolls (run : PausedRun σ)
    (walks : ∀ c s, ∃ asks, j.Rolls activities (j.enter activities run.rest c s) asks
      (j.walk activities run.rest c s)) (s : σ) :
    ∃ asks, j.Rolls activities (j.goOn activities run s) asks (j.resume activities run s) := by
  obtain ⟨step, rest, c, call, handler, result, left⟩ := run
  induction left generalizing result s with
  | zero =>
    cases result with
    | ok outputs => exact walks _ s
    | error e => exact ⟨_, finishedRolls ..⟩
  | succ left ih =>
    cases result with
    | ok outputs => exact walks _ s
    | error e =>
      rcases answered : call.attempt handler s with ⟨⟨wait, result⟩, after⟩
      refine tryOnceRolls answered (fun now => ?_) fun waits => ?_
      · have same : j.resume activities ⟨step, rest, c, call, handler, .error e, left + 1⟩ s =
            j.resume activities ⟨step, rest, c, call, handler, result, left⟩ after := by
          simp only [resume, ActivityCall.afterWait, ActivityCall.attempts, answered, now, if_true]
        rw [same]
        exact ih after result walks
      · simp only [resume, ActivityCall.afterWait, ActivityCall.attempts, answered, if_neg waits]

theorem walkRolls (steps : List CompiledStep) (c : RunContext) (s : σ) :
    ∃ asks, j.Rolls activities (j.enter activities steps c s) asks (j.walk activities steps c s) := by
  induction steps generalizing c s with
  | nil => exact ⟨_, finishedRolls ..⟩
  | cons step rest ih =>
    simp only [enter, walk, prepare]
    cases step.step.input c with
    | error e => exact ⟨_, finishedRolls ..⟩
    | ok input =>
      cases j.actions.lookup step.action with
      | none => exact ⟨_, finishedRolls ..⟩
      | some known =>
        simp only
        cases activities.get? known.action.text with
        | none => exact ⟨_, finishedRolls ..⟩
        | some handler =>
          obtain ⟨more, some⟩ : ∃ more, max 1 step.options.maxAttempts = more + 1 :=
            ⟨max 1 step.options.maxAttempts - 1, by omega⟩
          have rolls := @resumeRolls _ j activities ⟨step, rest, c,
            ⟨known.action.text, input, step.options⟩, handler,
            .error (.activityNeverRan known.action.text), more + 1⟩ ih s
          simp only [resume, ActivityCall.afterWait] at rolls
          simp only [ActivityCall.begin, some]
          exact rolls

theorem launchRolls (input : Json) (s : σ) :
    ∃ asks, j.Rolls activities (j.setOut activities input s) asks (j.launch activities input s) := by
  simp only [setOut, launch]
  cases Template.payloadOf input with
  | error e => exact ⟨_, finishedRolls ..⟩
  | ok payload => exact walkRolls j.steps _ s

theorem goOnRolls (run : PausedRun σ) (s : σ) :
    ∃ asks, j.Rolls activities (j.goOn activities run s) asks (j.resume activities run s) :=
  resumeRolls run (walkRolls run.rest) s

end CompiledJob

def CompiledStep.Served (j : CompiledJob σ) (activities : SortedMap (ActionHandler σ))
    (s : CompiledStep) : Prop :=
  ∃ known handler, j.actions.lookup s.action = some known ∧
    activities.get? known.action.text = some handler

def Ask.Found (ask : Ask) : Prop := ∃ call answer, ask = .attempt call answer

def Burst.Within (steps : List CompiledStep) : Burst σ → Prop
  | .finished _ => True
  | .paused _ run => ∀ s ∈ run.rest, s ∈ steps

namespace CompiledJob
variable {j : CompiledJob σ} {activities : SortedMap (ActionHandler σ)}

theorem enterWithin {rest steps : List CompiledStep} (among : ∀ s ∈ rest, s ∈ steps) (c : RunContext)
    (s : σ) : (j.enter activities rest c s).burst.Within steps := by
  cases rest with
  | nil => trivial
  | cons step rest =>
    simp only [enter]
    split
    · trivial
    · split
      · trivial
      · split
        · trivial
        · exact fun s inside => among s (List.mem_cons_of_mem _ inside)

theorem enterFound {steps : List CompiledStep} (served : ∀ s ∈ steps, s.Served j activities)
    (c : RunContext) (s : σ) : ∀ ask ∈ (j.enter activities steps c s).ask, ask.Found := by
  cases steps with
  | nil => exact fun ask none => by cases none
  | cons step rest =>
    obtain ⟨known, handler, own, there⟩ := served step List.mem_cons_self
    simp only [enter, own, there]
    split
    · exact fun ask none => by cases none
    · rintro ask ⟨⟩
      exact ⟨_, _, rfl⟩

theorem setOutWithin (input : Json) (s : σ) :
    (j.setOut activities input s).burst.Within j.steps := by
  simp only [setOut]
  split
  · trivial
  · exact enterWithin (fun s inside => inside) _ s

theorem setOutFound (served : ∀ s ∈ j.steps, s.Served j activities) (input : Json) (s : σ) :
    ∀ ask ∈ (j.setOut activities input s).ask, ask.Found := by
  simp only [setOut]
  split
  · exact fun ask none => by cases none
  · exact enterFound served _ s

theorem goOnWithin {run : PausedRun σ} {steps : List CompiledStep} (among : ∀ s ∈ run.rest, s ∈ steps)
    (s : σ) : (j.goOn activities run s).burst.Within steps := by
  simp only [goOn]
  split
  · exact enterWithin among _ s
  · split
    · trivial
    · exact among

theorem goOnFound {run : PausedRun σ} (served : ∀ s ∈ run.rest, s.Served j activities) (s : σ) :
    ∀ ask ∈ (j.goOn activities run s).ask, ask.Found := by
  simp only [goOn]
  split
  · exact enterFound served _ s
  · split
    · exact fun ask none => by cases none
    · rintro ask ⟨⟩
      exact ⟨_, _, rfl⟩

theorem Rolls.within {steps : List CompiledStep} {leg : Leg σ} {asks : List Ask} {out : Burst σ × σ}
    (rolls : j.Rolls activities leg asks out) (within : leg.burst.Within steps) :
    out.1.Within steps := by
  induction rolls with
  | stop still => exact within
  | @on ask run s asks out rest ih =>
    exact ih (goOnWithin within s)

theorem Rolls.found {steps : List CompiledStep} (served : ∀ s ∈ steps, s.Served j activities)
    {leg : Leg σ} {asks : List Ask} {out : Burst σ × σ} (rolls : j.Rolls activities leg asks out)
    (within : leg.burst.Within steps) (first : ∀ ask ∈ leg.ask, ask.Found) :
    ∀ ask ∈ asks, ask.Found := by
  induction rolls with
  | stop still => exact fun ask inside => first ask (Option.mem_toList.1 inside)
  | on rest ih =>
    have later := ih (goOnWithin within _) (goOnFound (fun s inside => served s (within s inside)) _)
    intro ask inside
    rcases List.mem_append.1 inside with now | after
    · exact first ask (Option.mem_toList.1 now)
    · exact later ask after

end CompiledJob
end Orchestration
