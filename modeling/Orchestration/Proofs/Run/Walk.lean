import Orchestration.Proofs.Action.Registry
import Orchestration.Proofs.Run.Context
import Orchestration.Run.Job

/-! A compiled job against any activity context, one with a memory of its own included:
what it calls, in which order, and how it ends. `Walk` says this over the steps as they
were written; a run and its walk agree, and the walk is read position by position. -/
namespace Orchestration

structure Exchange where
  call : ActivityCall
  answer : Except Error Payload

def Step.callAfter (s : Step) (job : Job) (payload : Payload) (done : List CompletedStep) :
    Except Error ActivityCall :=
  (s.inputOver payload (CompletedStep.table done)).map fun input =>
    ⟨s.actionId, input, .standard (s.timeout.or job.timeout)⟩

namespace CompiledJob

section
variable {τ : Type}

def recording (call : ActivityCall → τ → Except Error Payload × τ) :
    ActivityCall → τ × List Exchange → Except Error Payload × (τ × List Exchange) :=
  fun c (t, log) => ((call c t).1, ((call c t).2, log ++ [⟨c, (call c t).1⟩]))

variable {σ : Type} (j : CompiledJob σ) (call : ActivityCall → τ → Except Error Payload × τ)

theorem runStepsRecording (steps : List CompiledStep) (c : RunContext) (t : τ) (log : List Exchange) :
    (runSteps j (recording call) steps c (t, log)).1 = (runSteps j call steps c t).1 ∧
      (runSteps j (recording call) steps c (t, log)).2.1 = (runSteps j call steps c t).2 := by
  induction steps generalizing c t log with
  | nil => exact ⟨rfl, rfl⟩
  | cons s rest ih =>
    simp only [runSteps]
    cases j.prepare s c with
    | error e => exact ⟨rfl, rfl⟩
    | ok activity =>
      rcases answered : call activity t with ⟨answer, t'⟩
      simp only [recording, answered]
      cases answer with
      | error e => exact ⟨rfl, rfl⟩
      | ok outputs => exact ih _ _ _

theorem executeRecording (input : Json) (t : τ) (log : List Exchange) :
    (execute j (recording call) input (t, log)).1 = (execute j call input t).1 ∧
      (execute j (recording call) input (t, log)).2.1 = (execute j call input t).2 := by
  simp only [execute]
  cases Template.payloadOf input with
  | error e => exact ⟨rfl, rfl⟩
  | ok payload => exact runStepsRecording j call _ _ _ _

end

section
variable {σ : Type} {name : String} {job : Job} {actions : ActionRegistry σ}

theorem compileStepOk {s : Step} {c : CompiledStep} (ok : compileStep name job actions s = .ok c) :
    c.step = s ∧ c.action.text = s.actionId ∧ c.options = .standard (s.timeout.or job.timeout) ∧
      ∃ handler, actions.lookup c.action = some handler := by
  simp only [compileStep] at ok
  split at ok
  · simp at ok
  · rename_i action parsed
    split at ok
    · simp at ok
    · rename_i handler found
      cases Except.ok.inj ok
      exact ⟨rfl, Action.parseText parsed, rfl, handler, found⟩

theorem compileStepsCons {s : Step} {rest : List Step} {compiled : List CompiledStep}
    (ok : compileSteps name job actions (s :: rest) = .ok compiled) :
    ∃ c cs, compiled = c :: cs ∧ compileStep name job actions s = .ok c ∧
      compileSteps name job actions rest = .ok cs := by
  simp only [compileSteps] at ok
  cases first : compileStep name job actions s with
  | error e => simp [first] at ok
  | ok c =>
    cases others : compileSteps name job actions rest with
    | error e => simp [first, others, Except.map] at ok
    | ok cs =>
      simp only [first, others, Except.map, Except.ok.injEq] at ok
      exact ⟨c, cs, ok.symm, rfl, rfl⟩

theorem compileOk {j : CompiledJob σ} (ok : compile name job actions = .ok j) :
    j.name = name ∧ j.actions = actions ∧ compileSteps name job actions job.steps = .ok j.steps := by
  simp only [compile] at ok
  cases compiled : compileSteps name job actions job.steps with
  | error e => simp [compiled, Except.map] at ok
  | ok steps =>
    simp only [compiled, Except.map, Except.ok.injEq] at ok
    subst ok
    exact ⟨rfl, rfl, rfl⟩

theorem prepareAfter {j : CompiledJob σ} {s : Step} {c : CompiledStep} (own : j.actions = actions)
    (keyed : actions.Keyed) (ok : compileStep name job actions s = .ok c) (payload : Payload)
    (done : List CompletedStep) :
    j.prepare c (.after payload done) = s.callAfter job payload done := by
  obtain ⟨step, text, options, handler, found⟩ := compileStepOk ok
  have named : handler.action.text = s.actionId := (keyed.lookupText found).trans text
  simp only [prepare, step, Step.inputAfter, own, found, Step.callAfter, named, options]
  cases s.inputOver payload (CompletedStep.table done) <;> rfl

end

inductive Walk (name : String) (job : Job) (payload : Payload) :
    List CompletedStep → List Step → List Exchange → Except Error RunContext → Prop where
  | finished {done} : Walk name job payload done [] [] (.ok (.after payload done))
  | unrendered {done s rest e} (bad : s.callAfter job payload done = .error e) :
      Walk name job payload done (s :: rest) []
        (.error (.stepExecutionFailed name s.id (CompletedStep.ids done) e))
  | refused {done s rest c e} (built : s.callAfter job payload done = .ok c) :
      Walk name job payload done (s :: rest) [⟨c, .error e⟩]
        (.error (.stepExecutionFailed name s.id (CompletedStep.ids done) e))
  | completed {done s rest c outputs log result} (built : s.callAfter job payload done = .ok c)
      (next : Walk name job payload (done ++ [⟨s.id, outputs⟩]) rest log result) :
      Walk name job payload done (s :: rest) (⟨c, .ok outputs⟩ :: log) result

section
variable {σ τ : Type} {name : String} {job : Job} {actions : ActionRegistry σ} {j : CompiledJob σ}

theorem runStepsWalk (call : ActivityCall → τ → Except Error Payload × τ) (named : j.name = name)
    (own : j.actions = actions) (keyed : actions.Keyed) (payload : Payload) {steps : List Step}
    {compiled : List CompiledStep} (ok : compileSteps name job actions steps = .ok compiled)
    (done : List CompletedStep) (t : τ) (log : List Exchange) :
    ∃ more, (runSteps j (recording call) compiled (.after payload done) (t, log)).2.2 = log ++ more ∧
      Walk name job payload done steps more
        (runSteps j (recording call) compiled (.after payload done) (t, log)).1 := by
  induction steps generalizing compiled done t log with
  | nil =>
    cases Except.ok.inj ok
    exact ⟨[], (List.append_nil log).symm, .finished⟩
  | cons s rest ih =>
    obtain ⟨c, cs, rfl, first, others⟩ := compileStepsCons ok
    have id : c.step.id = s.id := congrArg Step.id (compileStepOk first).1
    have failed (e : Error) : j.stepFailed c (.after payload done) e =
        .stepExecutionFailed name s.id (CompletedStep.ids done) e := by
      simp only [stepFailed, named, id, RunContext.after]
    simp only [runSteps, prepareAfter own keyed first]
    cases built : s.callAfter job payload done with
    | error e =>
      refine ⟨[], (List.append_nil log).symm, ?_⟩
      simp only [failed]
      exact .unrendered built
    | ok activity =>
      rcases answered : call activity t with ⟨answer, t'⟩
      cases answer with
      | error e =>
        refine ⟨[⟨activity, .error e⟩], ?_, ?_⟩
        · simp only [recording, answered]
        · simp only [recording, answered, failed]
          exact .refused built
      | ok outputs =>
        obtain ⟨more, calls, walk⟩ := ih others (done ++ [⟨s.id, outputs⟩]) t'
          (log ++ [⟨activity, .ok outputs⟩])
        simp only [recording, answered, id, RunContext.recordAfter]
        refine ⟨⟨activity, .ok outputs⟩ :: more, ?_, .completed built walk⟩
        exact calls.trans (List.append_cons ..).symm

end

/-- How a run went from a point on, read position by position: the steps that completed, with
their outputs, the calls that were made, and the end. The step after the last completed one is
the first whose parameters could not be filled in or whose call failed. -/
structure Ran (name : String) (job : Job) (payload : Payload) (before : List CompletedStep)
    (steps : List Step) (done : List CompletedStep) (log : List Exchange)
    (result : Except Error RunContext) : Prop where
  ids : done.map (·.id) = (steps.take done.length).map (·.id)
  calls : ∀ (i : Nat) (s : Step) (d : CompletedStep), steps[i]? = some s → done[i]? = some d →
    ∃ c, s.callAfter job payload (before ++ done.take i) = .ok c ∧ log[i]? = some ⟨c, .ok d.outputs⟩
  completed : steps[done.length]? = none →
    log.length = done.length ∧ result = .ok (.after payload (before ++ done))
  failed : ∀ s : Step, steps[done.length]? = some s →
    ∃ e, result = .error (.stepExecutionFailed name s.id (CompletedStep.ids (before ++ done)) e) ∧
      (s.callAfter job payload (before ++ done) = .error e ∧ log.length = done.length ∨
        ∃ c, s.callAfter job payload (before ++ done) = .ok c ∧ log.length = done.length + 1 ∧
          log[done.length]? = some ⟨c, .error e⟩)

def completedIn : List Step → List Exchange → List CompletedStep
  | s :: steps, ⟨_, .ok outputs⟩ :: log => ⟨s.id, outputs⟩ :: completedIn steps log
  | _, _ => []

theorem Walk.ranCompleted {name : String} {job : Job} {payload : Payload}
    {before : List CompletedStep} {steps : List Step} {log : List Exchange}
    {result : Except Error RunContext} (walk : Walk name job payload before steps log result) :
    Ran name job payload before steps (completedIn steps log) log result := by
  induction walk with
  | @finished before =>
    refine ⟨rfl, by simp [completedIn], fun _ => ⟨rfl, ?_⟩, by simp⟩
    rw [completedIn, List.append_nil]
    simp
  | @unrendered before s rest e bad =>
    refine ⟨rfl, by simp [completedIn], by simp [completedIn], fun s' first => ⟨e, ?_⟩⟩
    cases Option.some.inj first
    rw [completedIn, List.append_nil]
    · exact ⟨rfl, .inl ⟨bad, rfl⟩⟩
    · simp
  | @refused before s rest c e built =>
    refine ⟨rfl, by simp [completedIn], by simp [completedIn], fun s' first => ⟨e, ?_⟩⟩
    cases Option.some.inj first
    rw [completedIn, List.append_nil]
    · exact ⟨rfl, .inr ⟨c, built, rfl, rfl⟩⟩
    · simp
  | @completed before s rest c outputs log result built next ran =>
    have join (more : List CompletedStep) :
        before ++ ⟨s.id, outputs⟩ :: more = (before ++ [⟨s.id, outputs⟩]) ++ more :=
      List.append_cons ..
    rw [completedIn]
    generalize completedIn rest log = done at ran
    refine ⟨by simp [ran.ids], ?_, fun last => ?_, fun s' first => ?_⟩
    · intro i s' d step output
      cases i with
      | zero =>
        cases Option.some.inj step
        cases Option.some.inj output
        exact ⟨c, by simpa using built, rfl⟩
      | succ i =>
        rw [List.take_succ_cons, join]
        exact ran.calls i s' d step output
    · obtain ⟨count, ended⟩ := ran.completed last
      exact ⟨congrArg Nat.succ count, by rw [join]; exact ended⟩
    · obtain ⟨e, ended, reason⟩ := ran.failed s' first
      refine ⟨e, by rw [join]; exact ended, ?_⟩
      rw [join]
      rcases reason with ⟨bad, count⟩ | ⟨c', built', count, last⟩
      · exact .inl ⟨bad, congrArg Nat.succ count⟩
      · exact .inr ⟨c', built', congrArg Nat.succ count, last⟩

theorem Walk.ran {name : String} {job : Job} {payload : Payload} {before : List CompletedStep}
    {steps : List Step} {log : List Exchange} {result : Except Error RunContext}
    (walk : Walk name job payload before steps log result) :
    ∃ done, Ran name job payload before steps done log result :=
  ⟨_, walk.ranCompleted⟩

theorem Ran.reached {name : String} {job : Job} {payload : Payload} {before done : List CompletedStep}
    {steps : List Step} {log : List Exchange} {result : Except Error RunContext}
    (ran : Ran name job payload before steps done log result) {i : Nat} {s : Step}
    (step : steps[i]? = some s) (reached : i ≤ done.length) :
    (∀ c, s.callAfter job payload (before ++ done.take i) = .ok c →
        ∃ answer, log[i]? = some ⟨c, answer⟩) ∧
      ∀ e, s.callAfter job payload (before ++ done.take i) = .error e →
        done.length = i ∧ log.length = i ∧
          result = .error (.stepExecutionFailed name s.id (CompletedStep.ids (before ++ done)) e) := by
  rcases Nat.lt_or_eq_of_le reached with inside | rfl
  · obtain ⟨c, built, called⟩ := ran.calls i s _ step (List.getElem?_eq_getElem inside)
    refine ⟨fun other same => ?_, fun e bad => ?_⟩
    · cases built.symm.trans same
      exact ⟨_, called⟩
    · cases built.symm.trans bad
  · rw [List.take_length]
    obtain ⟨e, ended, ⟨bad, count⟩ | ⟨c, built, -, last⟩⟩ := ran.failed s step
    · refine ⟨fun c built => ?_, fun other same => ?_⟩
      · cases bad.symm.trans built
      · cases bad.symm.trans same
        exact ⟨rfl, count, ended⟩
    · refine ⟨fun other same => ?_, fun other bad => ?_⟩
      · cases built.symm.trans same
        exact ⟨_, last⟩
      · cases built.symm.trans bad

theorem executeRan {σ τ : Type} {integrations : List (Integration σ)} {name : String} {job : Job}
    {j : CompiledJob σ} (compiled : compile name job (.ofIntegrations integrations) = .ok j)
    (call : ActivityCall → τ → Except Error Payload × τ) {input : Json} {payload : Payload}
    (given : Template.payloadOf input = .ok payload) (t : τ) :
    let run := execute j (recording call) input (t, [])
    Ran name job payload [] job.steps (completedIn job.steps run.2.2) run.2.2 run.1 := by
  obtain ⟨named, own, steps⟩ := compileOk compiled
  have keyed := ActionRegistry.ofIntegrationsKeyed integrations
  obtain ⟨log, calls, walk⟩ := runStepsWalk call named own keyed payload steps [] t []
  simp only [execute, given]
  rw [← RunContext.afterNone, calls]
  exact walk.ranCompleted

/-- Whatever the activities answer, a job calls its steps in the order in which they are written,
each once at most and with an input made of the payload and the outputs before it alone; the first
step that fails ends the run. -/
theorem executeInOrder {σ τ : Type} (integrations : List (Integration σ)) (name : String) (job : Job)
    (j : CompiledJob σ) (compiled : compile name job (.ofIntegrations integrations) = .ok j)
    (call : ActivityCall → τ → Except Error Payload × τ) (input : Json) (t : τ) :
    let run := execute j (recording call) input (t, [])
    (run.1 = (execute j call input t).1 ∧ run.2.1 = (execute j call input t).2) ∧
      (∀ e, Template.payloadOf input = .error e → run.1 = .error e ∧ run.2.2 = []) ∧
      ∀ payload, Template.payloadOf input = .ok payload →
        ∃ done, Ran name job payload [] job.steps done run.2.2 run.1 := by
  intro run
  obtain ⟨named, own, steps⟩ := compileOk compiled
  refine ⟨executeRecording j call input t [], fun e bad => ?_, fun payload given => ?_⟩
  · simp [run, execute, bad]
  · have keyed := ActionRegistry.ofIntegrationsKeyed integrations
    obtain ⟨log, calls, walk⟩ := runStepsWalk call named own keyed payload steps [] t []
    simp only [run, execute, given]
    rw [← RunContext.afterNone, calls]
    exact walk.ran

/-! A job whose second step reuses the id of the first and hides `steps` behind a parameter, and
whose third step asks for a field that is nowhere. -/

def probe : Integration Unit := ⟨"test", ["create"], fun _ _ s => (.now (.ok .empty), s)⟩

def fragile : Job where
  queue := ""
  timeout := none
  steps :=
    [⟨"", "a", "test:create", none, some .empty⟩,
     ⟨"", "a", "test:create", none,
       some (.ofList [("steps", .int 1), ("ref", .str "\x7b\x7b steps.a.outputs.id \x7d\x7d")])⟩,
     ⟨"", "b", "test:create", none, some (.ofList [("x", .str "\x7b\x7b missing \x7d\x7d")])⟩]

def fragileCompiled : CompiledJob Unit where
  name := "fragile"
  queue := ""
  steps := fragile.steps.map fun s => ⟨s, ⟨"test", "create"⟩, .standard none⟩
  actions := .ofIntegrations [probe]

def counting (_ : ActivityCall) (n : Nat) : Except Error Payload × Nat :=
  (.ok (.ofList [("id", .int n)]), n + 1)

theorem executeInOrderFragile :
    compile "fragile" fragile (.ofIntegrations [probe]) = .ok fragileCompiled ∧
      (let run := execute fragileCompiled (recording counting) (.obj [("steps", .null)]) (0, [])
      run.1 = .error (.stepExecutionFailed "fragile" "b" ["a"] (.templateResolution "missing")) ∧
        run.2.2.map (fun e => e.call.input) =
          [.ofList [("steps", .obj [])], .ofList [("steps", .int 1), ("ref", .int 0)]] ∧
        ∃ done, Ran "fragile" fragile (.ofList [("steps", .null)]) [] fragile.steps done run.2.2 run.1) := by
  have compiled : compile "fragile" fragile (.ofIntegrations [probe]) = .ok fragileCompiled := rfl
  have general := executeInOrder [probe] "fragile" fragile fragileCompiled compiled counting
    (.obj [("steps", .null)]) 0
  exact ⟨compiled, rfl, rfl, general.2.2 _ rfl⟩

end CompiledJob
end Orchestration
