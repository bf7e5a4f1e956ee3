import Orchestration.Proofs.Client.Connection
import Orchestration.Proofs.Collection.FirstLast
import Orchestration.Proofs.Dispatch.Sweep
import Orchestration.Proofs.Run.Walk
import Orchestration.Worker.Registration

/-! Registering one job. It ends in one of three ways: the job does not compile, its queue cannot
be reached, or it is registered. Nothing fails after the connection is made, since every
activity of a compiled job is an action that the worker serves. -/
namespace Orchestration

/-- The action ids of a job's steps, each once, in the order in which they first come. -/
def Job.actionIds (job : Job) : List String := (job.steps.map (·.actionId)).eraseDups

theorem Job.memActionIds {job : Job} {name : String} :
    name ∈ job.actionIds ↔ ∃ s ∈ job.steps, s.actionId = name := by
  rw [actionIds, List.mem_eraseDups, List.mem_map]

theorem Job.actionIdsNodup (job : Job) : job.actionIds.Nodup := eraseDupsNodup _

namespace CompiledJob
variable {σ : Type}

/-- A job in runnable form has the steps of the job that was written, each with the action that the
step names. -/
structure Runs (j : CompiledJob σ) (job : Job) : Prop where
  steps : j.steps.map (·.step) = job.steps
  actions : j.steps.map (·.action.text) = job.steps.map (·.actionId)

theorem activityNamesOnce (j : CompiledJob σ) :
    j.activityNames = (j.steps.map (·.action.text)).eraseDups := by
  have gathered (names : List String) : names.foldl addNew [] = names.eraseDups := by
    induction names using List.reverseRecOn with
    | nil => rfl
    | append_singleton names name ih =>
      rw [List.foldl_append, List.foldl_cons, List.foldl_nil, ih, addNew, eraseDupsSnoc]
      simp only [List.contains_iff_mem, List.mem_eraseDups]
  rw [activityNames, ← gathered, List.foldl_map]

theorem Runs.activityNames {j : CompiledJob σ} {job : Job} (runs : j.Runs job) :
    j.activityNames = job.actionIds := by
  rw [activityNamesOnce, runs.actions]
  rfl

theorem Runs.names {j : CompiledJob σ} {job : Job} (runs : j.Runs job) {s : CompiledStep}
    (used : s ∈ j.steps) : s.action.text ∈ job.actionIds := by
  rw [Job.actionIds, ← runs.actions, List.mem_eraseDups]
  exact List.mem_map_of_mem used

theorem withActivityOptionsRuns {j : CompiledJob σ} {job : Job} (runs : j.Runs job) (attempts : Nat)
    (timeout : Duration) : (j.withActivityOptions attempts timeout).Runs job := by
  constructor
  · rw [← runs.steps]
    simp [withActivityOptions]
  · rw [← runs.actions]
    simp [withActivityOptions]

theorem compileStepsServed {name : String} {job : Job} {actions : ActionRegistry σ} {steps : List Step}
    {compiled : List CompiledStep} (ok : compileSteps name job actions steps = .ok compiled) :
    (compiled.map (·.step) = steps ∧ compiled.map (·.action.text) = steps.map (·.actionId)) ∧
      (∀ s ∈ steps, ∃ handler, actions.resolve s.actionId = .ok handler) ∧
      ∀ c ∈ compiled, ∃ handler, actions.lookup c.action = some handler := by
  induction steps generalizing compiled with
  | nil =>
    cases ok
    exact ⟨⟨rfl, rfl⟩, nofun, nofun⟩
  | cons s rest ih =>
    obtain ⟨c, cs, rfl, first, others⟩ := compileStepsCons ok
    obtain ⟨⟨steps, named⟩, served, known⟩ := ih others
    obtain ⟨step, text, -, handler, found⟩ := compileStepOk first
    refine ⟨⟨by rw [List.map_cons, step, steps], by rw [List.map_cons, text, named, List.map_cons]⟩,
      List.forall_mem_cons.2 ⟨⟨handler, ?_⟩, served⟩, List.forall_mem_cons.2 ⟨⟨handler, found⟩, known⟩⟩
    have parsed : Action.parse s.actionId = .ok c.action := by
      simp only [compileStep] at first
      split at first
      · cases first
      · rename_i action parsed
        split at first
        · cases first
        · cases first
          exact parsed
    simp only [ActionRegistry.resolve, parsed, found]

end CompiledJob

structure Registrant (σ η : Type) where
  listed : ListedJob
  queue : String
  client : η
  job : CompiledJob σ

def Registrant.record {σ η : Type} (r : Registrant σ η) : RegisteredJob :=
  ⟨r.listed.workflow, r.listed.name, r.queue⟩

namespace Registration
variable {σ η κ : Type} (p : Platform σ η κ) (plan : WorkerPlan σ) (actions : ActionRegistry σ)

/-- What registering a job relies on: it is compiled, runs the steps that were written, and every
action that they name can be resolved. -/
structure Compiled (l : ListedJob) (j : CompiledJob σ) : Prop where
  made : compile plan actions l.name l.job = .ok j
  name : j.name = l.name
  runs : j.Runs l.job
  served : ∀ name ∈ l.job.actionIds, ∃ handler, actions.resolve name = .ok handler

/-! A plan's options change a job that compiles, and nothing of whether it does. -/

theorem compilePlain {name : String} {job : Job} {j : CompiledJob σ}
    (ok : compile plan actions name job = .ok j) :
    ∃ c, CompiledJob.compile name job actions = .ok c ∧
      (j = c ∨ ∃ attempts timeout, j = c.withActivityOptions attempts timeout) := by
  rw [compile] at ok
  cases compiled : CompiledJob.compile name job actions with
  | error e =>
    rw [compiled] at ok
    cases ok
  | ok c =>
    rw [compiled] at ok
    cases ok
    refine ⟨c, rfl, ?_⟩
    cases plan.retries with
    | none => exact .inl rfl
    | some options => exact .inr ⟨options.1, options.2, rfl⟩

theorem compileRefused {name : String} {job : Job} {e : Error}
    (bad : compile plan actions name job = .error e) : CompiledJob.compile name job actions = .error e := by
  rw [compile] at bad
  cases compiled : CompiledJob.compile name job actions with
  | error fault =>
    rw [compiled] at bad
    cases bad
    rfl
  | ok c =>
    rw [compiled] at bad
    cases bad

theorem compileCompiled {l : ListedJob} {j : CompiledJob σ}
    (ok : compile plan actions l.name l.job = .ok j) : Compiled plan actions l j := by
  obtain ⟨c, compiled, given⟩ := compilePlain plan actions ok
  obtain ⟨name, -, steps⟩ := CompiledJob.compileOk compiled
  obtain ⟨⟨written, named⟩, served, -⟩ := CompiledJob.compileStepsServed steps
  have runs : c.Runs l.job := ⟨written, named⟩
  have resolved : ∀ name ∈ l.job.actionIds, ∃ handler, actions.resolve name = .ok handler := by
    intro name used
    obtain ⟨s, inside, rfl⟩ := Job.memActionIds.1 used
    exact served s inside
  obtain rfl | ⟨attempts, timeout, rfl⟩ := given
  · exact ⟨ok, name, runs, resolved⟩
  · exact ⟨ok, name, CompiledJob.withActivityOptionsRuns runs attempts timeout, resolved⟩

def servedOn (r : Registration η κ) (queue : String) : List String := (r.served.get? queue).getD []

def newcomers (r : Registration η κ) (queue : String) (names : List String) : List String :=
  names.filter fun name => !(r.servedOn queue).contains name

def enlist (client : η) : List String → κ → κ
  | [], k => k
  | name :: rest, k =>
    match actions.resolve name with
    | .error _ => enlist client rest k
    | .ok handler => enlist client rest (p.registerActivity client name handler k)

def fileActivity (client : η) (queue name : String) (handler : ActionHandler σ)
    (r : Registration η κ) : Registration η κ :=
  { r with
    fleet := ⟨r.fleet.clients, p.registerActivity client name handler r.fleet.state⟩
    served := r.served.insert queue (r.servedOn queue ++ [name]) }

theorem registerActivitiesNew (client : η) {queue name : String} {handler : ActionHandler σ}
    {r : Registration η κ} (fresh : name ∉ r.servedOn queue)
    (found : actions.resolve name = .ok handler) (rest : List String) :
    registerActivities p actions client queue (name :: rest) r =
      registerActivities p actions client queue rest (fileActivity p client queue name handler r) := by
  rw [registerActivities, found]
  exact if_neg fun known => fresh (List.contains_iff_mem.1 known)

theorem servedOnFiled (client : η) (queue other name : String) (handler : ActionHandler σ)
    (r : Registration η κ) :
    (fileActivity p client queue name handler r).servedOn other =
      if queue = other then r.servedOn other ++ [name] else r.servedOn other := by
  simp only [servedOn, fileActivity, SortedMap.getInsert]
  split
  · rename_i here
    subst here
    rfl
  · rfl

theorem registerActivitiesEnlist (client : η) (queue : String) {names : List String}
    (distinct : names.Nodup) (served : ∀ name ∈ names, ∃ handler, actions.resolve name = .ok handler)
    (r : Registration η κ) :
    ∃ filed, registerActivities p actions client queue names r =
        (.ok (), { r with
          fleet := ⟨r.fleet.clients,
            enlist p actions client (r.newcomers queue names) r.fleet.state⟩
          served := filed }) ∧
      ∀ other, (filed.get? other).getD [] =
        if queue = other then r.servedOn other ++ r.newcomers queue names else r.servedOn other := by
  induction names generalizing r with
  | nil => exact ⟨r.served, rfl, fun other => by simp [newcomers, servedOn]⟩
  | cons name rest ih =>
    obtain ⟨single, distinct⟩ := List.nodup_cons.1 distinct
    obtain ⟨⟨handler, found⟩, served⟩ := List.forall_mem_cons.1 served
    by_cases known : name ∈ r.servedOn queue
    · obtain ⟨filed, registered, lists⟩ := ih distinct served r
      have same : r.newcomers queue (name :: rest) = r.newcomers queue rest := by
        simp [newcomers, known]
      have skipped : registerActivities p actions client queue (name :: rest) r =
          registerActivities p actions client queue rest r :=
        if_pos (List.contains_iff_mem.2 known)
      rw [same, skipped]
      exact ⟨filed, registered, lists⟩
    · -- a name is filed once, so filing this one leaves the others as new as they were
      have still : (fileActivity p client queue name handler r).newcomers queue rest =
          r.newcomers queue rest := by
        refine List.filter_congr fun other inside => ?_
        have different : other ≠ name := fun same => single (same ▸ inside)
        simp [servedOnFiled, different]
      have first : r.newcomers queue (name :: rest) = name :: r.newcomers queue rest := by
        simp [newcomers, known]
      obtain ⟨filed, registered, lists⟩ := ih distinct served (fileActivity p client queue name handler r)
      rw [still] at registered lists
      refine ⟨filed, ?_, fun other => ?_⟩
      · rw [registerActivitiesNew p actions client known found, registered, first, enlist, found]
        rfl
      · rw [lists, first, servedOnFiled]
        split
        · rw [List.append_assoc, List.singleton_append]
        · rfl

end Registration
end Orchestration
