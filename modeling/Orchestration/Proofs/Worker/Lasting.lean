import Orchestration.Proofs.Worker.Served

/-! What lasts of a registration, whatever happens to the fleet afterwards: more workers, more
connections, and anything that a host can do, in any order. -/
namespace Orchestration

variable {σ : Type} {runText : RunId → String}

namespace Fleet

inductive Change (runText : RunId → String) (f : Fleet Connection (Host σ)) :
    Fleet Connection (Host σ) → Prop where
  | move {h} (move : Host.Move runText f.state h) : Change runText f ⟨f.clients, h⟩
  | getOrCreate (queue) : Change runText f (f.getOrCreate (Host.platform runText) queue).2
  | ensureDefault : Change runText f (f.ensureDefault (Host.platform runText)).2
  | build (plan : WorkerPlan σ) : Change runText f (plan.build (Host.platform runText) f).2

def Later (runText : RunId → String) : Fleet Connection (Host σ) → Fleet Connection (Host σ) → Prop :=
  Relation.ReflTransGen (Change runText)

inductive Lived (runText : RunId → String) : Fleet Connection (Host σ) → Prop where
  | start {clients : ClientRegistry Connection} (fresh : clients.clients = .empty)
      (shared outages moment services) : Lived runText ⟨clients, .start shared outages moment services⟩
  | change {f g} (before : Lived runText f) (change : Change runText f g) : Lived runText g

theorem Later.moves {f : Fleet Connection (Host σ)} {h : Host σ} (moves : Host.Moves runText f.state h) :
    Later runText f ⟨f.clients, h⟩ := by
  induction moves with
  | refl => exact .refl
  | tail before move ih => exact ih.tail (.move move)

theorem Later.step {f : Fleet Connection (Host σ)} {h : Host σ} (step : Host.Step runText f.state h) :
    Later runText f ⟨f.clients, h⟩ :=
  .moves step.moves

theorem Lived.later {f g : Fleet Connection (Host σ)} (lived : Lived runText f)
    (later : Later runText f g) : Lived runText g := by
  induction later with
  | refl => exact lived
  | tail before change ih => exact ih.change change

theorem Reachable.lived {f : Fleet Connection (Host σ)} (reachable : Reachable runText f) :
    Lived runText f := by
  induction reachable with
  | start fresh shared outages moment services => exact .start fresh shared outages moment services
  | getOrCreate before queue ih => exact ih.change (.getOrCreate queue)
  | ensureDefault before ih => exact ih.change .ensureDefault
  | host before step ih => exact ih.later (.step step)

theorem Change.keeps {f g : Fleet Connection (Host σ)} (sound : f.Sound) (change : Change runText f g) :
    g.Sound ∧ Host.Moves runText f.state g.state := by
  cases change with
  | move move => exact ⟨sound.move move, .one move⟩
  | getOrCreate queue => exact ⟨sound.getOrCreate runText queue, getOrCreateMoves f queue⟩
  | ensureDefault =>
    refine ⟨?_, ensureDefaultMoves f⟩
    simp only [Fleet.ensureDefault]
    split
    · exact sound
    · exact sound.connect runText _ _
  | build plan =>
    obtain ⟨answers, -, -, -, last, pass, -, -, fleet⟩ := plan.buildPass (Host.platform runText) f
    rw [fleet]
    exact ⟨(pass.serving sound).1, pass.moves⟩

theorem Later.keeps {f g : Fleet Connection (Host σ)} (sound : f.Sound) (later : Later runText f g) :
    g.Sound ∧ Host.Moves runText f.state g.state := by
  induction later with
  | refl => exact ⟨sound, .refl _⟩
  | tail before change ih =>
    obtain ⟨safe, moves⟩ := change.keeps ih.1
    exact ⟨safe, ih.2.trans moves⟩

theorem Lived.orderly {f : Fleet Connection (Host σ)} (lived : Lived runText f) :
    f.Sound ∧ f.state.Orderly := by
  induction lived with
  | start fresh shared outages moment services =>
    have reachable : Reachable runText ⟨_, .start shared outages moment services⟩ := .start fresh ..
    exact ⟨reachable.sound, fun t none => nomatch none⟩
  | change before change ih =>
    obtain ⟨safe, moves⟩ := change.keeps ih.1
    exact ⟨safe, moves.keeps.2 ih.2⟩

end Fleet

/-- A job compiles if and only if an integration offers the action of every step, and otherwise fails
for the first step that offends. Whatever has happened to a fleet before a worker is built and
whatever happens to it later: a run of a job that the worker registered, on the engine where it
is registered, finds with its job and with the engine every action that it ever looks up. -/
theorem WorkerPlan.registeredStepsServed (runText : RunId → String) (plan : WorkerPlan σ)
    {f : Fleet Connection (Host σ)} (lived : Fleet.Lived runText f) :
    let built := plan.build (Host.platform runText) f
    (∀ (integrations : List (Integration σ)) (name : String) (job : Job),
      ((∃ j, CompiledJob.compile name job (.ofIntegrations integrations) = .ok j) ↔
        ∀ s ∈ job.steps, s.Offered integrations) ∧
      ∀ e, CompiledJob.compile name job (.ofIntegrations integrations) = .error e ↔
        ∃ before s after,
          CompiledJob.FirstOffence integrations name job.steps before s after e) ∧
    ∃ (answers : List (Except Error (Registrant σ Connection))) (registrants : _) (names : List String)
      (rejected : List (JobFailure Error)),
      Outcome.Parted plan.listed answers registrants names rejected ∧
      built.1 = (if registrants = [] ∧ rejected ≠ [] then
          .error (.noJobsRegistered (rejected.map (·.error)))
        else .ok ⟨plan.queueOn f.clients, .ofIntegrations plan.integrations,
          registrants.map Registrant.record, rejected⟩) ∧
      List.Forall₂ (fun l answer => ∀ g, answer = .ok g → g.listed = l ∧
        Registration.compile plan (.ofIntegrations plan.integrations) l.name l.job = .ok g.job ∧
        g.queue = plan.queueFor f.clients l.job ∧ built.2.clients.get? g.queue = some g.client)
        plan.listed answers ∧
      ∀ later, Fleet.Later runText built.2 later → ∀ g ∈ registrants,
        g.Served later.state ∧
        ∀ t ∈ later.state.tasks, t.engine = g.client.engine → t.job = g.job → ∀ services : σ,
          (∃ asks, t.Asks (later.state.engine t.engine).activities services asks) ∧
          ∀ asks, t.Asks (later.state.engine t.engine).activities services asks →
            ∀ ask ∈ asks, ask.Found := by
  intro built
  obtain ⟨answers, registrants, names, rejected, last, pass, parted, answer, fleet⟩ :=
    plan.buildPass (Host.platform runText) f
  have named (l : ListedJob) : f.clients.queueName (plan.queueFor f.clients l.job) =
      plan.queueFor f.clients l.job :=
    plan.queueForNamed f.clients l.job
  have left : built.2 = last.fleet := fleet
  have held := pass.held named
  rw [← left] at held
  have stocked := pass.stocked named lived.orderly.1 fun queue name inside => by cases inside
  rw [← left] at stocked
  have grown : Fleet.Lived runText built.2 := lived.change (.build plan)
  refine ⟨fun integrations name job => ⟨CompiledJob.compileOffered, fun e => CompiledJob.compileError⟩,
    answers, registrants, names, rejected, parted, answer, held.imp fun l a filed g same => ?_,
    fun later since g inside => ?_⟩
  · obtain ⟨listed, queued, compiled, holds⟩ := filed g same
    exact ⟨listed, compiled.made, queued, queued ▸ holds⟩
  · have moves := (since.keeps grown.orderly.1).2
    have served : g.Served later.state := (stocked g (parted.okMem.2 inside)).retains moves.keeps.1
    refine ⟨served, fun t there engine job services => ⟨t.asksOf _ services, fun asks asked => ?_⟩⟩
    have among : t.Among := (grown.later since).orderly.2 t there
    refine RunTask.asksFound among ?_ asked
    rw [engine, job]
    exact served

def nightly : WorkerPlan Unit :=
  ⟨none, [CompiledJob.probe],
    [⟨"nightly", ⟨[], none⟩,
      SortedMap.empty.insert "build" ⟨"", none, [⟨"", "one", "test:create", none, none⟩]⟩⟩], none⟩

theorem registeredStepsServedNightly :
    let p := Host.platform fun run => toString run.number
    let built := (nightly.build p oneEngine).2
    let started := (p.startRun ⟨0, 0⟩ "build" "default" .null built.state).2
    ∃ t asks, started.ready = [t] ∧ t.Asks (started.engine 0).activities () asks ∧
      ∀ ask ∈ asks, ask.Found := by
  have lived : Fleet.Lived (fun run => toString run.number) oneEngine := .start rfl ..
  obtain ⟨-, answers, registrants, names, rejected, parted, answer, made, lasting⟩ :=
    nightly.registeredStepsServed _ lived
  let job : CompiledJob Unit :=
    ⟨"build", "", [⟨⟨"", "one", "test:create", none, none⟩, ⟨"test", "create"⟩, .standard none⟩],
      .ofIntegrations [CompiledJob.probe]⟩
  let t : RunTask Unit := ⟨0, ⟨0⟩, job, .fresh .null⟩
  have queued : ((Host.platform fun run => toString run.number).startRun ⟨0, 0⟩ "build" "default" .null
      (nightly.build (Host.platform fun run => toString run.number) oneEngine).2.state).2.ready = [t] := rfl
  have since : Fleet.Later (fun run => toString run.number)
      (nightly.build (Host.platform fun run => toString run.number) oneEngine).2 ⟨_, _⟩ :=
    .step (.startRun ⟨0, 0⟩ "build" "default" .null)
  cases made with
  | @cons l a _ _ head tail =>
    cases tail
    cases a with
    | error e =>
      cases parted with
      | error rest =>
        cases rest
        cases answer
    | ok g =>
      obtain ⟨-, compiled, queue, held⟩ := head g rfl
      have same : g.job = job := (Except.ok.inj compiled).symm
      have client : g.client = ⟨0, 0⟩ := by
        rw [queue] at held
        exact (Option.some.inj held).symm
      have inside : g ∈ registrants := parted.okMem.1 List.mem_cons_self
      obtain ⟨-, polls⟩ := lasting _ since g inside
      have there := Host.memTasks.2 (.inl (queued ▸ List.mem_singleton_self t))
      obtain ⟨⟨asks, asked⟩, found⟩ := polls t there (client ▸ rfl) same.symm ()
      exact ⟨t, asks, queued, asked, found asks asked⟩

end Orchestration
