import Orchestration.Proofs.Dispatch.Trigger
import Orchestration.Proofs.Host.Procedures
import Orchestration.Proofs.Worker.Pass

/-! What an event runs after a worker has registered its jobs. An engine knows procedures by the
names of jobs, and a name may occur in several definitions: the job registered last under a
name, on one engine, is the one that every start of that name runs there. -/
namespace Orchestration

variable {σ : Type}

namespace Registrant

def latest (registrants : List (Registrant σ Connection)) (n : Nat) (name : String) :
    Option (Registrant σ Connection) :=
  (registrants.filter fun g => g.client.engine = n ∧ g.listed.name = name).getLast?

theorem latestCons (g : Registrant σ Connection) (rest : List (Registrant σ Connection)) (n : Nat)
    (name : String) : latest (g :: rest) n name =
      (latest rest n name).or (if g.client.engine = n ∧ g.listed.name = name then some g else none) := by
  rw [latest, List.filter_cons]
  by_cases under : g.client.engine = n ∧ g.listed.name = name
  · simp only [under, and_self, decide_true, if_true, List.getLast?_cons, latest]
    cases (rest.filter fun g => decide (g.client.engine = n ∧ g.listed.name = name)).getLast? <;> rfl
  · simp [under, latest]

theorem latestMem {registrants : List (Registrant σ Connection)} {n : Nat} {name : String}
    {last : Registrant σ Connection} (found : latest registrants n name = some last) :
    last ∈ registrants ∧ last.client.engine = n ∧ last.listed.name = name := by
  have kept := List.mem_of_getLast? found
  simpa using List.mem_filter.1 kept

theorem latestSome {registrants : List (Registrant σ Connection)} {g : Registrant σ Connection}
    (inside : g ∈ registrants) :
    ∃ last, latest registrants g.client.engine g.listed.name = some last := by
  cases found : latest registrants g.client.engine g.listed.name with
  | some last => exact ⟨last, rfl⟩
  | none =>
    rw [latest, List.getLast?_eq_none_iff, List.filter_eq_nil_iff] at found
    exact absurd (found g inside) (by simp)

theorem latestSplit {before after : List (Registrant σ Connection)} {g : Registrant σ Connection}
    (alone : ∀ other ∈ after, other.client.engine = g.client.engine →
      other.listed.name ≠ g.listed.name) :
    latest (before ++ g :: after) g.client.engine g.listed.name = some g := by
  have none : (after.filter fun other => other.client.engine = g.client.engine ∧
      other.listed.name = g.listed.name) = [] := by
    rw [List.filter_eq_nil_iff]
    intro other inside
    simpa using alone other inside
  rw [latest, List.filter_append, List.filter_cons, none]
  simp

end Registrant

def Host.servingAfter (h : Host σ) (registrants : List (Registrant σ Connection)) (n : Nat)
    (name : String) : Option (CompiledJob σ) :=
  ((Registrant.latest registrants n name).map (·.job)).or (h.serving n name)

theorem Host.servingAfterCons (h : Host σ) (g : Registrant σ Connection)
    (rest : List (Registrant σ Connection)) (n : Nat) (name : String) :
    h.servingAfter (g :: rest) n name =
      ((Registrant.latest rest n name).map (·.job)).or (h.servingAfter [g] n name) := by
  rw [servingAfter, servingAfter, Registrant.latestCons, Registrant.latestCons]
  cases Registrant.latest rest n name <;> rfl

namespace Registration
variable {runText : RunId → String} {plan : WorkerPlan σ} {actions : ActionRegistry σ}

theorem enlistServing (runText : RunId → String) (actions : ActionRegistry σ) (client : Connection) (names : List String) {f : Fleet Connection (Host σ)}
    (sound : f.Sound) :
    Fleet.Sound ⟨f.clients, enlist (Host.platform runText) actions client names f.state⟩ ∧
      ∀ n name, (enlist (Host.platform runText) actions client names f.state).serving n name =
        f.state.serving n name := by
  induction names generalizing f with
  | nil => exact ⟨sound, fun n name => rfl⟩
  | cons activity rest ih =>
    rw [enlist]
    cases actions.resolve activity with
    | error e => exact ih sound
    | ok handler =>
      have step : Host.Step runText f.state _ := .registerActivity client activity handler
      obtain ⟨safe, same⟩ := ih (sound.step step)
      refine ⟨safe, fun n name => (same n name).trans ?_⟩
      exact Host.servingChanged f.state (·.registerActivity activity handler) (fun _ => rfl) _ n name

theorem Taken.serving {queue : String} {l : ListedJob} {r next : Registration Connection (Host σ)}
    {answer : Except Error (Registrant σ Connection)} (sound : r.fleet.Sound)
    (taken : Taken (Host.platform runText) plan actions queue l r answer next) :
    next.fleet.Sound ∧ ∀ n name, next.fleet.state.serving n name =
      r.fleet.state.servingAfter answer.toOption.toList n name := by
  have safe := sound.getOrCreate runText queue
  obtain ⟨same, -⟩ := Fleet.getOrCreateServing runText r.fleet queue
  obtain ⟨-, holds⟩ := Fleet.getOrCreateGrows (Host.platform runText) r.fleet queue
  cases taken with
  | invalid bad => exact ⟨sound, fun n name => rfl⟩
  | cut failed =>
    rw [failed] at safe same
    exact ⟨safe, same⟩
  | @filed j client fleet filed fine connected lists =>
    rw [connected] at safe same holds
    obtain ⟨enlisted, still⟩ := enlistServing runText actions client
      (r.newcomers queue l.job.actionIds) safe
    have inside := enlisted.held _ client (holds client rfl)
    refine ⟨enlisted.step (.registerProcedure client l.name j), fun n name => ?_⟩
    refine (Host.servingRegistered inside l.name j n name).trans ?_
    rw [still, same, Host.servingAfter, Except.toOption, Option.toList, Registrant.latestCons]
    split <;> rfl

theorem Pass.serving {queueOf : ListedJob → String} {jobs : List ListedJob}
    {r last : Registration Connection (Host σ)} {answers : List (Except Error (Registrant σ Connection))}
    (sound : r.fleet.Sound) (pass : Pass (Host.platform runText) plan actions queueOf jobs r answers last) :
    last.fleet.Sound ∧ ∀ n name, last.fleet.state.serving n name =
      r.fleet.state.servingAfter (answers.filterMap Except.toOption) n name := by
  induction pass with
  | nil => exact ⟨sound, fun n name => rfl⟩
  | @cons l jobs r answer next answers last head tail ih =>
    obtain ⟨safe, served⟩ := head.serving sound
    obtain ⟨safe, later⟩ := ih safe
    refine ⟨safe, fun n name => ?_⟩
    rw [later, Host.servingAfter, served]
    cases answer with
    | error e => rfl
    | ok g => exact (Host.servingAfterCons r.fleet.state g _ n name).symm

end Registration

namespace Dispatcher

/-- How the start of one job ends on a host, and which run it leaves ready to go, by the connections
before and after. -/
inductive Ended (before after : ClientRegistry Connection)
    (serving : Nat → String → Option (CompiledJob σ)) (input : Json) (l : ListedJob) :
    Except Error RunHandle × List (RunTask σ) → Prop where
  | cut {reason} (apart : before.get? l.job.queue = none) :
      Ended before after serving input l
        (.error (.connectionFailed (before.queueName l.job.queue) 1 reason), [])
  | unknown {c} (held : after.get? l.job.queue = some c) (absent : serving c.engine l.name = none) :
      Ended before after serving input l (.error (.procedureNotRegistered l.name), [])
  | running {c job handle} (held : after.get? l.job.queue = some c)
      (found : serving c.engine l.name = some job) :
      Ended before after serving input l (.ok handle, [⟨c.engine, handle.run, job, .fresh input⟩])

theorem Ended.grows {a b c d : ClientRegistry Connection} (first : a.Grows b) (last : c.Grows d)
    {serving : Nat → String → Option (CompiledJob σ)} {input : Json} {l : ListedJob}
    {e : Except Error RunHandle × List (RunTask σ)} (ended : Ended b c serving input l e) :
    Ended a d serving input l e := by
  cases ended with
  | cut apart =>
    rw [first.queueName]
    refine .cut ?_
    cases held : a.get? l.job.queue with
    | none => rfl
    | some client =>
      rw [first.get held] at apart
      cases apart
  | unknown held absent => exact .unknown (last.get held) absent
  | running held found => exact .running (last.get held) found

theorem Ended.registered {before after : ClientRegistry Connection} {h : Host σ}
    {registrants : List (Registrant σ Connection)} {g : Registrant σ Connection} {input : Json}
    {e : Except Error RunHandle × List (RunTask σ)} (inside : g ∈ registrants)
    (held : before.get? g.listed.job.queue = some g.client) (grows : before.Grows after)
    (ended : Ended before after (h.servingAfter registrants) input g.listed e) :
    ∃ last handle, Registrant.latest registrants g.client.engine g.listed.name = some last ∧
      e = (.ok handle, [⟨g.client.engine, handle.run, last.job, .fresh input⟩]) := by
  obtain ⟨last, latest⟩ := Registrant.latestSome inside
  have serving : h.servingAfter registrants g.client.engine g.listed.name = some last.job := by
    rw [Host.servingAfter, latest]
    rfl
  cases ended with
  | cut apart =>
    rw [held] at apart
    cases apart
  | unknown still absent =>
    cases (grows.get held).symm.trans still
    rw [serving] at absent
    cases absent
  | running still found =>
    cases (grows.get held).symm.trans still
    cases serving.symm.trans found
    exact ⟨last, _, latest, rfl⟩

theorem startJobEnded (runText : RunId → String) (input : Json) (l : ListedJob)
    (f : Fleet Connection (Host σ)) :
    let out := startJob (Host.platform runText) input l.name l.job f
    ∃ queued, out.2.state.ready = f.state.ready ++ queued ∧ f.clients.Grows out.2.clients ∧
      (∀ n name, out.2.state.serving n name = f.state.serving n name) ∧
      Ended f.clients out.2.clients f.state.serving input l (out.1, queued) := by
  obtain ⟨same, ready⟩ := Fleet.getOrCreateServing runText f (f.clients.queueName l.job.queue)
  obtain ⟨grows, holds⟩ :=
    Fleet.getOrCreateGrows (Host.platform runText) f (f.clients.queueName l.job.queue)
  simp only [startJob]
  rcases connected : f.getOrCreate (Host.platform runText) (f.clients.queueName l.job.queue) with
    ⟨e | c, g⟩
  · rw [connected] at same ready grows
    obtain ⟨apart, reason, rfl⟩ := Fleet.getOrCreateFailed connected
    rw [f.clients.queueNameAgain]
    rw [f.clients.getNamed] at apart
    exact ⟨[], ready.trans (List.append_nil _).symm, grows, same, .cut apart⟩
  · rw [connected] at same ready grows holds
    have held : g.clients.get? l.job.queue = some c := by
      rw [ClientRegistry.get?, grows.queueName, ← f.clients.queueNameAgain]
      exact holds c rfl
    obtain ⟨queued, left, kept, begun⟩ := Host.startRunBegun runText g.state c.engine l.name
      (f.clients.queueName l.job.queue) input
    refine ⟨queued, left.trans (congrArg (· ++ queued) ready), grows,
      fun n name => (kept n name).trans (same n name), ?_⟩
    simp only [Host.platform]
    generalize g.state.startRun runText c.engine l.name (f.clients.queueName l.job.queue) input =
      started at begun
    obtain ⟨answer, k⟩ := started
    simp only at begun ⊢
    cases begun with
    | unknown absent => exact .unknown held ((same _ _).symm.trans absent)
    | running found => exact .running held ((same _ _).symm.trans found)

theorem sweepEnded (runText : RunId → String) (input : Json) (jobs : List ListedJob)
    (f : Fleet Connection (Host σ)) :
    let out := sweep (fun l => startJob (Host.platform runText) input l.name l.job) jobs f
    ∃ ends, out.1 = ends.map Prod.fst ∧
      out.2.state.ready = f.state.ready ++ (ends.map Prod.snd).flatten ∧
      f.clients.Grows out.2.clients ∧
      List.Forall₂ (Ended f.clients out.2.clients f.state.serving input) jobs ends := by
  induction jobs generalizing f with
  | nil => exact ⟨[], rfl, (List.append_nil _).symm, .refl _, .nil⟩
  | cons l rest ih =>
    obtain ⟨queued, ready, grows, same, ended⟩ := startJobEnded runText input l f
    obtain ⟨ends, answers, left, grown, all⟩ :=
      ih (startJob (Host.platform runText) input l.name l.job f).2
    rw [funext fun n => funext fun name => same n name] at all
    refine ⟨((startJob (Host.platform runText) input l.name l.job f).1, queued) :: ends, ?_, ?_,
      grows.trans grown, .cons (ended.grows (.refl _) grown) ?_⟩
    · rw [sweep, answers, List.map_cons]
    · simp only [sweep, left, ready, List.map_cons, List.flatten_cons, List.append_assoc]
    · exact all.imp fun _ _ ended => ended.grows grows (.refl _)

theorem triggerEnded (runText : RunId → String) (definitions : List Definition) (event : String)
    (input : Json) (f : Fleet Connection (Host σ)) :
    let out := trigger (Host.platform runText) definitions event input f
    ∃ ends handles started failures,
      Outcome.Parted (listening definitions event) (ends.map Prod.fst) handles started failures ∧
      out.1 = (if failures = [] then .ok handles else .error (.dispatch started failures)) ∧
      out.2.state.ready = f.state.ready ++ (ends.map Prod.snd).flatten ∧
      f.clients.Grows out.2.clients ∧
      List.Forall₂ (Ended f.clients out.2.clients f.state.serving input) (listening definitions event)
        ends := by
  obtain ⟨ends, answers, ready, grows, all⟩ := sweepEnded runText input (listening definitions event) f
  have count : (listening definitions event).length = (ends.map Prod.fst).length := by
    rw [List.length_map]
    exact all.length_eq
  obtain ⟨handles, started, failures, parted, -, concluded⟩ := Outcome.concludeParted count
  rw [triggerSweep]
  exact ⟨ends, handles, started, failures, parted, by rw [answers, concluded], ready, grows, all⟩

end Dispatcher

/-- After a worker whose own queue is not set has been built, an event starts for each job of the
definitions that listen to it the job registered last under its name on the engine behind its
queue, and leaves no run and reports a failure where there is none. A job that is registered
itself runs its own steps unless a later job takes its name on its engine. -/
theorem WorkerPlan.triggerRunsLatest (runText : RunId → String) (plan : WorkerPlan σ)
    {f : Fleet Connection (Host σ)} (reachable : Fleet.Reachable runText f)
    (unset : Text.given plan.queue = none) {worker : Worker σ}
    (ok : (plan.build (Host.platform runText) f).1 = .ok worker) (event : String) (input : Json) :
    let built := (plan.build (Host.platform runText) f).2
    let out := Dispatcher.trigger (Host.platform runText) plan.definitions event input built
    ∃ (answers : List (Except Error (Registrant σ Connection))) (registrants : _) (names : List String),
      Outcome.Parted plan.listed answers registrants names worker.rejected ∧
      worker.registered = registrants.map Registrant.record ∧
      List.Forall₂ (fun l answer => ∀ g, answer = .ok g →
        g.listed = l ∧ g.job.Runs l.job) plan.listed answers ∧
      ∃ ends handles started failures,
        Outcome.Parted (Dispatcher.listening plan.definitions event) (ends.map Prod.fst) handles started
          failures ∧
        out.1 = (if failures = [] then .ok handles else .error (.dispatch started failures)) ∧
        out.2.state.ready = built.state.ready ++ (ends.map Prod.snd).flatten ∧
        List.Forall₂ (fun l e =>
          Dispatcher.Ended built.clients out.2.clients (f.state.servingAfter registrants) input l e ∧
          ∀ g ∈ registrants, g.listed = l → ∃ last handle,
            Registrant.latest registrants g.client.engine l.name = some last ∧
            e = (.ok handle, [⟨g.client.engine, handle.run, last.job, .fresh input⟩]) ∧
            (last.listed.name = l.name ∧ last.job.Runs last.listed.job) ∧
            ∀ before after, registrants = before ++ g :: after →
              (∀ other ∈ after, other.client.engine = g.client.engine → other.listed.name ≠ l.name) →
              last = g)
          (Dispatcher.listening plan.definitions event) ends := by
  intro built out
  obtain ⟨answers, registrants, names, last, pass, parted, registered, fleet⟩ := plan.buildOk ok
  have queues : ∀ job, plan.queueFor f.clients job = f.clients.queueName job.queue := fun job =>
    (plan.queueForEq f.clients job).2 (.inr (by rw [queueOn, unset]; rfl))
  have held := pass.held fun l => plan.queueForNamed f.clients l.job
  obtain ⟨-, serving⟩ := pass.serving reachable.sound
  rw [parted.results] at serving
  have joined : ∀ g ∈ registrants, g.job.Runs g.listed.job ∧
      built.clients.get? g.listed.job.queue = some g.client := by
    intro g inside
    obtain ⟨compiled, holds⟩ :=
      pass.heldFor (fun l => plan.queueForNamed f.clients l.job) parted g inside
    rw [queues, ← pass.grows.queueName, last.fleet.clients.getNamed, ← fleet] at holds
    exact ⟨compiled.runs, holds⟩
  obtain ⟨ends, handles, started, failures, divided, concluded, ready, grows, all⟩ :=
    Dispatcher.triggerEnded runText plan.definitions event input built
  refine ⟨answers, registrants, names, parted, registered, held.imp fun l a filed g same => ?_,
    ends, handles, started, failures, divided, concluded, ready, all.imp fun l e ended => ?_⟩
  · obtain ⟨listed, -, compiled, -⟩ := filed g same
    exact ⟨listed, compiled.runs⟩
  · rw [show built.state.serving = f.state.servingAfter registrants from
      funext fun n => funext fun name => by rw [← serving, ← fleet]] at ended
    refine ⟨ended, ?_⟩
    rintro g inside rfl
    obtain ⟨latest, handle, found, same⟩ := ended.registered inside (joined g inside).2 grows
    obtain ⟨known, -, named⟩ := Registrant.latestMem found
    refine ⟨latest, handle, found, same, ⟨named, (joined latest known).1⟩, ?_⟩
    rintro before after rfl alone
    rw [Registrant.latestSplit alone] at found
    exact (Option.some.inj found).symm

def namesakes (action : String) : WorkerPlan Unit :=
  ⟨none, [CompiledJob.probe],
    [⟨"first", ⟨["deploy"], none⟩,
        SortedMap.empty.insert "build" ⟨"", none, [⟨"", "one", action, none, none⟩]⟩⟩,
      ⟨"second", ⟨[], none⟩,
        SortedMap.empty.insert "build" ⟨"", none, [⟨"", "two", "test:create", none, none⟩]⟩⟩], none⟩

def oneEngine : Fleet Connection (Host Unit) :=
  ⟨⟨.standard, none, ⟨"1", "localhost"⟩, .empty⟩, .start true .empty 0 ()⟩

theorem triggerRunsLatestNamesakes :
    let p := Host.platform fun run => toString run.number
    let plan := namesakes "test:create"
    let built := (plan.build p oneEngine).2
    let out := Dispatcher.trigger p plan.definitions "deploy" .null built
    (∃ worker, (plan.build p oneEngine).1 = .ok worker) ∧
      (∃ registrants e, Dispatcher.Ended built.clients out.2.clients
          (oneEngine.state.servingAfter registrants) .null
          ⟨"first", "build", ⟨"", none, [⟨"", "one", "test:create", none, none⟩]⟩⟩ e ∧
        out.2.state.ready = built.state.ready ++ e.2) ∧
      out.2.state.ready.map (fun t => t.job.steps.map (·.step.id)) = [["two"]] := by
  have reachable : Fleet.Reachable (fun run => toString run.number) oneEngine := .start rfl ..
  have ok : ((namesakes "test:create").build (Host.platform fun run => toString run.number) oneEngine).1 =
      .ok ⟨"default", .ofIntegrations [CompiledJob.probe],
        [⟨"first", "build", "default"⟩, ⟨"second", "build", "default"⟩], []⟩ := rfl
  obtain ⟨-, registrants, -, -, -, -, ends, -, -, -, -, -, ready, all⟩ :=
    (namesakes "test:create").triggerRunsLatest _ reachable rfl ok "deploy" .null
  refine ⟨⟨_, ok⟩, ?_, by decide +kernel⟩
  cases all with
  | @cons l e jobs ends head tail =>
    cases tail
    exact ⟨registrants, e, head.1, by simpa using ready⟩

/-- The run that is started for the first definition takes the steps of the second one, whether
the first one's own job is registered or rejected. -/
theorem namesakeRuns :
    let p := Host.platform fun run => toString run.number
    let outcome := fun action =>
      let built := (namesakes action).build p oneEngine
      let out := Dispatcher.trigger p (namesakes action).definitions "deploy" .null built.2
      (built.1.toOption.map fun w => (w.registered.map (·.workflow), w.rejected.map (·.workflow)),
        out.1.toOption.map List.length, out.2.state.ready.map fun t => t.job.steps.map (·.step.id))
    outcome "test:create" = (some (["first", "second"], []), some 1, [["two"]]) ∧
      outcome "test:missing" = (some (["second"], ["first"]), some 1, [["two"]]) := by
  decide +kernel

end Orchestration
