import Orchestration.Proofs.Worker.Register

/-! A worker's pass over its jobs, on any platform: one step for each job of each definition, in
order, whatever became of the ones before it. What a build reports is a reading of the pass. -/
namespace Orchestration

variable {σ η κ : Type}

namespace WorkerPlan

def listed (plan : WorkerPlan σ) : List ListedJob := plan.definitions.flatMap Definition.listed

def queueFor (plan : WorkerPlan σ) (clients : ClientRegistry η) (job : Job) : String :=
  if Text.isBlankText job.queue then plan.queueOn clients else job.queue

theorem queueOnNamed (plan : WorkerPlan σ) (clients : ClientRegistry η) :
    clients.queueName (plan.queueOn clients) = plan.queueOn clients := by
  rw [queueOn]
  cases own : Text.given plan.queue with
  | none => simp [ClientRegistry.queueName]
  | some queue =>
    obtain ⟨-, given⟩ := Option.filter_eq_some_iff.1 own
    exact if_neg (by simpa using given)

theorem queueForNamed (plan : WorkerPlan σ) (clients : ClientRegistry η) (job : Job) :
    clients.queueName (plan.queueFor clients job) = plan.queueFor clients job := by
  rw [queueFor]
  split
  · exact queueOnNamed plan clients
  · rename_i given
    exact if_neg given

theorem queueForEq (plan : WorkerPlan σ) (clients : ClientRegistry η) (job : Job) :
    plan.queueFor clients job = clients.queueName job.queue ↔
      Text.isBlankText job.queue = false ∨ plan.queueOn clients = clients.defaultQueue := by
  by_cases blank : Text.isBlankText job.queue = true
  · simp [queueFor, ClientRegistry.queueName, blank]
  · simp [queueFor, ClientRegistry.queueName, blank]

end WorkerPlan

namespace Registration
variable (p : Platform σ η κ) (plan : WorkerPlan σ) (actions : ActionRegistry σ)

inductive Taken (queue : String) (l : ListedJob) (r : Registration η κ) :
    Except Error (Registrant σ η) → Registration η κ → Prop where
  | invalid {e} (bad : compile plan actions l.name l.job = .error e) :
      Taken queue l r (.error e) { r with rejected := r.rejected ++ [⟨l.workflow, l.name, e⟩] }
  | cut {e fleet} (failed : r.fleet.getOrCreate p queue = (.error e, fleet))
      (valid : ∃ j, compile plan actions l.name l.job = .ok j) :
      Taken queue l r (.error e)
        { r with fleet := fleet, rejected := r.rejected ++ [⟨l.workflow, l.name, e⟩] }
  | filed {j client fleet filed} (fine : Compiled plan actions l j)
      (connected : r.fleet.getOrCreate p queue = (.ok client, fleet))
      (lists : ∀ other, (filed.get? other).getD [] =
        if queue = other then r.servedOn other ++ r.newcomers queue l.job.actionIds
        else r.servedOn other) :
      Taken queue l r (.ok ⟨l, queue, client, j⟩)
        { fleet := ⟨fleet.clients, p.registerProcedure client l.name j
            (enlist p actions client (r.newcomers queue l.job.actionIds) fleet.state)⟩
          served := filed
          registered := r.registered ++ [⟨l.workflow, l.name, queue⟩]
          rejected := r.rejected }

theorem takeTaken (own : String) (l : ListedJob) (r : Registration η κ) :
    ∃ answer, Taken p plan actions (if Text.isBlankText l.job.queue then own else l.job.queue) l r
      answer (take p plan actions own l.workflow r (l.name, l.job)) := by
  simp only [take]
  generalize (if Text.isBlankText l.job.queue then own else l.job.queue) = queue
  rw [registerJob]
  cases compiled : compile plan actions l.name l.job with
  | error e => exact ⟨_, .invalid compiled⟩
  | ok j =>
    rcases connected : r.fleet.getOrCreate p queue with ⟨e | client, fleet⟩
    · exact ⟨_, .cut connected ⟨j, compiled⟩⟩
    · have fine := compileCompiled plan actions compiled
      obtain ⟨filed, registered, lists⟩ := registerActivitiesEnlist p actions client queue
        l.job.actionIdsNodup fine.served { r with fleet := fleet }
      simp only [fine.runs.activityNames, registered]
      exact ⟨_, .filed fine connected lists⟩

inductive Pass (queueOf : ListedJob → String) : List ListedJob → Registration η κ →
    List (Except Error (Registrant σ η)) → Registration η κ → Prop where
  | nil {r} : Pass queueOf [] r [] r
  | cons {l jobs r answer next answers last}
      (head : Taken p plan actions (queueOf l) l r answer next)
      (tail : Pass queueOf jobs next answers last) :
      Pass queueOf (l :: jobs) r (answer :: answers) last

variable {p plan actions}

theorem Pass.parted {queueOf : ListedJob → String} {jobs : List ListedJob} {r last : Registration η κ}
    {answers : List (Except Error (Registrant σ η))} (pass : Pass p plan actions queueOf jobs r answers last) :
    ∃ registrants names rejected, Outcome.Parted jobs answers registrants names rejected ∧
      last.registered = r.registered ++ registrants.map Registrant.record ∧
      last.rejected = r.rejected ++ rejected := by
  induction pass with
  | nil => exact ⟨[], [], [], .nil, by simp⟩
  | cons head tail ih =>
    obtain ⟨registrants, names, rejected, parted, registered, refused⟩ := ih
    cases head with
    | invalid bad => exact ⟨_, _, _, .error parted, registered, by simp [refused]⟩
    | cut failed => exact ⟨_, _, _, .error parted, registered, by simp [refused]⟩
    | filed fine connected lists =>
      exact ⟨_, _, _, .ok parted, by simp [registered, Registrant.record], refused⟩

theorem Taken.grows {queue : String} {l : ListedJob} {r next : Registration η κ}
    {answer : Except Error (Registrant σ η)} (taken : Taken p plan actions queue l r answer next) :
    r.fleet.clients.Grows next.fleet.clients := by
  have grown := (Fleet.getOrCreateGrows p r.fleet queue).1
  cases taken with
  | invalid bad => exact .refl _
  | cut failed => rwa [failed] at grown
  | filed fine connected lists => rwa [connected] at grown

theorem Taken.held {queue : String} {l : ListedJob} {r next : Registration η κ} {g : Registrant σ η}
    (named : r.fleet.clients.queueName queue = queue)
    (taken : Taken p plan actions queue l r (.ok g) next) :
    g.listed = l ∧ g.queue = queue ∧ Compiled plan actions l g.job ∧
      next.fleet.clients.get? queue = some g.client := by
  have grows := taken.grows
  have holds := (Fleet.getOrCreateGrows p r.fleet queue).2
  cases taken with
  | filed fine connected lists =>
    rw [connected, named] at holds
    refine ⟨rfl, rfl, fine, ?_⟩
    rw [ClientRegistry.get?, grows.queueName, named]
    exact holds _ rfl

theorem Pass.grows {queueOf : ListedJob → String} {jobs : List ListedJob} {r last : Registration η κ}
    {answers : List (Except Error (Registrant σ η))} (pass : Pass p plan actions queueOf jobs r answers last) :
    r.fleet.clients.Grows last.fleet.clients := by
  induction pass with
  | nil => exact .refl _
  | cons head tail ih => exact head.grows.trans ih

theorem Pass.held {queueOf : ListedJob → String} {jobs : List ListedJob} {r last : Registration η κ}
    {answers : List (Except Error (Registrant σ η))}
    (named : ∀ l, r.fleet.clients.queueName (queueOf l) = queueOf l)
    (pass : Pass p plan actions queueOf jobs r answers last) :
    List.Forall₂ (fun l answer => ∀ g, answer = .ok g → g.listed = l ∧ g.queue = queueOf l ∧
      Compiled plan actions l g.job ∧ last.fleet.clients.get? (queueOf l) = some g.client)
      jobs answers := by
  induction pass with
  | nil => exact .nil
  | cons head tail ih =>
    refine .cons (fun g ok => ?_) (ih fun l => ?_)
    · obtain ⟨listed, queued, compiled, held⟩ := (ok ▸ head).held (named _)
      exact ⟨listed, queued, compiled, tail.grows.get held⟩
    · rw [head.grows.queueName]
      exact named l

theorem Pass.heldFor {queueOf : ListedJob → String} {jobs : List ListedJob} {r last : Registration η κ}
    {answers : List (Except Error (Registrant σ η))} {registrants : List (Registrant σ η)}
    {names : List String} {rejected : List (JobFailure Error)}
    (named : ∀ l, r.fleet.clients.queueName (queueOf l) = queueOf l)
    (pass : Pass p plan actions queueOf jobs r answers last)
    (parted : Outcome.Parted jobs answers registrants names rejected) :
    ∀ g ∈ registrants, Compiled plan actions g.listed g.job ∧
      last.fleet.clients.get? (queueOf g.listed) = some g.client := by
  intro g inside
  obtain ⟨l, -, holds⟩ := parted.drawn (pass.held named) g inside
  obtain ⟨rfl, -, compiled, held⟩ := holds g rfl
  exact ⟨compiled, held⟩

end Registration

theorem WorkerPlan.takeAllPass (p : Platform σ η κ) (plan : WorkerPlan σ) (actions : ActionRegistry σ)
    (own : String) (r : Registration η κ) :
    ∃ answers, Registration.Pass p plan actions
      (fun l => if Text.isBlankText l.job.queue then own else l.job.queue) plan.listed r answers
      (Registration.takeAll p plan actions own r) := by
  have taken (jobs : List ListedJob) (r : Registration η κ) :
      ∃ answers, Registration.Pass p plan actions
        (fun l => if Text.isBlankText l.job.queue then own else l.job.queue) jobs r answers
        (jobs.foldl (fun r l => Registration.take p plan actions own l.workflow r (l.name, l.job)) r) := by
    induction jobs generalizing r with
    | nil => exact ⟨[], .nil⟩
    | cons l rest ih =>
      obtain ⟨answer, head⟩ := Registration.takeTaken p plan actions own l r
      obtain ⟨answers, tail⟩ := ih (Registration.take p plan actions own l.workflow r (l.name, l.job))
      exact ⟨answer :: answers, .cons head tail⟩
  have flat : Registration.takeAll p plan actions own r = plan.listed.foldl
      (fun r l => Registration.take p plan actions own l.workflow r (l.name, l.job)) r := by
    rw [listed, List.foldl_flatMap]
    simp only [Definition.listed, List.foldl_map]
    rfl
  rw [flat]
  exact taken plan.listed r

theorem WorkerPlan.buildPass (p : Platform σ η κ) (plan : WorkerPlan σ) (f : Fleet η κ) :
    ∃ answers registrants names rejected last,
      Registration.Pass p plan (.ofIntegrations plan.integrations)
        (fun l => plan.queueFor f.clients l.job) plan.listed ⟨f, .empty, [], []⟩ answers last ∧
      Outcome.Parted plan.listed answers registrants names rejected ∧
      (plan.build p f).1 = (if registrants = [] ∧ rejected ≠ [] then
          .error (.noJobsRegistered (rejected.map (·.error)))
        else .ok ⟨plan.queueOn f.clients, .ofIntegrations plan.integrations,
          registrants.map Registrant.record, rejected⟩) ∧
      (plan.build p f).2 = last.fleet := by
  obtain ⟨answers, pass⟩ := plan.takeAllPass p (.ofIntegrations plan.integrations)
    (plan.queueOn f.clients) ⟨f, .empty, [], []⟩
  obtain ⟨registrants, names, rejected, parted, registered, refused⟩ := pass.parted
  refine ⟨answers, registrants, names, rejected, _, pass, parted, ?_, ?_⟩
  · simp only [build, registered, refused, List.nil_append]
    cases registrants <;> cases rejected <;> rfl
  · simp only [build]
    split <;> rfl

theorem WorkerPlan.buildOk {p : Platform σ η κ} {plan : WorkerPlan σ} {f : Fleet η κ} {worker : Worker σ}
    (ok : (plan.build p f).1 = .ok worker) :
    ∃ answers registrants names last,
      Registration.Pass p plan (.ofIntegrations plan.integrations)
        (fun l => plan.queueFor f.clients l.job) plan.listed ⟨f, .empty, [], []⟩ answers last ∧
      Outcome.Parted plan.listed answers registrants names worker.rejected ∧
      worker.registered = registrants.map Registrant.record ∧ (plan.build p f).2 = last.fleet := by
  obtain ⟨answers, registrants, names, rejected, last, pass, parted, answer, fleet⟩ := plan.buildPass p f
  rw [ok] at answer
  split at answer
  · cases answer
  · cases answer
    exact ⟨answers, registrants, names, last, pass, parted, rfl, fleet⟩

end Orchestration
