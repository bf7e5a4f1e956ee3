import Orchestration.Proofs.Worker.Accounted

/-! On which connection a worker registers a job, and on which one the dispatcher looks for it.
The worker has a queue of its own for jobs that name none, the dispatcher has the default
queue of the connections: the two agree on a job unless it falls to queues that differ. -/
namespace Orchestration

variable {σ η κ : Type}

/-- For any platform and any connections: a job that a worker registers stands, with all its
activities, on the connection held for its queue, and that is the connection and the queue by
which the dispatcher starts it and schedules it ever after, if and only if the job names a
queue or the worker's own queue is the default one. -/
theorem WorkerPlan.registeredWhereDispatched (p : Platform σ η κ) (plan : WorkerPlan σ) (f : Fleet η κ) :
    let built := plan.build p.noted f.noted
    Plainly built (plan.build p f) ∧
    ∃ (answers : List (Except Error (Registrant σ η))) (registrants : List (Registrant σ η))
      (names : List String) (rejected : List (JobFailure Error)) (blocks : List (List (Note σ η))),
      Outcome.Parted plan.listed answers registrants names rejected ∧
      built.1 = (if registrants = [] ∧ rejected ≠ [] then
          .error (.noJobsRegistered (rejected.map (·.error)))
        else .ok ⟨plan.queueOn f.clients, .ofIntegrations plan.integrations,
          registrants.map Registrant.record, rejected⟩) ∧
      built.2.state.2 = blocks.flatten ∧
      ∀ (i : Nat) (l : ListedJob) (g : Registrant σ η), plan.listed[i]? = some l →
        answers[i]? = some (.ok g) →
        (∃ own, blocks[i]? = some own ∧
          Registration.Stands (.ofIntegrations plan.integrations) built.2.clients l
            (plan.queueFor f.clients l.job) g (blocks.take i).flatten own) ∧
        (f.clients.queueName l.job.queue = g.queue ↔
          Text.isBlankText l.job.queue = false ∨ plan.queueOn f.clients = f.clients.defaultQueue) ∧
        ∀ later : Fleet η κ, built.2.clients.Grows later.clients →
          (f.clients.queueName l.job.queue = g.queue →
            Dispatcher.Dispatched p later l g.client g.queue) ∧
          (f.clients.queueName l.job.queue ≠ g.queue →
            g.queue = plan.queueOn f.clients ∧
            ∀ client, later.clients.get? l.job.queue = some client →
              Dispatcher.Dispatched p later l client f.clients.defaultQueue) := by
  intro built
  obtain ⟨answers, registrants, names, rejected, last, pass, parted, answer, fleet⟩ :=
    plan.buildPass p.noted f.noted
  have grows := pass.grows
  obtain ⟨blocks, record, accounted⟩ := pass.accounted (fun l => plan.queueForNamed f.clients l.job) parted
  refine ⟨plan.buildPlainly p Note.of f, answers, registrants, names, rejected, blocks, parted, answer, ?_,
    fun i l g inside answered => ?_⟩
  · rw [show built.2 = last.fleet from fleet, record]
    rfl
  · obtain ⟨own, listed, stand⟩ := accounted.stands inside answered
    have queue : g.queue = plan.queueFor f.clients l.job := stand.queued
    have agreement := plan.queueForEq f.clients l.job
    rw [← queue] at agreement
    rw [show built.2 = last.fleet from fleet]
    refine ⟨⟨own, listed, stand⟩, eq_comm.trans agreement, fun later since => ?_⟩
    have ever : f.clients.Grows later.clients := grows.trans since
    refine ⟨fun agreed => ?_, fun apart => ?_⟩
    · have held : later.clients.get? l.job.queue = some g.client := by
        rw [← later.clients.getNamed, ever.queueName, agreed, queue]
        exact since.get stand.held
      have dispatched := Dispatcher.dispatchedHeld p held
      rwa [ever.queueName, agreed] at dispatched
    · have blank : Text.isBlankText l.job.queue = true := by
        simpa using fun named => apart (agreement.2 (.inl named)).symm
      refine ⟨?_, fun client held => ?_⟩
      · rw [queue, WorkerPlan.queueFor, if_pos blank]
      · have dispatched := Dispatcher.dispatchedHeld p held
        rwa [ever.queueName, ClientRegistry.queueName, if_pos blank] at dispatched

def aside : WorkerPlan Unit :=
  ⟨some "main", [CompiledJob.probe],
    [⟨"nightly", ⟨["deploy"], none⟩,
      SortedMap.empty.insert "backup" ⟨"", none, [⟨"", "one", "test:create", none, none⟩]⟩⟩], none⟩

theorem registeredAside :
    let p := Host.platform fun run => toString run.number
    let built := aside.build p Dispatcher.idle
    let triggered := Dispatcher.trigger p aside.definitions "deploy" .null built.2
    (built.1.toOption.map (·.registered) = some [⟨"nightly", "backup", "main"⟩] ∧
        built.2.clients.get? "main" = some ⟨0, 0⟩) ∧
      triggered.1 = .error (.dispatch [] [⟨"nightly", "backup", .procedureNotRegistered "backup"⟩]) ∧
      triggered.2.clients.get? "" = some ⟨1, 1⟩ := by
  refine ⟨⟨?_, ?_⟩, ?_, ?_⟩
  · decide +kernel
  · decide +kernel
  · rfl
  · decide +kernel

end Orchestration
