import Orchestration.Proofs.Client.Recorded
import Orchestration.Proofs.Dispatch.Sweep

/-! What an event starts. The platform is arbitrary, and it is watched: every dial and
every start that it is asked for is written down with its answer. Each job of each
definition that listens takes one attempt, and the attempts make up all that is asked. -/
namespace Orchestration

inductive Request (η : Type) where
  | dial (queue : String) (failure : Option Error)
  | start (client : η) (procedure queue : String) (input : Json) (answer : Except Error RunHandle)

def failure? {α : Type} : Except Error α → Option Error
  | .ok _ => none
  | .error e => some e

section
variable {σ η κ ν : Type}

def Request.of : Platform.Call σ η → List (Request η)
  | .connect settings answer => [.dial settings.queue (failure? answer)]
  | .start client procedure queue input answer => [.start client procedure queue input answer]
  | _ => []

abbrev Platform.watched (p : Platform σ η κ) : Platform σ η (κ × List (Request η)) :=
  p.recorded Request.of

namespace Dispatcher
variable (p : Platform σ η κ)

def asking {α : Type} (queue : String) (ask : η → Fleet η κ → Except Error α × Fleet η κ)
    (f : Fleet η κ) : Except Error α × Fleet η κ :=
  match f.getOrCreate p queue with
  | (.error e, g) => (.error e, g)
  | (.ok client, g) => ask client g

theorem askingPlainly {α : Type} (write : Platform.Call σ η → List ν) {f : Fleet η (κ × List ν)}
    {queue : String} {noting : η → Fleet η (κ × List ν) → Except Error α × Fleet η (κ × List ν)}
    {ask : η → Fleet η κ → Except Error α × Fleet η κ}
    (same : ∀ client g, Plainly (noting client g) (ask client g.plain)) :
    Plainly (asking (p.recorded write) queue noting f) (asking p queue ask f.plain) := by
  obtain ⟨answer, g, noted, plain⟩ := (Fleet.getOrCreatePlainly p write f queue).result
  simp only [asking, noted, plain]
  cases answer with
  | error e => exact ⟨rfl, rfl⟩
  | ok client => exact same client g

theorem startJobAsking (input : Json) (name : String) (job : Job) (f : Fleet η κ) :
    startJob p input name job f =
      asking p (f.clients.queueName job.queue) (fun client g =>
        let (result, k) := p.startRun client name (f.clients.queueName job.queue) input g.state
        (result, ⟨g.clients, k⟩)) f := rfl

theorem startJobPlainly (write : Platform.Call σ η → List ν) (input : Json) (name : String) (job : Job)
    (f : Fleet η (κ × List ν)) :
    Plainly (startJob (p.recorded write) input name job f) (startJob p input name job f.plain) := by
  rw [startJobAsking, startJobAsking]
  exact askingPlainly p write fun client g => ⟨rfl, rfl⟩

theorem startAllPlainly (write : Platform.Call σ η → List ν) (input : Json) (jobs : List ListedJob)
    (f : Fleet η (κ × List ν)) :
    (sweep (fun l => startJob (p.recorded write) input l.name l.job) jobs f).1 =
        (sweep (fun l => startJob p input l.name l.job) jobs f.plain).1 ∧
      (sweep (fun l => startJob (p.recorded write) input l.name l.job) jobs f).2.plain =
        (sweep (fun l => startJob p input l.name l.job) jobs f.plain).2 := by
  refine sweepView Fleet.plain (fun l g => ?_) jobs f
  exact startJobPlainly p write input l.name l.job g

inductive Attempt (clients : SortedMap η) (input : Json) (name queue : String) :
    List (Request η) → Except Error RunHandle → Prop where
  | connected {client answer} (held : clients.get? queue = some client) :
      Attempt clients input name queue [.start client name queue input answer] answer
  | dialed {client answer} (held : clients.get? queue = some client) :
      Attempt clients input name queue
        [.dial queue none, .start client name queue input answer] answer
  | refused {e} :
      Attempt clients input name queue [.dial queue (some e)]
        (.error (.connectionFailed queue 1 e.message))

inductive Attempts (clients : SortedMap η) (input : Json) (queueOf : String → String) :
    List ListedJob → List (List (Request η)) → List (Except Error RunHandle) → Prop where
  | nil : Attempts clients input queueOf [] [] []
  | cons {l jobs asked blocks answer answers}
      (head : Attempt clients input l.name (queueOf l.job.queue) asked answer)
      (tail : Attempts clients input queueOf jobs blocks answers) :
      Attempts clients input queueOf (l :: jobs) (asked :: blocks) (answer :: answers)

theorem Attempt.grows {a b : ClientRegistry η} (grows : a.Grows b) {input : Json} {name queue : String}
    {asked : List (Request η)} {answer : Except Error RunHandle}
    (attempt : Attempt a.clients input name queue asked answer) :
    Attempt b.clients input name queue asked answer := by
  cases attempt with
  | connected held => exact .connected (grows.kept _ _ held)
  | dialed held => exact .dialed (grows.kept _ _ held)
  | refused => exact .refused

theorem startJobAttempt (input : Json) (name : String) (job : Job)
    (f : Fleet η (κ × List (Request η))) :
    ∃ asked, (startJob p.watched input name job f).2.state.2 = f.state.2 ++ asked ∧
      f.clients.Grows (startJob p.watched input name job f).2.clients ∧
      Attempt (startJob p.watched input name job f).2.clients.clients input name
        (f.clients.queueName job.queue) asked (startJob p.watched input name job f).1 := by
  have again := f.clients.queueNameAgain job.queue
  obtain ⟨grows, stored⟩ := Fleet.getOrCreateGrows p.watched f (f.clients.queueName job.queue)
  simp only [startJob]
  rw [again] at stored
  cases known : f.clients.clients.get? (f.clients.queueName job.queue) with
  | some client =>
    rw [Fleet.getOrCreateHeld (by rw [again]; exact known)]
    exact ⟨_, rfl, .refl _, .connected known⟩
  | none =>
    rw [Fleet.getOrCreateDial (by rw [again]; exact known)] at grows stored ⊢
    rw [again] at grows stored ⊢
    rcases answered : p.connect (f.clients.settingsFor (f.clients.queueName job.queue)) f.state.1 with
      ⟨e | client, k⟩
    · rw [recordedConnect answered] at grows ⊢
      exact ⟨_, rfl, grows, .refused⟩
    · rw [recordedConnect answered] at grows stored ⊢
      exact ⟨_, List.append_assoc .., grows, .dialed (stored client rfl)⟩

theorem sweepAttempts (input : Json) (queueOf : String → String) (jobs : List ListedJob)
    (f : Fleet η (κ × List (Request η))) (named : f.clients.queueName = queueOf) :
    ∃ blocks, (sweep (fun l => startJob p.watched input l.name l.job) jobs f).2.state.2 =
        f.state.2 ++ blocks.flatten ∧
      f.clients.Grows (sweep (fun l => startJob p.watched input l.name l.job) jobs f).2.clients ∧
      Attempts (sweep (fun l => startJob p.watched input l.name l.job) jobs f).2.clients.clients input
        queueOf jobs blocks (sweep (fun l => startJob p.watched input l.name l.job) jobs f).1 := by
  induction jobs generalizing f with
  | nil => exact ⟨[], (List.append_nil _).symm, .refl _, .nil⟩
  | cons l rest ih =>
    obtain ⟨asked, record, grows, attempt⟩ := startJobAttempt p input l.name l.job f
    have still : (startJob p.watched input l.name l.job f).2.clients.queueName = queueOf :=
      (funext grows.queueName).trans named
    obtain ⟨blocks, records, grown, attempts⟩ := ih _ still
    refine ⟨asked :: blocks, ?_, grows.trans grown, .cons ?_ attempts⟩
    · simp only [sweep, records, record, List.flatten_cons, List.append_assoc]
    · rw [named] at attempt
      exact attempt.grows grown

def listening (definitions : List Definition) (event : String) : List ListedJob :=
  (definitions.filter fun d => event ∈ d.triggers.events).flatMap Definition.listed

theorem triggerSweep (definitions : List Definition) (event : String) (input : Json)
    (f : Fleet η κ) :
    let swept := sweep (fun l => startJob p input l.name l.job) (listening definitions event) f
    trigger p definitions event input f =
      ((Outcome.empty.gather (listening definitions event) swept.1).conclude, swept.2) := by
  have listens : (fun d : Definition => d.listensTo event) =
      fun d : Definition => decide (event ∈ d.triggers.events) := by
    funext d
    simp [Definition.listensTo]
  have folded := Outcome.foldForJobs (fun _ : Definition => startJob p input) id
    (definitions.filter fun d => event ∈ d.triggers.events) Outcome.empty f
  have jobs (ds : List Definition) : (ds.flatMap fun d => d.listed.map fun l => (d, l)).map Prod.snd =
      ds.flatMap Definition.listed := by
    simp [List.map_flatMap, List.map_map, Function.comp_def]
  have swept (items : List (Definition × ListedJob)) :
      sweep (fun i => startJob p input i.2.name i.2.job) items f =
        sweep (fun l => startJob p input l.name l.job) (items.map Prod.snd) f :=
    (sweepMap (fun l : ListedJob => startJob p input l.name l.job) Prod.snd items f).symm
  simp only [id_eq, swept, jobs] at folded
  simp only [trigger, listens, folded, listening]

/-- An event makes one attempt for each job of each definition that lists it, and asks for nothing
else. It gives the handles when every attempt succeeds, and otherwise one error that parts the jobs
into those that were started and those that were not. -/
theorem triggerEveryJob (definitions : List Definition) (event : String) (input : Json)
    (f : Fleet η κ) :
    let out := trigger p.watched definitions event input ⟨f.clients, f.state, []⟩
    (out.1 = (trigger p definitions event input f).1 ∧
        out.2.plain = (trigger p definitions event input f).2) ∧
      ∃ blocks answers handles succeeded failures,
        Attempts out.2.clients.clients input f.clients.queueName (listening definitions event)
          blocks answers ∧
        out.2.state.2 = blocks.flatten ∧
        Outcome.Parted (listening definitions event) answers handles succeeded failures ∧
        (out.1 = .ok handles ∧ answers = handles.map .ok ∨
          out.1 = .error (.dispatch succeeded failures) ∧ ∃ e, .error e ∈ answers) := by
  simp only [triggerSweep]
  have same := startAllPlainly p Request.of input (listening definitions event) ⟨f.clients, f.state, []⟩
  obtain ⟨blocks, record, -, attempts⟩ := sweepAttempts p input f.clients.queueName
    (listening definitions event) ⟨f.clients, f.state, []⟩ rfl
  generalize swept : sweep (fun l => startJob p.watched input l.name l.job)
    (listening definitions event) ⟨f.clients, f.state, []⟩ = out at same record attempts ⊢
  have count : (listening definitions event).length = out.1.length := by
    rw [← swept]
    exact (sweepLength ..).symm
  obtain ⟨handles, succeeded, failures, parted, gathered⟩ :=
    Outcome.gatherParted (Outcome.empty : Outcome RunHandle) count
  refine ⟨⟨?_, same.2⟩, blocks, out.1, handles, succeeded, failures, attempts, record, parted, ?_⟩
  · rw [same.1]
    rfl
  · rw [gathered, Outcome.concludeEq]
    by_cases none : failures = []
    · exact .inl ⟨by simp [Outcome.empty, none], parted.allOk.1 none⟩
    · exact .inr ⟨by simp [Outcome.empty, none], parted.someError none⟩

end Dispatcher
end
end Orchestration
