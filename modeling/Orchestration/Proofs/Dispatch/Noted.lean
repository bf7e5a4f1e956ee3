import Orchestration.Proofs.Dispatch.InitSchedules
import Orchestration.Proofs.Dispatch.Trigger

/-! Everything that engines are asked for, written down: by a worker that registers jobs, and by
the dispatcher that starts and schedules them. Where a queue is connected already, the
dispatcher asks nobody but the connection that is held for it. -/
namespace Orchestration

inductive Note (σ η : Type) where
  | dial (queue : String) (failure : Option Error)
  | activity (client : η) (name : String) (handler : ActionHandler σ)
  | procedure (client : η) (name : String) (job : CompiledJob σ)
  | start (client : η) (procedure queue : String) (input : Json)
  | create (client : η) (id cron : String) (action : ScheduleAction)
  | update (client : η) (id : String) (change : ScheduleDescription → ScheduleDescription)

variable {σ η κ ν : Type}

def Note.of : Platform.Call σ η → List (Note σ η)
  | .connect settings answer => [.dial settings.queue (failure? answer)]
  | .pause _ => []
  | .procedure client name job => [.procedure client name job]
  | .activity client name handler => [.activity client name handler]
  | .start client called queue input _ => [.start client called queue input]
  | .create client id cron action _ => [.create client id cron action]
  | .update client id change _ => [.update client id change]

abbrev Platform.noted (p : Platform σ η κ) : Platform σ η (κ × List (Note σ η)) := p.recorded Note.of

theorem getOrCreateNotes (p : Platform σ η κ) (f : Fleet η (κ × List (Note σ η))) (queue : String) :
    ∃ dials, (f.getOrCreate p.noted queue).2.state.2 = f.state.2 ++ dials ∧
      ∀ note ∈ dials, ∃ failure, note = .dial (f.clients.queueName queue) failure := by
  cases known : f.clients.clients.get? (f.clients.queueName queue) with
  | some client =>
    rw [Fleet.getOrCreateHeld known]
    exact ⟨[], (List.append_nil _).symm, fun note inside => absurd inside List.not_mem_nil⟩
  | none =>
    rw [Fleet.getOrCreateDial known]
    rcases answered : p.connect (f.clients.settingsFor (f.clients.queueName queue)) f.state.1 with
      ⟨e | client, k⟩ <;>
    · simp only [Platform.recorded, answered]
      exact ⟨_, rfl, fun note inside => ⟨_, List.mem_singleton.1 inside⟩⟩

namespace Dispatcher
variable (p : Platform σ η κ)

inductive Upserts (client : η) (name queue : String) : List (Note σ η) → Prop where
  | unread {k e} (failed : p.schedule? client name k = .error e) : Upserts client name queue []
  | created {k cron} (absent : p.schedule? client name k = .ok none) :
      Upserts client name queue [.create client name cron ⟨name, queue, .null⟩]
  | updated {k d change} (present : p.schedule? client name k = .ok (some d))
      (acts : ∀ d, (change d).action = ⟨name, queue, .null⟩) :
      Upserts client name queue [.update client name change]

theorem upsertAsking (s : ScheduleSpec) (name : String) (job : Job) (f : Fleet η κ) :
    upsert p s name job f =
      asking p (f.clients.queueName job.queue) (fun client g =>
        let action : ScheduleAction := ⟨name, f.clients.queueName job.queue, .null⟩
        match p.schedule? client name g.state with
        | .error e => (.error e, g)
        | .ok none =>
          let (result, k) := p.createSchedule client name s.expression action g.state
          (result, ⟨g.clients, k⟩)
        | .ok (some _) =>
          let (result, k) := p.updateSchedule client name (revise s action) g.state
          (result, ⟨g.clients, k⟩)) f := rfl

theorem askingNotes {α : Type} (f : Fleet η (κ × List (Note σ η))) (queue : String)
    {ask : η → Fleet η (κ × List (Note σ η)) → Except Error α × Fleet η (κ × List (Note σ η))}
    {Fits : η → List (Note σ η) → Prop}
    (asks : ∀ client g, ∃ block, (ask client g).2.state.2 = g.state.2 ++ block ∧
      (ask client g).2.clients = g.clients ∧ Fits client block) :
    ∃ block, (asking p.noted queue ask f).2.state.2 = f.state.2 ++ block ∧
      f.clients.Grows (asking p.noted queue ask f).2.clients ∧
      ∀ client, f.clients.get? queue = some client → Fits client block := by
  obtain ⟨grows, -⟩ := Fleet.getOrCreateGrows p.noted f queue
  obtain ⟨dials, record, -⟩ := getOrCreateNotes p f queue
  simp only [asking]
  cases known : f.clients.get? queue with
  | some client =>
    obtain ⟨block, asked, same, fits⟩ := asks client f
    rw [Fleet.getOrCreateHeld known]
    refine ⟨block, asked, same ▸ .refl _, fun other held => ?_⟩
    cases held
    exact fits
  | none =>
    rcases connected : f.getOrCreate p.noted queue with ⟨e | client, g⟩
    · rw [connected] at grows record
      exact ⟨dials, record, grows, fun other held => by cases held⟩
    · rw [connected] at grows record
      obtain ⟨block, asked, same, -⟩ := asks client g
      refine ⟨dials ++ block, ?_, same ▸ grows, fun other held => by cases held⟩
      rw [← List.append_assoc, ← record]
      exact asked

theorem startJobNotes (input : Json) (name : String) (job : Job) (f : Fleet η (κ × List (Note σ η))) :
    ∃ block, (startJob p.noted input name job f).2.state.2 = f.state.2 ++ block ∧
      f.clients.Grows (startJob p.noted input name job f).2.clients ∧
      ∀ client, f.clients.get? (f.clients.queueName job.queue) = some client →
        block = [.start client name (f.clients.queueName job.queue) input] := by
  rw [startJobAsking]
  exact askingNotes p f _ fun client g => ⟨_, rfl, rfl, rfl⟩

theorem upsertNotes (s : ScheduleSpec) (name : String) (job : Job)
    (f : Fleet η (κ × List (Note σ η))) :
    ∃ block, (upsert p.noted s name job f).2.state.2 = f.state.2 ++ block ∧
      f.clients.Grows (upsert p.noted s name job f).2.clients ∧
      ∀ client, f.clients.get? (f.clients.queueName job.queue) = some client →
        Upserts p client name (f.clients.queueName job.queue) block := by
  rw [upsertAsking]
  refine askingNotes p f _ fun client g => ?_
  simp only [Platform.recorded]
  cases found : p.schedule? client name g.state.1 with
  | error e => exact ⟨[], (List.append_nil _).symm, rfl, .unread found⟩
  | ok stored =>
    cases stored with
    | none => exact ⟨_, rfl, rfl, .created found⟩
    | some d => exact ⟨_, rfl, rfl, .updated found fun _ => rfl⟩

theorem upsertPlainly (write : Platform.Call σ η → List ν) (s : ScheduleSpec) (name : String) (job : Job)
    (f : Fleet η (κ × List ν)) :
    Plainly (upsert (p.recorded write) s name job f) (upsert p s name job f.plain) := by
  rw [upsertAsking, upsertAsking]
  refine askingPlainly p write fun client g => ?_
  simp only [Platform.recorded, Fleet.plain]
  rcases p.schedule? client name g.state.1 with e | _ | d <;> exact ⟨rfl, rfl⟩

theorem sweepNotes {ι α : Type} {clients : ClientRegistry η}
    {attempt : ι → Fleet η (κ × List (Note σ η)) → Except Error α × Fleet η (κ × List (Note σ η))}
    {Fits : ι → List (Note σ η) → Prop}
    (step : ∀ i f, clients.Grows f.clients → ∃ block, (attempt i f).2.state.2 = f.state.2 ++ block ∧
      f.clients.Grows (attempt i f).2.clients ∧ Fits i block)
    (items : List ι) (f : Fleet η (κ × List (Note σ η))) (since : clients.Grows f.clients) :
    ∃ blocks, (sweep attempt items f).2.state.2 = f.state.2 ++ blocks.flatten ∧
      List.Forall₂ Fits items blocks := by
  induction items generalizing f with
  | nil => exact ⟨[], (List.append_nil _).symm, .nil⟩
  | cons i rest ih =>
    obtain ⟨block, asked, grows, fits⟩ := step i f since
    obtain ⟨blocks, record, all⟩ := ih (attempt i f).2 (since.trans grows)
    refine ⟨block :: blocks, ?_, .cons fits all⟩
    rw [sweep, record, asked, List.flatten_cons, List.append_assoc]

theorem triggerPlainly (write : Platform.Call σ η → List ν) (definitions : List Definition) (event : String)
    (input : Json) (f : Fleet η κ) :
    Plainly (trigger (p.recorded write) definitions event input f.noted)
      (trigger p definitions event input f) := by
  obtain ⟨answers, fleet⟩ := startAllPlainly p write input (listening definitions event) f.noted
  rw [triggerSweep, triggerSweep, Plainly, answers]
  exact ⟨rfl, fleet⟩

theorem initSchedulesPlainly (write : Platform.Call σ η → List ν) (definitions : List Definition)
    (words : List Nat) (f : Fleet η κ) :
    let noted := initSchedules (p.recorded write) definitions words f.noted
    let plain := initSchedules p definitions words f
    Plainly (noted.1, noted.2.1) (plain.1, plain.2.1) := by
  intro noted plain
  obtain ⟨answers, fleet⟩ := sweepView Fleet.plain (fun i : ScheduleSpec × ListedJob =>
    upsertPlainly p write i.1 i.2.name i.2.job) (placements definitions words) f.noted
  obtain ⟨answeredNoted, leftNoted⟩ := initSweep (p.recorded write) definitions words f.noted
  obtain ⟨answeredPlain, leftPlain⟩ := initSweep p definitions words f
  have same : (sweep (place (p.recorded write)) (placements definitions words) f.noted).1 =
      (sweep (place p) (placements definitions words) f).1 := answers
  refine ⟨?_, ?_⟩
  · simp only [noted, plain, answeredNoted, answeredPlain, same]
  · simp only [noted, plain, leftNoted, leftPlain]
    exact fleet

/-- What the dispatcher asks for on account of one job, whatever it triggers or schedules: always
the same connection, under the same queue. -/
structure Dispatched (f : Fleet η κ) (l : ListedJob) (client : η) (queue : String) : Prop where
  started : ∀ definitions event input,
    let noted := trigger p.noted definitions event input f.noted
    Plainly noted (trigger p definitions event input f) ∧
      ∃ blocks, noted.2.state.2 = blocks.flatten ∧
        List.Forall₂ (fun l' block => l' = l → block = [.start client l.name queue input])
          (listening definitions event) blocks
  scheduled : ∀ definitions words,
    let noted := initSchedules p.noted definitions words f.noted
    let plain := initSchedules p definitions words f
    Plainly (noted.1, noted.2.1) (plain.1, plain.2.1) ∧
      ∃ blocks, noted.2.1.state.2 = blocks.flatten ∧
        List.Forall₂ (fun i block => i.2 = l → Upserts p client l.name queue block)
          (placements definitions words) blocks

theorem dispatchedHeld {f : Fleet η κ} {l : ListedJob} {client : η}
    (held : f.clients.get? l.job.queue = some client) :
    Dispatched p f l client (f.clients.queueName l.job.queue) := by
  have kept {g : Fleet η (κ × List (Note σ η))} (since : f.clients.Grows g.clients) :
      g.clients.get? (g.clients.queueName l.job.queue) = some client := by
    rw [g.clients.getNamed]
    exact since.get held
  refine ⟨fun definitions event input => ?_, fun definitions words => ?_⟩
  · refine ⟨triggerPlainly p Note.of definitions event input f, ?_⟩
    rw [triggerSweep]
    refine sweepNotes (fun l' g since => ?_) _ _ (.refl _)
    obtain ⟨block, record, grows, alone⟩ := startJobNotes p input l'.name l'.job g
    refine ⟨block, record, grows, fun same => ?_⟩
    subst same
    have heard := alone client (kept since)
    rw [since.queueName] at heard
    exact heard
  · refine ⟨initSchedulesPlainly p Note.of definitions words f, ?_⟩
    simp only [(initSweep p.noted definitions words f.noted).2]
    refine sweepNotes (fun i g since => ?_) _ _ (.refl _)
    obtain ⟨block, record, grows, alone⟩ := upsertNotes p i.1 i.2.name i.2.job g
    refine ⟨block, record, grows, fun same => ?_⟩
    subst same
    have heard := alone client (kept since)
    rw [since.queueName] at heard
    exact heard

end Dispatcher
end Orchestration
