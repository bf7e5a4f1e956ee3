import Orchestration.Proofs.Dispatch.InitSchedules
import Orchestration.Proofs.Dispatch.Trigger

/-! What dispatching leaves alone on a host: an event changes neither procedures nor schedules, and
putting schedules in place changes no procedure. -/
namespace Orchestration

universe u

variable {σ : Type} {α : Type u} {see : LocalEngine σ → α}

theorem Fleet.getOrCreateKeeps (runText : RunId → String) (f : Fleet Connection (Host σ)) (queue : String) :
    Host.Keeps see f.state (f.getOrCreate (Host.platform runText) queue).2.state := by
  cases known : f.clients.clients.get? (f.clients.queueName queue) with
  | some client =>
    rw [getOrCreateHeld known]
    exact .refl _
  | none =>
    have dialed : Host.Keeps see f.state _ :=
      .connect f.state (f.clients.settingsFor (f.clients.queueName queue))
    rw [getOrCreateDial known]
    simp only [Host.platform]
    rcases answered : f.state.connect (f.clients.settingsFor (f.clients.queueName queue)) with
      ⟨e | client, k⟩ <;>
    · rw [answered] at dialed
      exact dialed

theorem sweepKeeps {ι β : Type}
    {attempt : ι → Fleet Connection (Host σ) → Except Error β × Fleet Connection (Host σ)}
    (keeps : ∀ i f, Host.Keeps see f.state (attempt i f).2.state) (items : List ι)
    (f : Fleet Connection (Host σ)) : Host.Keeps see f.state (sweep attempt items f).2.state := by
  induction items generalizing f with
  | nil => exact .refl _
  | cons i rest ih => exact (keeps i f).trans (ih (attempt i f).2)

namespace Dispatcher

theorem startJobKeeps [LocalEngine.Calm see] (runText : RunId → String) (input : Json) (name : String)
    (job : Job) (f : Fleet Connection (Host σ)) :
    Host.Keeps see f.state (startJob (Host.platform runText) input name job f).2.state := by
  have reached : Host.Keeps see f.state _ :=
    Fleet.getOrCreateKeeps runText f (f.clients.queueName job.queue)
  simp only [startJob]
  rcases connected : f.getOrCreate (Host.platform runText) (f.clients.queueName job.queue) with
    ⟨e | client, g⟩
  · rw [connected] at reached
    exact reached
  · rw [connected] at reached
    exact reached.trans (.startRun runText g.state client.engine name _ input)

theorem triggerKeeps [LocalEngine.Calm see] (runText : RunId → String) (definitions : List Definition)
    (event : String) (input : Json) (f : Fleet Connection (Host σ)) :
    Host.Keeps see f.state (trigger (Host.platform runText) definitions event input f).2.state := by
  have kept (l : ListedJob) (f : Fleet Connection (Host σ)) : Host.Keeps see f.state
      (startJob (Host.platform runText) input l.name l.job f).2.state :=
    startJobKeeps runText input l.name l.job f
  rw [triggerSweep]
  exact sweepKeeps kept _ f

theorem upsertKeeps (runText : RunId → String) (spec : ScheduleSpec) (name : String) (job : Job)
    (f : Fleet Connection (Host σ)) :
    Host.Keeps LocalEngine.procedures f.state (upsert (Host.platform runText) spec name job f).2.state := by
  have reached : Host.Keeps LocalEngine.procedures f.state _ :=
    Fleet.getOrCreateKeeps runText f (f.clients.queueName job.queue)
  simp only [upsert]
  rcases connected : f.getOrCreate (Host.platform runText) (f.clients.queueName job.queue) with
    ⟨e | client, g⟩
  · rw [connected] at reached
    exact reached
  · rw [connected] at reached
    simp only [Host.platform]
    cases (g.state.engine client.engine).schedules.get? name with
    | none =>
      exact reached.trans (.tried _ _ _ fun e made => (LocalEngine.createEffect made).frame.1)
    | some current =>
      exact reached.trans (.tried _ _ _ fun e made => (LocalEngine.updateEffect made).frame.1)

theorem initSchedulesKeeps (runText : RunId → String) (definitions : List Definition) (words : List Nat)
    (f : Fleet Connection (Host σ)) :
    Host.Keeps LocalEngine.procedures f.state
      (initSchedules (Host.platform runText) definitions words f).2.1.state := by
  have kept (i : ScheduleSpec × ListedJob) (f : Fleet Connection (Host σ)) :
      Host.Keeps LocalEngine.procedures f.state (place (Host.platform runText) i f).2.state :=
    upsertKeeps runText i.1 i.2.name i.2.job f
  rw [(initSweep (Host.platform runText) definitions words f).2]
  exact sweepKeeps kept _ f

end Dispatcher
end Orchestration
