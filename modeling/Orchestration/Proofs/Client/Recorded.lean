import Orchestration.Proofs.Client.Connection

/-! A platform that writes down what it is asked to do. What it writes about a call is left open,
since not every property is about the same calls. Writing changes nothing: what is answered and
what is left are those of the platform itself. -/
namespace Orchestration

/-- What a platform is asked to do, with its answer. Looking up a schedule asks for nothing to be
done. -/
inductive Platform.Call (σ η : Type) where
  | connect (settings : ConnectionSettings) (answer : Except Error η)
  | pause (span : Duration)
  | procedure (client : η) (name : String) (job : CompiledJob σ)
  | activity (client : η) (name : String) (handler : ActionHandler σ)
  | start (client : η) (procedure queue : String) (input : Json) (answer : Except Error RunHandle)
  | create (client : η) (id cron : String) (action : ScheduleAction) (answer : Except Error Unit)
  | update (client : η) (id : String) (change : ScheduleDescription → ScheduleDescription)
      (answer : Except Error Unit)

variable {σ η κ ν : Type}

def Platform.recorded (p : Platform σ η κ) (write : Platform.Call σ η → List ν) :
    Platform σ η (κ × List ν) where
  connect settings s :=
    let (answer, k) := p.connect settings s.1
    (answer, k, s.2 ++ write (.connect settings answer))
  pause span s := (p.pause span s.1, s.2 ++ write (.pause span))
  runText := p.runText
  registerProcedure client name job s :=
    (p.registerProcedure client name job s.1, s.2 ++ write (.procedure client name job))
  registerActivity client name handler s :=
    (p.registerActivity client name handler s.1, s.2 ++ write (.activity client name handler))
  startRun client procedure queue input s :=
    let (answer, k) := p.startRun client procedure queue input s.1
    (answer, k, s.2 ++ write (.start client procedure queue input answer))
  createSchedule client id cron action s :=
    let (answer, k) := p.createSchedule client id cron action s.1
    (answer, k, s.2 ++ write (.create client id cron action answer))
  schedule? client id s := p.schedule? client id s.1
  updateSchedule client id change s :=
    let (answer, k) := p.updateSchedule client id change s.1
    (answer, k, s.2 ++ write (.update client id change answer))

def Fleet.noted (f : Fleet η κ) : Fleet η (κ × List ν) := ⟨f.clients, f.state, []⟩

def Fleet.plain (f : Fleet η (κ × List ν)) : Fleet η κ := ⟨f.clients, f.state.1⟩

/-- What is written down changes nothing: the answer and the fleet are those of the platform itself. -/
def Plainly {α : Type} (noted : α × Fleet η (κ × List ν)) (plain : α × Fleet η κ) : Prop :=
  noted.1 = plain.1 ∧ noted.2.plain = plain.2

theorem Plainly.result {α : Type} {noted : α × Fleet η (κ × List ν)} {plain : α × Fleet η κ}
    (plainly : Plainly noted plain) : ∃ answer f, noted = (answer, f) ∧ plain = (answer, f.plain) :=
  ⟨noted.1, noted.2, rfl, Prod.ext plainly.1.symm plainly.2.symm⟩

section
variable (p : Platform σ η κ) (write : Platform.Call σ η → List ν)

theorem recordedConnect {p : Platform σ η κ} {write : Platform.Call σ η → List ν}
    {settings : ConnectionSettings} {s : κ × List ν} {answer : Except Error η} {k : κ}
    (answered : p.connect settings s.1 = (answer, k)) : (p.recorded write).connect settings s =
      (answer, k, s.2 ++ write (.connect settings answer)) := by
  simp only [Platform.recorded, answered]

namespace Fleet

theorem dialPlain (settings : ConnectionSettings) (delay : Duration) (more : Nat) (s : κ × List ν) :
    (dial (p.recorded write) settings delay more s).1 = (dial p settings delay more s.1).1 ∧
      (dial (p.recorded write) settings delay more s).2.1 = (dial p settings delay more s.1).2 := by
  induction more generalizing s with
  | zero => exact ⟨rfl, rfl⟩
  | succ more ih =>
    rcases answered : p.connect settings s.1 with ⟨e | client, k⟩
    · rw [dial, dial, recordedConnect answered, answered]
      exact ih _
    · rw [dial, dial, recordedConnect answered, answered]
      exact ⟨rfl, rfl⟩

theorem connectPlainly (f : Fleet η (κ × List ν)) (queue : String) (attempts : Nat) :
    Plainly (f.connect (p.recorded write) queue attempts) (f.plain.connect p queue attempts) := by
  obtain ⟨answer, left⟩ := dialPlain p write (f.clients.settingsFor queue)
    f.clients.options.connectDelay (attempts - 1) f.state
  simp only [connect, plain]
  rcases there : dial (p.recorded write) (f.clients.settingsFor queue) f.clients.options.connectDelay
    (attempts - 1) f.state with ⟨result, s⟩
  rcases here : dial p (f.clients.settingsFor queue) f.clients.options.connectDelay (attempts - 1)
    f.state.1 with ⟨result', k⟩
  rw [there, here] at answer left
  subst answer left
  cases result <;> exact ⟨rfl, rfl⟩

theorem getOrCreatePlainly (f : Fleet η (κ × List ν)) (queue : String) :
    Plainly (f.getOrCreate (p.recorded write) queue) (f.plain.getOrCreate p queue) := by
  simp only [getOrCreate, show f.plain.clients = f.clients from rfl]
  cases f.clients.get? (f.clients.queueName queue) with
  | some client => exact ⟨rfl, rfl⟩
  | none => exact connectPlainly p write f _ 1

theorem ensureDefaultPlainly (f : Fleet η (κ × List ν)) :
    Plainly (f.ensureDefault (p.recorded write)) (f.plain.ensureDefault p) := by
  simp only [ensureDefault, show f.plain.clients = f.clients from rfl]
  cases f.clients.get? f.clients.defaultQueue with
  | some client => exact ⟨rfl, rfl⟩
  | none => exact connectPlainly p write f _ _

end Fleet
end
end Orchestration
