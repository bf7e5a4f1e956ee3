import Orchestration.Client.Options
import Orchestration.Engine.Handle
import Orchestration.Engine.Schedule
import Orchestration.Run.Job

/-! What is asked of engines. A platform is reached through connections `η` and keeps
everything that can change in a state `κ`. -/
namespace Orchestration

structure ConnectionSettings where
  hostPort : String
  space : String
  identity : String
  queue : String
  tls : Option TlsMaterial

structure Platform (σ η κ : Type) where
  connect : ConnectionSettings → κ → Except Error η × κ
  pause : Duration → κ → κ
  runText : RunId → String
  registerProcedure : η → String → CompiledJob σ → κ → κ
  registerActivity : η → String → ActionHandler σ → κ → κ
  startRun : η → (procedure queue : String) → Json → κ → Except Error RunHandle × κ
  createSchedule : η → (id cron : String) → ScheduleAction → κ → Except Error Unit × κ
  schedule? : η → String → κ → Except Error (Option ScheduleDescription)
  updateSchedule : η → String → (ScheduleDescription → ScheduleDescription) → κ →
    Except Error Unit × κ

end Orchestration
