import Orchestration.Proofs.Client.Connection
import Orchestration.Proofs.Engine.Register
import Orchestration.Proofs.Host.Keeps

/-! The fleets that come about on a host: connections are made, and everything that the
host and its engines can be asked for happens in any order. In all of them a connection
that is held leads to an engine, and the stored expressions can be read. -/
namespace Orchestration
open CronExpression

variable {σ : Type}

inductive Host.Step (runText : RunId → String) (h : Host σ) : Host σ → Prop where
  | registerProcedure (c name job) :
      Step runText h ((platform runText).registerProcedure c name job h)
  | registerActivity (c name handler) :
      Step runText h ((platform runText).registerActivity c name handler h)
  | startRun (c procedure queue input) :
      Step runText h ((platform runText).startRun c procedure queue input h).2
  | createSchedule (c id cron action) :
      Step runText h ((platform runText).createSchedule c id cron action h).2
  | updateSchedule (c id change) :
      Step runText h ((platform runText).updateSchedule c id change h).2
  | shutdown (number) : Step runText h (h.changeEngine number (·.shutdown))
  | cancel (run) : Step runText h (h.cancel run).2
  | await (run) : Step runText h (h.await run).2
  | pass (span) : Step runText h (h.pass span)
  | drain : Step runText h h.drain
  | finish : Step runText h h.finish
  | advance (moment) : Step runText h (h.advance runText moment)

namespace Fleet

inductive Reachable (runText : RunId → String) : Fleet Connection (Host σ) → Prop where
  | start {clients : ClientRegistry Connection} (fresh : clients.clients = .empty)
      (shared outages moment services) :
      Reachable runText ⟨clients, .start shared outages moment services⟩
  | getOrCreate {f} (before : Reachable runText f) (queue) :
      Reachable runText (f.getOrCreate (Host.platform runText) queue).2
  | ensureDefault {f} (before : Reachable runText f) :
      Reachable runText (f.ensureDefault (Host.platform runText)).2
  | host {f h} (before : Reachable runText f) (step : Host.Step runText f.state h) :
      Reachable runText ⟨f.clients, h⟩

structure Sound (f : Fleet Connection (Host σ)) : Prop where
  held : ∀ queue c, f.clients.clients.get? queue = some c → c.engine < f.state.engines.length
  home : f.state.shared = true → 0 < f.state.engines.length
  readable : ∀ n, (f.state.engine n).AllReadable

namespace Sound
variable {f : Fleet Connection (Host σ)}

theorem keeps (sound : f.Sound) {h : Host σ} (keeps : Host.Keeps LocalEngine.schedules f.state h) :
    Sound ⟨f.clients, h⟩ := by
  refine ⟨fun queue c held => ?_, fun shared => ?_, fun n id d stored => ?_⟩
  · exact Nat.lt_of_lt_of_le (sound.held queue c held) keeps.count
  · exact Nat.lt_of_lt_of_le (sound.home (keeps.shared ▸ shared)) keeps.count
  · rw [keeps.seen] at stored
    exact sound.readable n id d stored

theorem tried (sound : f.Sound) (number : Nat) (id : String)
    {result : Except Error (LocalEngine σ)}
    (effect : ∀ e, result = .ok e → LocalEngine.Effect (f.state.engine number) id e) :
    Sound ⟨f.clients, (f.state.tryEngine number result).2⟩ := by
  cases result with
  | error e => exact sound
  | ok e =>
    have count : (f.state.changeEngine number fun _ => e).engines.length = f.state.engines.length :=
      List.length_modify ..
    refine ⟨fun queue c held => ?_, fun shared => ?_, fun n => ?_⟩
    · exact count ▸ sound.held queue c held
    · exact count ▸ sound.home shared
    · simp only [Host.tryEngine, Host.engineChanged]
      split
      · exact (effect e rfl).readable (sound.readable number)
      · exact sound.readable n

theorem step (sound : f.Sound) {runText : RunId → String} {h : Host σ}
    (step : Host.Step runText f.state h) : Sound ⟨f.clients, h⟩ := by
  cases step with
  | registerProcedure c name job =>
    exact sound.keeps (.changeEngine _ c.engine (·.registerProcedure name job) fun _ => rfl)
  | registerActivity c name handler =>
    exact sound.keeps (.changeEngine _ c.engine (·.registerActivity name handler) fun _ => rfl)
  | startRun c procedure queue input => exact sound.keeps (.startRun ..)
  | createSchedule c id cron action =>
    exact sound.tried c.engine id fun e made => LocalEngine.createEffect made
  | updateSchedule c id change =>
    exact sound.tried c.engine id fun e made => LocalEngine.updateEffect made
  | shutdown number => exact sound.keeps (.changeEngine _ number (·.shutdown) fun _ => rfl)
  | cancel run => exact sound.keeps (.cancel _ run)
  | await run => exact sound.keeps (.awaitFor run _ _)
  | pass span => exact sound.keeps (.pass span _)
  | drain => exact sound.keeps (.drain _)
  | finish => exact sound.keeps (.finishWithin _ _)
  | advance moment => exact sound.keeps (.advance runText moment _)

theorem store (sound : f.Sound) (queue : String) {c : Connection}
    (leads : c.engine < f.state.engines.length) : Sound ⟨f.clients.store queue c, f.state⟩ := by
  refine ⟨fun other d held => ?_, sound.home, sound.readable⟩
  simp only [ClientRegistry.store, SortedMap.getInsert] at held
  split at held
  · cases held
    exact leads
  · exact sound.held other d held

end Sound

theorem connectLeads {h k : Host σ} {settings : ConnectionSettings} {c : Connection}
    (home : h.shared = true → 0 < h.engines.length) (ok : h.connect settings = (.ok c, k)) :
    c.engine < k.engines.length := by
  simp only [Host.connect] at ok
  split at ok
  · cases ok
  · cases ok
  · simp only [Host.accept] at ok
    split at ok
    · rename_i shared
      cases ok
      exact home shared
    · cases ok
      simp [Host.noteDial]

theorem dialLeads {runText : RunId → String} {settings : ConnectionSettings} {delay : Duration}
    {more : Nat} {h k : Host σ} {c : Connection} (home : h.shared = true → 0 < h.engines.length)
    (ok : dial (Host.platform runText) settings delay more h = (.ok c, k)) :
    c.engine < k.engines.length := by
  induction more generalizing h with
  | zero => exact connectLeads home ok
  | succ more ih =>
    have kept : Host.Keeps LocalEngine.schedules h ((Host.platform runText).connect settings h).2 :=
      .connect h settings
    simp only [dial] at ok
    rcases answered : (Host.platform runText).connect settings h with ⟨e | client, next⟩
    · rw [answered] at ok kept
      have later := kept.trans (.pass delay next)
      exact ih (fun shared => Nat.lt_of_lt_of_le (home (later.shared ▸ shared)) later.count) ok
    · rw [answered] at ok
      cases ok
      exact connectLeads home answered

theorem Sound.connect {f : Fleet Connection (Host σ)} (sound : f.Sound) (runText : RunId → String)
    (queue : String) (attempts : Nat) : (f.connect (Host.platform runText) queue attempts).2.Sound := by
  have kept : Host.Keeps LocalEngine.schedules f.state _ :=
    .dial runText (f.clients.settingsFor queue) f.clients.options.connectDelay (attempts - 1) f.state
  simp only [Fleet.connect]
  rcases answered : dial (Host.platform runText) (f.clients.settingsFor queue)
    f.clients.options.connectDelay (attempts - 1) f.state with ⟨e | c, k⟩
  · rw [answered] at kept
    exact sound.keeps kept
  · rw [answered] at kept
    exact (sound.keeps kept).store queue (dialLeads sound.home answered)

theorem Sound.getOrCreate {f : Fleet Connection (Host σ)} (sound : f.Sound)
    (runText : RunId → String) (queue : String) :
    (f.getOrCreate (Host.platform runText) queue).2.Sound := by
  simp only [Fleet.getOrCreate]
  split
  · exact sound
  · exact sound.connect runText _ 1

/-- Whatever has happened, connections lead to engines, and stored expressions can be read. -/
theorem Reachable.sound {runText : RunId → String} {f : Fleet Connection (Host σ)}
    (reachable : Reachable runText f) : f.Sound := by
  induction reachable with
  | start fresh shared outages moment services =>
    refine ⟨fun queue c held => ?_, fun home => ?_, fun n id d stored => ?_⟩
    · rw [fresh] at held
      cases held
    · have : shared = true := home
      simp [Host.start, this]
    · rw [Host.startEngine] at stored
      cases stored
  | getOrCreate before queue ih => exact ih.getOrCreate runText queue
  | @ensureDefault f before ih =>
    simp only [Fleet.ensureDefault]
    split
    · exact ih
    · exact ih.connect runText _ _
  | host before step ih => exact ih.step step

end Fleet
end Orchestration
