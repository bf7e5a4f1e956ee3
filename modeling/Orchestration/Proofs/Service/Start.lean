import Orchestration.Http.Service
import Orchestration.Proofs.Dispatch.Kept
import Orchestration.Proofs.Dispatch.Settled
import Orchestration.Proofs.Host.Ticks
import Orchestration.Proofs.Worker.Home
import Orchestration.Service.App

/-! A service from its start on. Starting goes through two passes over the definitions: the worker
sets aside the jobs that it cannot register, but every job of a scheduled definition gets its
schedule. Whatever is asked of the service later, and however time goes on, schedules and
procedures stay what they are then, so each tick can be told from the start. -/
namespace Orchestration

variable {runText : RunId → String}

namespace Dispatcher
variable {σ : Type}

theorem settledOrigin {r : ClientRegistry Connection} {n : Nat} {id : String}
    {items : List (ScheduleSpec × ListedJob)} {stored : Option ScheduleDescription}
    {d : ScheduleDescription} (left : items.foldl (settleAt r n id) stored = some d) :
    stored = some d ∨
      ∃ i ∈ items, i.2.name = id ∧ d.action = ⟨id, r.queueName i.2.job.queue, .null⟩ := by
  induction items generalizing stored with
  | nil => exact .inl left
  | cons i rest ih =>
    rcases ih left with same | ⟨j, later, placed⟩
    · rw [settleAt] at same
      split at same
      · rename_i here
        obtain ⟨-, rfl⟩ := here
        rw [ScheduleSpec.settle] at same
        split at same
        · cases same
          exact .inr ⟨i, List.mem_cons_self, rfl, rfl⟩
        · exact .inl same
      · exact .inl same
    · exact .inr ⟨j, List.mem_cons_of_mem i later, placed⟩

theorem initOwned (definitions : List Definition) (words : List UInt32) {f : Fleet Connection (Host σ)}
    (home : f.Home) (sound : f.Sound) {n : Nat} {id : String} {d : ScheduleDescription} :
    let out := (initSchedules (Host.platform runText) definitions (words.map UInt32.toNat) f).2.1
    out.stored n id = some d → ∃ w ∈ definitions, w.cronSchedule ≠ none ∧ ∃ l ∈ w.listed,
      l.name = id ∧ d.action = ⟨id, out.clients.queueName l.job.queue, .null⟩ := by
  intro out stored
  have fit : ∀ i ∈ placements definitions (words.map UInt32.toNat), i.1.Sound := fun i inside =>
    (placementsSound (Draw.narrowOfWords words) inside).1
  obtain ⟨-, -, -, -, told⟩ := sweepPlaced sound runText fit fun i _ => home.reaches i.2.job.queue
  rw [← (initSweep (Host.platform runText) definitions (words.map UInt32.toNat) f).2] at told
  rcases settledOrigin ((told out.clients (.refl _) n id).symm.trans stored) with before | ⟨i, inside, placed⟩
  · rw [Fleet.stored, home.bare] at before
    cases before
  · obtain ⟨w, known, scheduled, e, entry, same⟩ := placementsNamed inside
    exact ⟨w, known, scheduled, i.2, List.mem_map.2 ⟨e, entry, same.symm⟩, placed⟩

end Dispatcher

namespace App

theorem mapErrorOk {ε δ α : Type} {f : ε → δ} {result : Except ε α} {a : α}
    (ok : result.mapError f = .ok a) : result = .ok a := by
  cases result with
  | error e => cases ok
  | ok b =>
    cases ok
    rfl

theorem bindOk {ε α β : Type} {first : Except ε α} {next : α → Except ε β} {b : β}
    (ok : first >>= next = .ok b) : ∃ a, first = .ok a ∧ next a = .ok b := by
  cases first with
  | error e => cases ok
  | ok a => exact ⟨a, rfl, ok⟩

section
variable {p : Platform Services Connection (Host Services)} {config : Config} {machine : Machine}

theorem connectFresh {files : FileTree} {host : Host Services} {fleet : Fleet Connection (Host Services)}
    (connected : connect p config machine files host = .ok fleet) :
    ∃ clients : ClientRegistry Connection,
      clients.clients = .empty ∧ fleet = (Fleet.ensureDefault p ⟨clients, host⟩).2 := by
  rw [connect, ClientRegistry.ofOptions] at connected
  split at connected
  · cases connected
  · cases resolved : config.client.tls.resolve files.contentAt with
    | error e =>
      rw [resolved] at connected
      cases connected
    | ok tls =>
      rw [resolved] at connected
      cases connected
      exact ⟨_, rfl, rfl⟩

theorem startStages {words : List Nat} {moment : Nat} {files : FileTree} {app : App}
    (started : start p config machine words moment files = .ok app) :
    ∃ (clients : ClientRegistry Connection) (fleet built : Fleet Connection (Host Services)),
      clients.clients = .empty ∧
      fleet = (Fleet.ensureDefault p ⟨clients, .start true .empty moment .empty⟩).2 ∧
      WorkerPlan.build p ⟨some fleet.clients.defaultQueue, integrations config,
        app.workflows.definitions, none⟩ fleet = (.ok app.worker, built) ∧
      app.fleet = (Dispatcher.initSchedules p app.workflows.definitions words built).2.1 := by
  obtain ⟨found, -, started⟩ := bindOk started
  obtain ⟨fleet, connected, started⟩ := bindOk started
  obtain ⟨worker, accepted, started⟩ := bindOk started
  obtain ⟨clients, fresh, same⟩ := connectFresh connected
  cases started
  exact ⟨clients, fleet, _, fresh, same, Prod.ext (mapErrorOk accepted) rfl, rfl⟩

end

theorem connectedFirst (runText : RunId → String) {clients : ClientRegistry Connection}
    (fresh : clients.clients = .empty) (moment : Nat) :
    let fleet := (Fleet.ensureDefault (Host.platform runText)
      ⟨clients, Host.start true .empty moment Services.empty⟩).2
    fleet.Home ∧ fleet.Sound ∧ ∀ name, fleet.state.serving 0 name = none := by
  intro fleet
  have home := Fleet.Home.start fresh moment Services.empty
  have reachable : Fleet.Reachable runText fleet := .ensureDefault (.start fresh ..)
  have unheld : clients.get? clients.defaultQueue = none := by
    rw [ClientRegistry.get?, fresh]
    rfl
  have dialed : fleet = (Fleet.connect (Host.platform runText)
      ⟨clients, Host.start true .empty moment Services.empty⟩ clients.defaultQueue
      (max 1 clients.options.connectAttempts)).2 := by
    simp only [fleet, Fleet.ensureDefault, unheld]
  obtain ⟨c, k, answered, -, -, connected⟩ := home.connects runText clients.defaultQueue
    (max 1 clients.options.connectAttempts)
  refine ⟨dialed ▸ home.connect runText _ _, reachable.sound, fun name => ?_⟩
  have engine := Host.connectEngine (Host.start true .empty moment Services.empty)
    (clients.settingsFor clients.defaultQueue) 0
  rw [answered, Host.startEngine] at engine
  rw [dialed, connected, Host.serving, engine]
  rfl

/-- What a service has in place when it is up: its jobs parted into those that the engine at home
knows, the last of a name under that name, and those that are set aside; and schedules, each that
of a job of a scheduled definition. -/
structure Settled (app : App) (answers : List (Except Error (Registrant Services Connection)))
    (registrants : List (Registrant Services Connection)) (names : List String) : Prop where
  parted : Outcome.Parted (app.workflows.definitions.flatMap Definition.listed) answers registrants names
    app.worker.rejected
  registered : app.worker.registered = registrants.map Registrant.record
  filed : List.Forall₂ (fun l answer => ∀ g, answer = .ok g → g.listed = l ∧ g.client.engine = 0 ∧
    g.job.Runs l.job) (app.workflows.definitions.flatMap Definition.listed) answers
  serving : ∀ name, app.fleet.state.serving 0 name =
    (Registrant.latest registrants 0 name).map (·.job)
  owned : ∀ id d, app.fleet.stored 0 id = some d → ∃ w ∈ app.workflows.scheduled, ∃ l ∈ w.listed,
    l.name = id ∧ d.action = ⟨id, app.fleet.clients.queueName l.job.queue, .null⟩

theorem startSettled {config : Config} {machine : Machine} {words : List UInt32} {moment : Nat}
    {files : FileTree} {app : App}
    (started : start (Host.platform runText) config machine (words.map UInt32.toNat) moment files =
      .ok app) :
    ∃ answers registrants names, app.Settled answers registrants names := by
  obtain ⟨clients, fleet, built, fresh, rfl, accepted, placed⟩ := startStages started
  obtain ⟨home, sound, unserved⟩ := connectedFirst runText fresh moment
  obtain ⟨answers, registrants, names, parted, registered, filed, settled, safe, serving⟩ :=
    WorkerPlan.buildHome runText home sound unserved accepted
  have kept := Dispatcher.initSchedulesKeeps runText app.workflows.definitions (words.map UInt32.toNat) built
  rw [← placed] at kept
  refine ⟨answers, registrants, names, parted, registered, filed, fun name => ?_, fun id d stored => ?_⟩
  · exact (congrArg (SortedMap.get? · name) (kept.seen 0)).trans (serving name)
  · rw [placed] at stored ⊢
    obtain ⟨w, known, scheduled, owned⟩ :=
      Dispatcher.initOwned app.workflows.definitions words settled safe stored
    exact ⟨w, List.mem_filter.2 ⟨known, Option.isSome_iff_ne_none.2 scheduled⟩, owned⟩

namespace Settled
variable {app : App} {answers : List (Except Error (Registrant Services Connection))}
  {registrants : List (Registrant Services Connection)} {names : List String}

theorem home (settled : app.Settled answers registrants names) :
    ∀ g ∈ registrants, g.client.engine = 0 := by
  intro g inside
  obtain ⟨l, -, holds⟩ := settled.parted.drawn settled.filed g inside
  exact (holds g rfl).2.1

theorem latest (settled : app.Settled answers registrants names) (name : String) :
    (∃ last, Registrant.latest registrants 0 name = some last) ↔
      ∃ r ∈ app.worker.registered, r.job = name := by
  rw [settled.registered]
  exact Registrant.latestHome settled.home name

theorem served (settled : app.Settled answers registrants names) (name : String) :
    (∃ job, app.fleet.state.serving 0 name = some job) ↔ ∃ r ∈ app.worker.registered, r.job = name := by
  rw [← settled.latest, settled.serving]
  cases Registrant.latest registrants 0 name <;> simp

theorem spared (settled : app.Settled answers registrants names) {w : Definition} {l : ListedJob}
    (known : w ∈ app.workflows.definitions) (listed : l ∈ w.listed)
    (spared : ∀ x ∈ app.worker.rejected, x.job ≠ l.name) :
    ∃ r ∈ app.worker.registered, r.job = l.name := by
  rcases settled.parted.sorted settled.filed l (List.mem_flatMap.2 ⟨w, known, listed⟩) with
    ⟨g, made, holds⟩ | ⟨e, failed⟩
  · refine ⟨g.record, settled.registered ▸ List.mem_map_of_mem made, ?_⟩
    rw [Registrant.record, (holds g rfl).1]
  · exact absurd rfl (spared _ failed)

end Settled
end App
end Orchestration
