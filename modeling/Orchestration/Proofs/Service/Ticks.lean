import Orchestration.Proofs.Service.Start

/-! What the cron jobs of a service start. A schedule is in place for each job of a scheduled
definition, also for one that the worker has rejected; its ticks start the job that the worker
registered last under its name, and nothing when there is none. -/
namespace Orchestration

variable {runText : RunId → String}

theorem HttpService.respondKeeps {σ : Type} (runText : RunId → String) (moment : Nat)
    (r : WorkflowRegistry) (request : HttpRequest) (f : Fleet Connection (Host σ)) :
    Host.Keeps LocalEngine.tables f.state
      (respond (Host.platform runText) moment r request f).2.state := by
  have routed (route : Route) : Host.Keeps LocalEngine.tables f.state
      (atRoute (Host.platform runText) moment r route request.body f).2.state := by
    cases route with
    | health => exact .refl _
    | workflows => exact .refl _
    | workflow name => exact .refl _
    | event id =>
      simp only [atRoute, postEvent]
      split
      · exact .refl _
      · simp only [trigger]
        split
        · exact .refl _
        · exact Dispatcher.triggerKeeps runText ..
  simp only [respond]
  split
  · exact .refl _
  · split
    · exact routed _
    · exact .refl _

namespace App

/-- What becomes of the fleet of a service: requests are answered, tasks go on, time passes and the
calendar moves. -/
inductive Later (runText : RunId → String) (app : App) : Fleet Connection (Host Services) → Prop where
  | up : Later runText app app.fleet
  | request {f} (before : Later runText app f) (moment request) : Later runText app
      (HttpService.respond (Host.platform runText) moment app.workflows request f).2
  | drain {f} (before : Later runText app f) : Later runText app ⟨f.clients, f.state.drain⟩
  | pass {f} (before : Later runText app f) (span) : Later runText app ⟨f.clients, f.state.pass span⟩
  | advance {f} (before : Later runText app f) (moment) :
      Later runText app ⟨f.clients, f.state.advance runText moment⟩

theorem Later.keeps {app : App} {f : Fleet Connection (Host Services)} (later : Later runText app f) :
    Host.Keeps LocalEngine.tables app.fleet.state f.state := by
  induction later with
  | up => exact .refl _
  | request before moment request ih => exact ih.trans (HttpService.respondKeeps ..)
  | drain before ih => exact ih.trans (.drain _)
  | pass before span ih => exact ih.trans (.pass span _)
  | advance before moment ih => exact ih.trans (.advance runText moment _)

inductive Fires (app : App) (registrants : List (Registrant Services Connection)) (id : String) :
    List (RunTask Services) → Prop where
  | running {last run} (latest : Registrant.latest registrants 0 id = some last) :
      Fires app registrants id [⟨0, run, last.job, .fresh .null⟩]
  | idle (unregistered : ∀ r ∈ app.worker.registered, r.job ≠ id) : Fires app registrants id []

section
variable {app : App} {answers : List (Except Error (Registrant Services Connection))}
  {registrants : List (Registrant Services Connection)} {names : List String}

theorem Settled.fires (settled : app.Settled answers registrants names) {id : String}
    {d : ScheduleDescription} (stored : app.fleet.stored 0 id = some d)
    {block : List (RunTask Services)} (ticked : Host.Ticked app.fleet.state 0 id block) :
    Fires app registrants id block := by
  obtain ⟨w, -, l, -, -, action⟩ := settled.owned id d stored
  have scheduled : (app.fleet.state.engine 0).tick? id = some d.action :=
    congrArg (Option.map ScheduleDescription.action) stored
  cases ticked with
  | unscheduled gone =>
    rw [scheduled] at gone
    cases gone
  | unserved there absent =>
    cases scheduled.symm.trans there
    rw [action] at absent
    refine .idle fun r inside named => ?_
    obtain ⟨job, found⟩ := (settled.served id).2 ⟨r, inside, named⟩
    rw [absent] at found
    cases found
  | started there found =>
    cases scheduled.symm.trans there
    rw [action, settled.serving, Option.map_eq_some_iff] at found
    obtain ⟨last, latest, rfl⟩ := found
    rw [action]
    exact .running latest

end

/-- Schedules are those of the jobs of scheduled definitions, whether or not the worker has
registered them. The engine finds the procedure of one if and only if a job of its name is
registered, which is so unless one is rejected. Whatever is asked of the service later, it keeps
these schedules, and each tick of one of them starts one run of the job registered last under
its name, or leaves nothing when none is registered. -/
theorem ticksRunRegistered (runText : RunId → String) {config : Config} {machine : Machine}
    {words : List UInt32} {moment : Nat} {files : FileTree} {app : App}
    (started : start (Host.platform runText) config machine (words.map UInt32.toNat) moment files =
      .ok app) :
    ∃ answers registrants names, app.Settled answers registrants names ∧
      (∀ id d, app.fleet.stored 0 id = some d →
        d.action.procedure = id ∧
        ((∃ job, app.fleet.state.serving 0 d.action.procedure = some job) ↔
          ∃ r ∈ app.worker.registered, r.job = id) ∧
        ((∀ x ∈ app.worker.rejected, x.job ≠ id) → ∃ r ∈ app.worker.registered, r.job = id)) ∧
      ∀ f, Later runText app f → (∀ id, f.stored 0 id = app.fleet.stored 0 id) ∧
        ∀ now, let host := { f.state with moment := now }
          ∃ blocks, (host.tickEngine runText 0).ready = host.ready ++ blocks.flatten ∧
            List.Forall₂ (fun job block => ∀ d, app.fleet.stored 0 job.tick = some d →
              Fires app registrants job.tick block) (host.due 0) blocks := by
  obtain ⟨answers, registrants, names, settled⟩ := startSettled started
  refine ⟨answers, registrants, names, settled, fun id d stored => ?_, fun f later => ?_⟩
  · obtain ⟨w, known, l, listed, rfl, action⟩ := settled.owned id d stored
    have procedure : d.action.procedure = l.name := congrArg ScheduleAction.procedure action
    refine ⟨procedure, procedure ▸ settled.served l.name, fun spared => ?_⟩
    exact settled.spared (List.mem_filter.1 known).1 listed spared
  · have kept := later.keeps
    refine ⟨fun id => congrArg (fun tables => tables.2.get? id) (kept.seen 0), fun now => ?_⟩
    intro host
    have same : Host.Keeps LocalEngine.tables app.fleet.state host := kept.trans (.ofEngines rfl rfl)
    obtain ⟨blocks, ready, ticked⟩ := Host.tickEngineTicked runText 0 host
    exact ⟨blocks, ready, ticked.imp fun job block ticked d stored =>
      settled.fires stored (ticked.before same)⟩

def nightlyText : String :=
  "name: nightly\non:\n  events: []\n  cron:\n    schedule: 0 3 * * *\njobs:\n" ++
  "  backup:\n    steps:\n      - id: say\n        actionId: echo:echo\n" ++
  "  report:\n    steps:\n      - id: say\n        actionId: missing:verb\n"

def nightlyFiles : FileTree :=
  .directory [("w", .directory [("nightly.yml", .file nightlyText.toUTF8)])]

def nightlyDefinitions : List Definition :=
  [⟨"w/nightly.yml", nightlyText.toUTF8⟩].filterMap Directory.definition?

def nightlyStart : Except StartupFault App :=
  start (Host.platform fun run => toString run.number) { Config.standard with workflowsDir := "w" }
    ⟨"1", "localhost"⟩ ([].map UInt32.toNat) 0 nightlyFiles

theorem nightlyWalk (follow : Bool) : nightlyFiles.walkFrom follow FileTree.maxLinks [] ["w"] =
    .ok ⟨["w"], .directory [("nightly.yml", .file nightlyText.toUTF8)]⟩ := by
  simp [FileTree.walkFrom, nightlyFiles, FileTree.at?, SortedEntries.get?]

theorem nightlyLoaded : load "w" nightlyFiles = .ok (⟨nightlyDefinitions⟩, nightlyFiles) := by
  have path : FileTree.names "w" = ["w"] := by decide +kernel
  have joined : FileTree.join "w" "nightly.yml" = "w/nightly.yml" := by decide +kernel
  have made : nightlyFiles.makeDirectories "w" = .ok nightlyFiles := by
    simp [FileTree.makeDirectories, path, FileTree.makeAll, FileTree.makeDirectory,
      FileTree.isDirectoryAt, nightlyWalk]
  have walked : nightlyFiles.walk "w" = .ok [⟨"w/nightly.yml", nightlyText.toUTF8⟩] := by
    simp [FileTree.walk, FileTree.entry, FileTree.walkPath, path, nightlyWalk, Except.map, FileTree.visits,
      FileTree.visitEntries, FileTree.inOrder, joined]
  have read : WorkflowRegistry.ofDirectory nightlyFiles "w" = .ok ⟨nightlyDefinitions⟩ := by
    simp only [WorkflowRegistry.ofDirectory, Directory.readAll, walked]
    rfl
  rw [load, made]
  simp only [Except.mapError, bind, Except.bind, read]
  rfl

theorem okWith {ε α : Type} {result : Except ε α} {P : α → Prop} [DecidablePred P]
    (holds : result.toOption.any (fun a => decide (P a)) = true) : ∃ a, result = .ok a ∧ P a := by
  cases result with
  | error e => cases holds
  | ok a => exact ⟨a, rfl, of_decide_eq_true holds⟩

theorem nightlyUp : ∃ app, nightlyStart = .ok app ∧
    app.worker.registered = [⟨"nightly", "backup", "default"⟩] ∧
    app.fleet.stored 0 "backup" = some ⟨"backup", ["0 3 * * *"], ⟨"backup", "default", .null⟩⟩ ∧
    app.fleet.stored 0 "report" = some ⟨"report", ["0 3 * * *"], ⟨"report", "default", .null⟩⟩ ∧
    app.fleet.state.serving 0 "report" = none ∧
    (app.fleet.state.engine 0).cron.live.map (·.job.tick) = ["backup", "report"] := by
  have loaded : load { Config.standard with workflowsDir := "w" }.workflowsDir nightlyFiles = _ :=
    nightlyLoaded
  rw [nightlyStart, start, loaded]
  exact okWith (by decide +kernel)

theorem ticksRunRegisteredNightly : ∃ app, nightlyStart = .ok app ∧
    (app.fleet.state.engine 0).cron.live.map (·.job.tick) = ["backup", "report"] ∧
    (∃ job, app.fleet.state.serving 0 "backup" = some job) ∧
    ∀ f, Later (fun run => toString run.number) app f → ∀ now,
      let host := { f.state with moment := now }
      ∃ blocks, (host.tickEngine (fun run => toString run.number) 0).ready = host.ready ++ blocks.flatten ∧
        List.Forall₂ (fun job block =>
          (job.tick = "backup" → ∃ run job, block = [⟨0, run, job, .fresh .null⟩]) ∧
            (job.tick = "report" → block = [])) (host.due 0) blocks := by
  obtain ⟨app, up, registered, backup, report, unserved, live⟩ := nightlyUp
  obtain ⟨answers, registrants, names, settled, placed, ticks⟩ := ticksRunRegistered _ up
  refine ⟨app, up, live, ?_, fun f later now => ?_⟩
  · exact (placed "backup" _ backup).2.1.2 ⟨_, registered ▸ List.mem_singleton_self _, rfl⟩
  · obtain ⟨blocks, ready, ticked⟩ := (ticks f later).2 now
    refine ⟨blocks, ready, ticked.imp fun job block fires => ⟨fun named => ?_, fun named => ?_⟩⟩
    · cases fires _ (named ▸ backup) with
      | running latest => exact ⟨_, _, rfl⟩
      | idle unregistered =>
        exact absurd named.symm (unregistered _ (registered ▸ List.mem_singleton_self _))
    · cases fires _ (named ▸ report) with
      | running latest =>
        rw [named] at latest
        obtain ⟨r, inside, same⟩ := (settled.latest "report").1 ⟨_, latest⟩
        rw [registered, List.mem_singleton] at inside
        rw [inside] at same
        exact absurd same (by decide)
      | idle unregistered => rfl

/-- The schedule of a job that was rejected is in place, with nothing to start: its ticks change
nothing. -/
theorem scheduledUnregistered : ∃ app, nightlyStart = .ok app ∧
    ∃ d, app.fleet.stored 0 "report" = some d ∧
      app.fleet.state.serving 0 d.action.procedure = none ∧
      ∀ runText, Host.fire runText 0 app.fleet.state "report" = app.fleet.state := by
  obtain ⟨app, up, -, -, report, unserved, -⟩ := nightlyUp
  refine ⟨app, up, _, report, unserved, fun runText => ?_⟩
  exact Host.fireUnserved runText (congrArg (Option.map ScheduleDescription.action) report) unserved

end App
end Orchestration
