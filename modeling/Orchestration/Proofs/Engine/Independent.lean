import Orchestration.Proofs.Engine.LifeCycle
import Orchestration.Proofs.Run.Steady

/-! Runs that share an engine and do not touch one another. Nothing is registered once they are
under way, and activities answer by their inputs; then each run that is not cancelled makes the
calls that it makes when it has the engine to itself, and reports what it reports then. -/
namespace Orchestration

variable {σ : Type}

def Phase.Follows (job : CompiledJob σ) (activities : SortedMap (ActionHandler σ)) (input : Json)
    (legs : List (Option Ask)) : Phase σ → Prop
  | .going (.fresh given) => given = input ∧ legs = []
  | .going (.paused run) => ∃ wait, job.Goes activities input legs (.paused wait run)
  | .closed (.settled outcome) =>
    ∃ context, job.Goes activities input legs (.finished context) ∧ outcome = context.map fun _ => ()
  | .closed .silent => False
  | _ => True

def Burst.phase : Burst σ → Phase σ
  | .finished outcome => .closed (.settled (outcome.map fun _ => ()))
  | .paused _ run => .going (.paused run)

def Thread.Follows (activities : SortedMap (ActionHandler σ)) (log : List (Event σ)) (t : Thread σ) : Prop :=
  ∃ input, log.filterMap Event.spawn? = [(t.job, input)] ∧
    t.phase.Follows t.job activities input (log.filterMap Event.leg?)

theorem Thread.Follows.next {activities : SortedMap (ActionHandler σ)} {log : List (Event σ)}
    {t u : Thread σ} {e : Event σ} (follows : t.Follows activities log) (job : u.job = t.job)
    (spawn : e.spawn? = none)
    (phase : ∀ input legs, t.phase.Follows t.job activities input legs →
      u.phase.Follows t.job activities input (legs ++ e.leg?.toList)) :
    u.Follows activities (log ++ [e]) := by
  obtain ⟨input, spawned, went⟩ := follows
  refine ⟨input, ?_, ?_⟩
  · rw [Life.readSnoc, spawned, spawn, job]
    rfl
  · rw [Life.readSnoc, job]
    exact phase input _ went

theorem Phase.Follows.leg {job : CompiledJob σ} {activities : SortedMap (ActionHandler σ)} {input : Json}
    {legs : List (Option Ask)} {stage : RunStage σ} {s : σ} {leg : Leg σ}
    (follows : (Phase.going stage).Follows job activities input legs)
    (goes : job.leg activities s stage = some leg) :
    job.Goes activities input (legs ++ [leg.ask]) leg.burst := by
  cases stage with
  | fresh given =>
    obtain ⟨rfl, rfl⟩ := follows
    cases goes
    exact .setOut s
  | paused paused =>
    obtain ⟨wait, gone⟩ := follows
    cases goes
    exact gone.goOn s
  | cancelled => cases goes

namespace Arena

inductive Undisturbed (start : Arena σ) : List (Event σ) → Arena σ → Prop where
  | start : Undisturbed start [] start
  | step {log a e b} (before : Undisturbed start log a) (step : Step a e b) :
      Undisturbed start (log ++ [e]) b
  | aside {log a b} (before : Undisturbed start log a) (aside : Aside a b)
      (procedures : b.engine.procedures = a.engine.procedures)
      (activities : b.engine.activities = a.engine.activities) : Undisturbed start log b

theorem Undisturbed.course {start a : Arena σ} {log : List (Event σ)}
    (undisturbed : Undisturbed start log a) : Course start log a := by
  induction undisturbed with
  | start => exact .start
  | step before step ih => exact ih.step step
  | aside before aside procedures activities ih => exact ih.aside aside

theorem Step.tables {a b : Arena σ} {e : Event σ} (step : Step a e b) :
    b.engine.procedures = a.engine.procedures ∧ b.engine.activities = a.engine.activities := by
  cases step with
  | cancel run =>
    unfold Arena.cancel
    split <;> exact ⟨rfl, rfl⟩
  | _ => exact ⟨rfl, rfl⟩

theorem Step.others {a b : Arena σ} {e : Event σ} (step : Step a e b) {run : RunId} (apart : e.run ≠ run) :
    b.threads run = a.threads run := by
  cases step with
  | cancel hit =>
    unfold Arena.cancel
    split
    · exact Function.update_of_ne apart.symm ..
    · rfl
  | _ => exact putOther _ _ apart

theorem Undisturbed.tables {start a : Arena σ} {log : List (Event σ)}
    (undisturbed : Undisturbed start log a) :
    a.engine.procedures = start.engine.procedures ∧ a.engine.activities = start.engine.activities := by
  induction undisturbed with
  | start => exact ⟨rfl, rfl⟩
  | step before step ih =>
    exact ⟨step.tables.1.trans ih.1, step.tables.2.trans ih.2⟩
  | aside before aside procedures activities ih =>
    exact ⟨procedures.trans ih.1, activities.trans ih.2⟩

theorem cancelFollows {a : Arena σ} {run : RunId} {log : List (Event σ)} {t : Thread σ}
    (before : ∀ u, a.threads run = some u → u.Follows a.engine.activities log)
    (here : (a.cancel run).2.threads run = some t) :
    t.Follows a.engine.activities (log ++ [.cancelled run (a.cancel run).1]) := by
  have stays {u : Thread σ} (hit : Bool) (known : a.threads run = some u) :
      u.Follows a.engine.activities (log ++ [.cancelled run hit]) :=
    (before u known).next rfl rfl fun input legs follows => by rwa [Life.legless rfl]
  unfold cancel at here ⊢
  split at here
  · simp only [Function.update_self, Option.map_eq_some_iff] at here
    obtain ⟨⟨job, entry, stage | report⟩, known, rfl⟩ := here
    · exact (before _ known).next rfl rfl fun input legs follows => trivial
    · exact stays _ known
  · exact stays _ here

theorem Step.follows {a b : Arena σ} {e : Event σ} {log : List (Event σ)} {t : Thread σ}
    (step : Step a e b) (life : Life e.run log (a.threads e.run))
    (before : ∀ u, a.threads e.run = some u → u.Follows a.engine.activities log)
    (here : b.threads e.run = some t) : t.Follows a.engine.activities (log ++ [e]) := by
  cases step with
  | @spawn procedure job found run new input =>
    cases (putOwn ..).symm.trans here
    have unmade : Life run log none := new ▸ life
    refine ⟨input, ?_, ?_⟩
    · rw [Life.readSnoc, unmade.silent rfl]
      rfl
    · rw [Life.readSnoc, unmade.silent rfl]
      exact ⟨rfl, rfl⟩
  | track known =>
    cases (putOwn ..).symm.trans here
    refine (before _ known).next rfl rfl fun input legs follows => ?_
    rwa [Life.legless rfl]
  | gate known =>
    cases (putOwn ..).symm.trans here
    refine (before _ known).next rfl rfl fun input legs follows => ?_
    rwa [Life.legless rfl]
  | @go run job stage leg wait paused known goes pauses =>
    cases (putOwn ..).symm.trans here
    refine (before _ known).next rfl rfl fun input legs follows => ⟨wait, ?_⟩
    exact pauses ▸ follows.leg goes
  | @finish run job stage leg outcome known goes ends =>
    cases (putOwn ..).symm.trans here
    refine (before _ known).next rfl rfl fun input legs follows => ⟨outcome, ?_, rfl⟩
    exact ends ▸ follows.leg goes
  | cancel run => exact cancelFollows before here
  | @drop run job entry known =>
    cases (putOwn ..).symm.trans here
    exact (before _ known).next rfl rfl fun input legs follows => trivial

theorem Undisturbed.follows {start a : Arena σ} {log : List (Event σ)} (idle : start.Idle)
    (undisturbed : Undisturbed start log a) {run : RunId} {t : Thread σ} (here : a.threads run = some t) :
    t.Follows start.engine.activities (own run log) := by
  induction undisturbed generalizing t with
  | start =>
    rw [idle.threads] at here
    cases here
  | @step log a e b before step ih =>
    rw [ownSnoc]
    split
    · rename_i named
      subst named
      have life := (before.course.sound idle).lives e.run
      rw [← before.tables.2] at ih ⊢
      exact step.follows life (fun u known => ih known) here
    · rename_i apart
      exact ih ((step.others apart).symm.trans here)
  | aside before aside procedures activities ih =>
    rw [aside.threads] at here
    exact ih here

theorem Undisturbed.known {start a : Arena σ} {log : List (Event σ)} (undisturbed : Undisturbed start log a)
    {run : RunId} {job : CompiledJob σ} {input : Json} (spawned : .spawned run job input ∈ log) :
    ∃ procedure, start.engine.procedure procedure = .ok job := by
  induction undisturbed with
  | start => cases spawned
  | @step log a e b before step ih =>
    cases List.mem_append.1 spawned with
    | inl earlier => exact ih earlier
    | inr now =>
      cases List.mem_singleton.1 now
      cases step with
      | @spawn procedure job found run new input =>
        refine ⟨procedure, ?_⟩
        unfold LocalEngine.procedure at found ⊢
        rw [before.tables.1] at found
        exact found
  | aside before aside procedures activities ih => exact ih spawned

structure Solo (run : RunId) (job : CompiledJob σ) (input : Json) (log : List (Event σ)) : Prop where
  only : ∀ e ∈ log, e.run = run
  spawned : .spawned run job input ∈ log
  spared : .cancelled run true ∉ log

/-- All that a run asks for when it has the engine to itself, and what it reports then. -/
def Alone (start : Arena σ) (job : CompiledJob σ) (input : Json) (calls : List (Option Ask))
    (outcome : Except Error Unit) : Prop :=
  ∃ run log a, Undisturbed start log a ∧ Solo run job input log ∧ legs run log = calls ∧
    reports run log = [.settled outcome]

theorem Solo.snoc {run : RunId} {job : CompiledJob σ} {input : Json} {log : List (Event σ)} {e : Event σ}
    (solo : Solo run job input log) (named : e.run = run) (unhit : e.hit? = none) :
    Solo run job input (log ++ [e]) := by
  refine ⟨fun f inside => ?_, List.mem_append_left _ solo.spawned, fun inside => ?_⟩
  · cases List.mem_append.1 inside with
    | inl earlier => exact solo.only f earlier
    | inr last => exact (List.mem_singleton.1 last) ▸ named
  · cases List.mem_append.1 inside with
    | inl earlier => exact solo.spared earlier
    | inr last =>
      rw [← List.mem_singleton.1 last] at unhit
      cases unhit

theorem legStep {a : Arena σ} {run : RunId} {job : CompiledJob σ} {stage : RunStage σ} {leg : Leg σ}
    (here : a.threads run = some ⟨job, .opened, .going stage⟩)
    (goes : job.leg a.engine.activities a.services stage = some leg) :
    ∃ e b, Step a e b ∧ e.run = run ∧ e.leg? = some leg.ask ∧ e.hit? = none ∧
      b.threads run = some ⟨job, .opened, leg.burst.phase⟩ := by
  cases burst : leg.burst with
  | finished outcome => exact ⟨_, _, .finish here goes burst, rfl, rfl, rfl, putOwn ..⟩
  | paused wait paused => exact ⟨_, _, .go here goes burst, rfl, rfl, rfl, putOwn ..⟩

theorem legsSnoc {run : RunId} {log : List (Event σ)} {e : Event σ} (named : e.run = run) :
    legs run (log ++ [e]) = legs run log ++ e.leg?.toList := by
  rw [legs, ownSnoc, if_pos named, Life.readSnoc]
  rfl

theorem entersAlone {start : Arena σ} (idle : start.Idle) {procedure : String} {job : CompiledJob σ}
    (found : start.engine.procedure procedure = .ok job) (input : Json) (run : RunId) :
    ∃ log a, Undisturbed start log a ∧ Solo run job input log ∧ legs run log = [] ∧
      a.threads run = some ⟨job, .opened, .going (.fresh input)⟩ := by
  have spawned := Undisturbed.start.step (.spawn found (idle.threads run) input)
  have tracked := spawned.step (.track (putOwn ..))
  have opened := tracked.step (.gate (putOwn ..))
  have solo : Solo run job input [.spawned run job input] :=
    ⟨fun e inside => by rw [List.mem_singleton.1 inside]; rfl, List.mem_singleton_self _, by simp⟩
  refine ⟨_, _, opened, ((solo.snoc rfl rfl).snoc rfl rfl), ?_, putOwn ..⟩
  simp [legs, own, Event.run, Event.leg?]

theorem goesOnAlone {start a : Arena σ} {log : List (Event σ)} (undisturbed : Undisturbed start log a)
    {run : RunId} {job : CompiledJob σ} {input : Json} (solo : Solo run job input log)
    {stage : RunStage σ} (here : a.threads run = some ⟨job, .opened, .going stage⟩)
    {leg : σ → Leg σ} (goes : ∀ s, job.leg start.engine.activities s stage = some (leg s))
    (steady : CompiledJob.SteadyLeg leg) (s : σ) :
    ∃ log' b, Undisturbed start log' b ∧ Solo run job input log' ∧
      legs run log' = legs run log ++ [(leg s).ask] ∧
      b.threads run = some ⟨job, .opened, (leg s).burst.phase⟩ := by
  obtain ⟨ask, burst⟩ := steady.alike a.services s
  have next := goes a.services
  rw [← undisturbed.tables.2] at next
  obtain ⟨e, b, step, named, went, unhit, on⟩ := legStep here next
  refine ⟨_, b, undisturbed.step step, solo.snoc named unhit, ?_, ?_⟩
  · rw [legsSnoc named, went, ask]
    rfl
  · rw [on, burst]

theorem goesAlone {start : Arena σ} (idle : start.Idle) (steady : AllSteady start.engine.activities)
    {procedure : String} {job : CompiledJob σ} (found : start.engine.procedure procedure = .ok job)
    {input : Json} (run : RunId) {calls : List (Option Ask)} {burst : Burst σ}
    (goes : job.Goes start.engine.activities input calls burst) :
    ∃ log a, Undisturbed start log a ∧ Solo run job input log ∧ legs run log = calls ∧
      a.threads run = some ⟨job, .opened, burst.phase⟩ := by
  induction goes with
  | setOut s =>
    obtain ⟨log, a, undisturbed, solo, none, here⟩ := entersAlone idle found input run
    have first := goesOnAlone undisturbed solo here (fun s => rfl)
      (CompiledJob.setOutSteady steady input) s
    rw [none] at first
    exact first
  | @goOn calls wait paused before s ih =>
    obtain ⟨log, a, undisturbed, solo, went, here⟩ := ih
    have own := before.kept steady
    have next := goesOnAlone undisturbed solo here (fun s => rfl) (CompiledJob.goOnSteady steady own) s
    rw [went] at next
    exact next

theorem Undisturbed.way {start a : Arena σ} {log : List (Event σ)} (idle : start.Idle)
    (undisturbed : Undisturbed start log a) {run : RunId} {job : CompiledJob σ} {input : Json}
    (spawned : .spawned run job input ∈ log) :
    ∃ entry phase, a.threads run = some ⟨job, entry, phase⟩ ∧
      Thread.Told (own run log) ⟨job, entry, phase⟩ ∧
      phase.Follows job start.engine.activities input (legs run log) := by
  rw [spawnedMem] at spawned
  obtain ⟨⟨other, entry, phase⟩, here, told⟩ :=
    (undisturbed.course.sound idle).told rfl (List.ne_nil_of_mem spawned)
  obtain ⟨given, made, follows⟩ := undisturbed.follows idle here
  rw [made] at spawned
  cases List.mem_singleton.1 spawned
  exact ⟨entry, phase, here, told, follows⟩

theorem Phase.unhit {stage : RunStage σ} (spared : (Phase.going stage).hits = []) : stage ≠ .cancelled := by
  intro same
  rw [same] at spared
  cases spared

theorem Undisturbed.onTheWay {start a : Arena σ} {log : List (Event σ)} (idle : start.Idle)
    (steady : AllSteady start.engine.activities) (undisturbed : Undisturbed start log a)
    {run : RunId} {job : CompiledJob σ} {input : Json} (spawned : .spawned run job input ∈ log)
    (spared : .cancelled run true ∉ log) {calls : List (Option Ask)} {context : Except Error RunContext}
    (whole : job.Goes start.engine.activities input calls (.finished context)) :
    legs run log <+: calls ∧ ∀ report ∈ reports run log,
      report = .settled (context.map fun _ => ()) ∧ legs run log = calls := by
  obtain ⟨entry, phase, here, told, follows⟩ := undisturbed.way idle spawned
  rw [hitMem, Decidable.not_not, told.hits] at spared
  rw [reports, told.reports]
  cases phase with
  | going stage =>
    refine ⟨?_, fun report none => by cases none⟩
    cases stage with
    | fresh given =>
      rw [follows.2]
      exact List.nil_prefix
    | paused paused =>
      obtain ⟨wait, goes⟩ := follows
      exact (goes.toTheEnd steady whole).1
    | cancelled => exact absurd rfl (Phase.unhit spared)
  | closed report =>
    cases report with
    | silent => exact follows.elim
    | dropped => cases spared
    | settled outcome =>
      obtain ⟨ended, goes, rfl⟩ := follows
      obtain ⟨on, last⟩ := goes.toTheEnd steady whole
      obtain ⟨same, rfl⟩ := last ended rfl
      refine ⟨on, fun report told => ⟨List.mem_singleton.1 told, same⟩⟩

theorem Undisturbed.further {start a : Arena σ} {log : List (Event σ)} (idle : start.Idle)
    (undisturbed : Undisturbed start log a) {run : RunId} {job : CompiledJob σ} {input : Json}
    (spawned : .spawned run job input ∈ log) (spared : .cancelled run true ∉ log)
    (unreported : reports run log = []) :
    ∃ e b, Step a e b ∧ e.run = run ∧ ∀ hit, e ≠ .cancelled run hit := by
  obtain ⟨entry, phase, here, told, follows⟩ := undisturbed.way idle spawned
  rw [hitMem, Decidable.not_not, told.hits] at spared
  rw [reports, told.reports] at unreported
  cases phase with
  | closed report => cases unreported
  | going stage =>
    cases entry with
    | spawned => exact ⟨_, _, .track here, rfl, fun hit same => by cases same⟩
    | tracked => exact ⟨_, _, .gate here, rfl, fun hit same => by cases same⟩
    | opened =>
      obtain ⟨leg, goes⟩ : ∃ leg, job.leg a.engine.activities a.services stage = some leg := by
        cases stage with
        | cancelled => exact absurd rfl (Phase.unhit spared)
        | _ => exact ⟨_, rfl⟩
      obtain ⟨e, b, step, named, went, -, -⟩ := legStep here goes
      refine ⟨e, b, step, named, fun hit same => ?_⟩
      rw [same] at went
      cases went

/-- A run that goes as it goes alone, whatever the services hold when it does. -/
structure Independent (start : Arena σ) (log : List (Event σ)) (a : Arena σ) (run : RunId)
    (job : CompiledJob σ) (input : Json) (calls : List (Option Ask)) (outcome : Except Error Unit) :
    Prop where
  alone : ∀ services others other, Alone { start with services := services } job input others other ↔
    others = calls ∧ other = outcome
  onTheWay : legs run log <+: calls
  reported : ∀ report ∈ reports run log, report = .settled outcome ∧ legs run log = calls
  goesOn : reports run log = [] → ∃ e b, Step a e b ∧ e.run = run ∧ ∀ hit, e ≠ .cancelled run hit

theorem Undisturbed.independent {start a : Arena σ} {log : List (Event σ)} (idle : start.Idle)
    (steady : AllSteady start.engine.activities) (undisturbed : Undisturbed start log a)
    {run : RunId} {job : CompiledJob σ} {input : Json} (spawned : .spawned run job input ∈ log)
    (spared : .cancelled run true ∉ log) :
    ∃ calls outcome, Independent start log a run job input calls outcome := by
  obtain ⟨procedure, found⟩ := undisturbed.known spawned
  have setsOut := @CompiledJob.Goes.setOut _ job start.engine.activities input start.services
  obtain ⟨calls, context, whole⟩ := setsOut.ends start.services
  obtain ⟨went, told⟩ := undisturbed.onTheWay idle steady spawned spared whole
  refine ⟨calls, context.map fun _ => (), ?_, went, told, undisturbed.further idle spawned spared⟩
  intro services others other
  have still : Idle { start with services := services } := ⟨idle.runs, idle.threads⟩
  constructor
  · intro alone
    obtain ⟨name, solo, b, lone, only, rfl, reported⟩ := alone
    have last : .settled other ∈ reports name solo := by
      rw [reported]
      exact List.mem_singleton_self _
    obtain ⟨same, all⟩ := (lone.onTheWay still steady only.spawned only.spared whole).2 _ last
    exact ⟨all, Report.settled.inj same⟩
  · intro same
    obtain ⟨rfl, rfl⟩ := same
    obtain ⟨solo, b, lone, only, all, here⟩ := goesAlone still steady found run whole
    have life := (lone.course.sound still).lives run
    rw [here] at life
    exact ⟨run, solo, b, lone, only, all, (life.told _ rfl).reports⟩

end Arena
end Orchestration
