import Orchestration.Proofs.Engine.Arena

/-! The life cycle of runs: what the table of an engine holds, what a cancellation answers, and what
the one who waits for a run is told, in every order in which starts, tasks and cancellations
can take their steps. -/
namespace Orchestration

variable {σ : Type}

namespace Arena

def reports (run : RunId) (log : List (Event σ)) : List Report := (own run log).filterMap Event.report?

def legs (run : RunId) (log : List (Event σ)) : List (Option Ask) := (own run log).filterMap Event.leg?

def Unended (run : RunId) (log : List (Event σ)) : Prop :=
  .tracked run ∈ log ∧ reports run log = [] ∧ .cancelled run true ∉ log

structure LifeCycle (log : List (Event σ)) (a : Arena σ) : Prop where
  table : ∀ run, run ∈ a.engine.runs ↔ Unended run log
  opened : ∀ run, .opened run ∈ log → .tracked run ∈ log
  count : a.engine.runs.length = {run | Unended run log}.ncard
  answers : ∀ before run hit after, log = before ++ .cancelled run hit :: after →
    (hit = true ↔ Unended run before)
  hit : ∀ before run after, log = before ++ .cancelled run true :: after →
    .cancelled run true ∉ before ∧ .cancelled run true ∉ after ∧ legs run after = [] ∧
    (∀ report ∈ reports run log, ∀ text, report.outcome text = .error (.runCancelled text)) ∧
    (reports run log = [] → ∃ b, Step a (.dropped run) b)
  once : ∀ run, (reports run log).length ≤ 1
  outcome : ∀ run, .cancelled run true ∉ log → ∀ report ∈ reports run log,
    ∃ job input result, .spawned run job input ∈ log ∧
      (job.execute ActivityCall.replay input (legs run log).reduceOption).1 = result ∧
      ∀ text, report.outcome text = result.map fun _ => ()
  goesOn : ∀ run, .opened run ∈ log → Unended run log →
    (∃ ask b, Step a (.went run ask) b) ∨ ∃ ask outcome b, Step a (.ended run ask outcome) b
  bounded : ∀ run job input, .spawned run job input ∈ log → (legs run log).length ≤ waitsOf job.steps + 1

section
variable {run : RunId} {log : List (Event σ)}

theorem readMem {α : Type} {read : Event σ → Option α} {a : α} {e : Event σ} (here : e.run = run)
    (only : ∀ f : Event σ, f.run = run → (read f = some a ↔ f = e)) :
    e ∈ log ↔ a ∈ (own run log).filterMap read := by
  rw [List.mem_filterMap]
  constructor
  · intro inside
    exact ⟨e, List.mem_filter.2 ⟨inside, by simpa using here⟩, (only e here).2 rfl⟩
  · rintro ⟨f, inside, told⟩
    obtain ⟨there, named⟩ := List.mem_filter.1 inside
    rwa [← (only f (by simpa using named)).1 told]

theorem trackedMem : .tracked run ∈ log ↔ .tracked ∈ (own run log).filterMap Event.entry? :=
  readMem rfl fun f named => by cases f <;> simp_all [Event.entry?, Event.run]

theorem openedMem : .opened run ∈ log ↔ .opened ∈ (own run log).filterMap Event.entry? :=
  readMem rfl fun f named => by cases f <;> simp_all [Event.entry?, Event.run]

theorem spawnedMem {job : CompiledJob σ} {input : Json} :
    .spawned run job input ∈ log ↔ (job, input) ∈ (own run log).filterMap Event.spawn? :=
  readMem rfl fun f named => by cases f <;> simp_all [Event.spawn?, Event.run]

theorem hitMem : .cancelled run true ∈ log ↔ (own run log).filterMap Event.hit? ≠ [] := by
  have hit : .cancelled run true ∈ log ↔ () ∈ (own run log).filterMap Event.hit? := by
    refine readMem rfl fun f named => ?_
    cases f with
    | cancelled other hit => cases hit <;> simp_all [Event.hit?, Event.run]
    | _ => simp [Event.hit?]
  rw [hit]
  generalize (own run log).filterMap Event.hit? = hits
  cases hits <;> simp

end

theorem Idle.sound {a : Arena σ} (idle : a.Idle) : a.Sound [] := by
  refine ⟨?_, fun run => ?_, fun run => ?_⟩
  · rw [idle.runs]
    exact List.nodup_nil
  · rw [idle.runs, idle.threads]
    exact iff_of_false List.not_mem_nil Bool.false_ne_true
  · rw [idle.threads]
    exact .unknown

theorem Course.sound {start a : Arena σ} {log : List (Event σ)} (idle : start.Idle)
    (course : Course start log a) : a.Sound log := by
  induction course with
  | start => exact idle.sound
  | step before step ih => exact step.sound ih
  | aside before aside ih =>
    refine ⟨?_, fun run => ?_, fun run => ?_⟩
    · rw [aside.runs]
      exact ih.distinct
    · rw [aside.runs, aside.threads]
      exact ih.table run
    · rw [aside.threads]
      exact ih.lives run

theorem Course.split {start a : Arena σ} {log before after : List (Event σ)} {e : Event σ}
    (course : Course start log a) (cut : log = before ++ e :: after) :
    ∃ b c, Course start before b ∧ Step b e c := by
  induction course generalizing after with
  | start => simp at cut
  | @step log a last b earlier step ih =>
    rcases List.eq_nil_or_concat after with rfl | ⟨after, x, rfl⟩
    · obtain ⟨rfl, same⟩ := List.append_inj' cut rfl
      cases same
      exact ⟨a, b, earlier, step⟩
    · have shifted : log ++ [last] = (before ++ e :: after) ++ [x] := by simpa using cut
      exact ih (List.append_inj' shifted rfl).1
  | aside earlier aside ih => exact ih cut

theorem Sound.unended {log : List (Event σ)} {a : Arena σ} (sound : a.Sound log) (run : RunId) :
    run ∈ a.engine.runs ↔ Unended run log := by
  rw [sound.table, (sound.lives run).activeIff, Unended, trackedMem, hitMem, Decidable.not_not]
  rfl

theorem Sound.count {log : List (Event σ)} {a : Arena σ} (sound : a.Sound log) :
    a.engine.runs.length = {run | Unended run log}.ncard := by
  have same : {run | Unended run log} = ↑a.engine.runs.toFinset := by
    ext run
    simp [← sound.unended run]
  rw [same, Set.ncard_coe_finset, List.toFinset_card_of_nodup sound.distinct]

theorem Sound.told {log : List (Event σ)} {a : Arena σ} (sound : a.Sound log) {run : RunId} {α : Type}
    {read : Event σ → Option α} (blind : read (.cancelled run false) = none)
    (known : (own run log).filterMap read ≠ []) :
    ∃ t, a.threads run = some t ∧ t.Told (own run log) := by
  have life := sound.lives run
  cases here : a.threads run with
  | none =>
    rw [here] at life
    exact absurd (life.silent blind) known
  | some t => exact ⟨t, rfl, life.told t here⟩

theorem Sound.opened {log : List (Event σ)} {a : Arena σ} (sound : a.Sound log) {run : RunId}
    (opened : .opened run ∈ log) :
    ∃ job phase, a.threads run = some ⟨job, .opened, phase⟩ ∧
      Thread.Told (own run log) ⟨job, .opened, phase⟩ := by
  rw [openedMem] at opened
  obtain ⟨⟨job, entry, phase⟩, here, told⟩ := sound.told rfl (List.ne_nil_of_mem opened)
  rw [told.entries] at opened
  cases entry with
  | opened => exact ⟨job, phase, here, told⟩
  | _ => simp [Entry.steps] at opened

theorem cancelAnswer (a : Arena σ) (run : RunId) : (a.cancel run).1 = true ↔ run ∈ a.engine.runs := by
  rw [cancel, ← List.contains_iff_mem]
  split
  · rename_i tracked
    exact iff_of_true rfl tracked
  · rename_i absent
    exact iff_of_false Bool.false_ne_true absent

theorem Course.answers {start a : Arena σ} {log before after : List (Event σ)} {run : RunId} {hit : Bool}
    (idle : start.Idle) (course : Course start log a)
    (cut : log = before ++ .cancelled run hit :: after) : hit = true ↔ Unended run before := by
  obtain ⟨b, c, earlier, step⟩ := course.split cut
  rw [← (earlier.sound idle).unended run, ← cancelAnswer]
  cases step
  exact .rfl

theorem ownCut {before after : List (Event σ)} {run : RunId} {hit : Bool} :
    own run (before ++ .cancelled run hit :: after) =
      own run before ++ .cancelled run hit :: own run after := by
  simp [own, Event.run]

theorem Course.hit {start a : Arena σ} {log before after : List (Event σ)} {run : RunId}
    (idle : start.Idle) (course : Course start log a)
    (cut : log = before ++ .cancelled run true :: after) :
    .cancelled run true ∉ before ∧ .cancelled run true ∉ after ∧ legs run after = [] ∧
      (∀ report ∈ reports run log, ∀ text, report.outcome text = .error (.runCancelled text)) ∧
      (reports run log = [] → ∃ b, Step a (.dropped run) b) := by
  have sound := course.sound idle
  obtain ⟨tracked, unreported, unhit⟩ := (course.answers idle cut).1 rfl
  have life := sound.lives run
  rw [cut, ownCut] at life
  have quiet := life.afterHit
  refine ⟨unhit, ?_, ?_, fun report told text => ?_, fun unreported => ?_⟩
  · rw [hitMem, Decidable.not_not]
    exact List.filterMap_eq_nil_iff.2 fun e inside => (quiet e inside).2.1
  · exact List.filterMap_eq_nil_iff.2 fun e inside => (quiet e inside).1
  · have dropped : report = .dropped := by
      rw [reports, cut, ownCut, List.filterMap_append] at told
      rw [reports] at unreported
      rw [unreported, List.nil_append] at told
      obtain ⟨e, inside, reported⟩ := List.mem_filterMap.1 told
      rcases List.mem_cons.1 inside with rfl | later
      · cases reported
      · exact (quiet e later).2.2 report reported
    rw [dropped]
    rfl
  · have hits : (own run log).filterMap Event.hit? ≠ [] := hitMem.1 (by rw [cut]; simp)
    obtain ⟨⟨job, entry, phase⟩, here, told⟩ := sound.told rfl hits
    rw [told.hits] at hits
    rw [reports, told.reports] at unreported
    cases phase with
    | closed report => cases unreported
    | going stage =>
      cases stage with
      | cancelled => exact ⟨_, .drop here⟩
      | _ => exact absurd rfl hits

theorem Sound.outcome {log : List (Event σ)} {a : Arena σ} (sound : a.Sound log) {run : RunId}
    (spared : .cancelled run true ∉ log) {report : Report} (told : report ∈ reports run log) :
    ∃ job input result, .spawned run job input ∈ log ∧
      (job.execute ActivityCall.replay input (legs run log).reduceOption).1 = result ∧
      ∀ text, report.outcome text = result.map fun _ => () := by
  rw [hitMem, Decidable.not_not] at spared
  obtain ⟨⟨job, entry, phase⟩, -, thread⟩ := sound.told rfl (List.ne_nil_of_mem told)
  rw [reports, thread.reports] at told
  rw [thread.hits] at spared
  obtain ⟨input, spawned, way⟩ := thread.way
  cases phase with
  | going stage => cases told
  | closed given =>
    cases List.mem_singleton.1 told
    cases report with
    | silent => exact way.elim
    | dropped => cases spared
    | settled outcome =>
      obtain ⟨result, gone, rfl⟩ := way
      have made : .spawned run job input ∈ log := by
        rw [spawnedMem, spawned]
        exact List.mem_singleton_self _
      exact ⟨job, input, result, made, gone.outcome, fun text => rfl⟩

theorem Sound.goesOn {log : List (Event σ)} {a : Arena σ} (sound : a.Sound log) {run : RunId}
    (opened : .opened run ∈ log) (unended : Unended run log) :
    (∃ ask b, Step a (.went run ask) b) ∨ ∃ ask outcome b, Step a (.ended run ask outcome) b := by
  obtain ⟨job, phase, here, told⟩ := sound.opened opened
  have active := (sound.table run).1 ((sound.unended run).2 unended)
  rw [here] at active
  cases phase with
  | closed report => simp [Thread.active, Phase.active] at active
  | going stage =>
    obtain ⟨leg, goes⟩ : ∃ leg, job.leg a.engine.activities a.services stage = some leg := by
      cases stage with
      | cancelled => simp [Thread.active, Phase.active] at active
      | _ => exact ⟨_, rfl⟩
    cases burst : leg.burst with
    | finished outcome => exact .inr ⟨_, _, _, .finish here goes burst⟩
    | paused wait paused => exact .inl ⟨_, _, .go here goes burst⟩

theorem Course.lifeCycle {start a : Arena σ} {log : List (Event σ)} (idle : start.Idle)
    (course : Course start log a) : LifeCycle log a := by
  have sound := course.sound idle
  refine ⟨sound.unended, fun run opened => ?_, sound.count,
    fun before run hit after cut => course.answers idle cut, fun before run after cut => course.hit idle cut,
    fun run => ?_, fun run spared report told => sound.outcome spared told,
    fun run opened unended => sound.goesOn opened unended, fun run job input spawned => ?_⟩
  · obtain ⟨job, phase, here, told⟩ := sound.opened opened
    rw [trackedMem, told.entries]
    simp [Entry.steps]
  · rcases List.eq_nil_or_concat (reports run log) with none | ⟨before, last, some⟩
    · simp [none]
    · obtain ⟨t, -, told⟩ := sound.told rfl (show reports run log ≠ [] by simp [some])
      rw [reports, told.reports]
      cases t.phase <;> simp [Phase.reports]
  · rw [spawnedMem] at spawned
    obtain ⟨t, -, told⟩ := sound.told rfl (List.ne_nil_of_mem spawned)
    obtain ⟨given, started, way⟩ := told.way
    rw [started, List.mem_singleton] at spawned
    cases spawned
    exact Life.wayBounded way

end Arena
end Orchestration
