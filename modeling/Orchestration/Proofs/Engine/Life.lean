import Mathlib.Data.List.Induction
import Orchestration.Host.Task
import Orchestration.Proofs.Run.Replay

/-! The life of one run on an engine. Whoever starts the run makes its task, tracks it, and opens the
gate the task waits at; the task goes on from one await to the next until it ends and
reports; and anyone may cancel the run at any time, which drops the task instead. -/
namespace Orchestration

variable {σ : Type}

inductive Entry where
  | spawned
  | tracked
  | opened
  deriving DecidableEq

inductive Phase (σ : Type) where
  | going (stage : RunStage σ)
  | closed (report : Report)

structure Thread (σ : Type) where
  job : CompiledJob σ
  entry : Entry
  phase : Phase σ

inductive Event (σ : Type) where
  | spawned (run : RunId) (job : CompiledJob σ) (input : Json)
  | tracked (run : RunId)
  | opened (run : RunId)
  | went (run : RunId) (ask : Option Ask)
  | ended (run : RunId) (ask : Option Ask) (outcome : Except Error Unit)
  | cancelled (run : RunId) (hit : Bool)
  | dropped (run : RunId)

namespace Event

def run : Event σ → RunId
  | spawned run _ _ => run
  | tracked run => run
  | opened run => run
  | went run _ => run
  | ended run _ _ => run
  | cancelled run _ => run
  | dropped run => run

def entry? : Event σ → Option Entry
  | spawned .. => some .spawned
  | tracked _ => some .tracked
  | opened _ => some .opened
  | _ => none

def spawn? : Event σ → Option (CompiledJob σ × Json)
  | spawned _ job input => some (job, input)
  | _ => none

def leg? : Event σ → Option (Option Ask)
  | went _ ask => some ask
  | ended _ ask _ => some ask
  | _ => none

def hit? : Event σ → Option Unit
  | cancelled _ true => some ()
  | _ => none

def report? : Event σ → Option Report
  | ended _ _ outcome => some (.settled outcome)
  | dropped _ => some .dropped
  | _ => none

end Event

def Entry.steps : Entry → List Entry
  | spawned => [spawned]
  | tracked => [spawned, tracked]
  | opened => [spawned, tracked, opened]

namespace Phase

def active : Phase σ → Bool
  | going .cancelled => false
  | going _ => true
  | closed _ => false

def hits : Phase σ → List Unit
  | going .cancelled => [()]
  | closed .dropped => [()]
  | _ => []

def reports : Phase σ → List Report
  | going _ => []
  | closed report => [report]

end Phase

def Thread.active (t : Thread σ) : Bool := t.entry != .spawned && t.phase.active

def CompiledJob.leg (j : CompiledJob σ) (activities : SortedMap (ActionHandler σ)) (s : σ) :
    RunStage σ → Option (Leg σ)
  | .fresh input => some (j.setOut activities input s)
  | .paused run => some (j.goOn activities run s)
  | .cancelled => none

/-- All that happens to one run, in order, and the task that it leaves. -/
inductive Life (run : RunId) : List (Event σ) → Option (Thread σ) → Prop where
  | unknown : Life run [] none
  | spawned {log job input} (before : Life run log none) :
      Life run (log ++ [.spawned run job input]) (some ⟨job, .spawned, .going (.fresh input)⟩)
  | tracked {log job phase} (before : Life run log (some ⟨job, .spawned, phase⟩)) :
      Life run (log ++ [.tracked run]) (some ⟨job, .tracked, phase⟩)
  | opened {log job phase} (before : Life run log (some ⟨job, .tracked, phase⟩)) :
      Life run (log ++ [.opened run]) (some ⟨job, .opened, phase⟩)
  | went {log job stage activities s leg wait paused}
      (before : Life run log (some ⟨job, .opened, .going stage⟩))
      (goes : job.leg activities s stage = some leg) (pauses : leg.burst = .paused wait paused) :
      Life run (log ++ [.went run leg.ask]) (some ⟨job, .opened, .going (.paused paused)⟩)
  | ended {log job stage activities s leg outcome}
      (before : Life run log (some ⟨job, .opened, .going stage⟩))
      (goes : job.leg activities s stage = some leg) (ends : leg.burst = .finished outcome) :
      Life run (log ++ [.ended run leg.ask (outcome.map fun _ => ())])
        (some ⟨job, .opened, .closed (.settled (outcome.map fun _ => ()))⟩)
  | cancelled {log job entry stage} (before : Life run log (some ⟨job, entry, .going stage⟩))
      (active : Thread.active ⟨job, entry, .going stage⟩ = true) :
      Life run (log ++ [.cancelled run true]) (some ⟨job, entry, .going .cancelled⟩)
  | missed {log t} (before : Life run log t) (absent : t.any Thread.active = false) :
      Life run (log ++ [.cancelled run false]) t
  | dropped {log job entry} (before : Life run log (some ⟨job, entry, .going .cancelled⟩)) :
      Life run (log ++ [.dropped run]) (some ⟨job, entry, .closed .dropped⟩)

def Phase.Way (job : CompiledJob σ) (input : Json) (legs : List (Option Ask)) : Phase σ → Prop
  | .going (.fresh given) => given = input ∧ legs = []
  | .going (.paused run) => ∃ wait, job.Gone input legs (.paused wait run)
  | .going .cancelled => legs.length ≤ waitsOf job.steps + 1
  | .closed .silent => False
  | .closed .dropped => legs.length ≤ waitsOf job.steps + 1
  | .closed (.settled outcome) =>
    ∃ context, job.Gone input legs (.finished context) ∧ outcome = context.map fun _ => ()

structure Thread.Told (log : List (Event σ)) (t : Thread σ) : Prop where
  entries : log.filterMap Event.entry? = t.entry.steps
  hits : log.filterMap Event.hit? = t.phase.hits
  reports : log.filterMap Event.report? = t.phase.reports
  way : ∃ input, log.filterMap Event.spawn? = [(t.job, input)] ∧
    t.phase.Way t.job input (log.filterMap Event.leg?)

namespace Life
variable {run : RunId} {log : List (Event σ)} {t : Option (Thread σ)}

theorem silent {α : Type} {read : Event σ → Option α} (blind : read (.cancelled run false) = none)
    (life : Life run log none) : log.filterMap read = [] := by
  generalize absent : (none : Option (Thread σ)) = t at life
  induction life with
  | unknown => rfl
  | missed before _ ih => simp [ih absent, blind]
  | _ => cases absent

theorem spawnedActive (life : Life run log t) :
    ∀ job phase, t = some ⟨job, .spawned, phase⟩ → phase.active = true := by
  -- A task that is not tracked yet waits at its gate, where nothing can hit it.
  induction life with
  | spawned before ih =>
    rintro job phase ⟨⟩
    rfl
  | cancelled before active ih =>
    rintro job phase ⟨⟩
    cases active
  | missed before absent ih => exact ih
  | dropped before ih =>
    rintro job phase ⟨⟩
    cases ih _ _ rfl
  | _ =>
    rintro job phase ⟨⟩

theorem goingUnhit {stage : RunStage σ} (uncancelled : stage ≠ .cancelled) :
    (Phase.going stage).hits = [] := by
  cases stage with
  | cancelled => exact absurd rfl uncancelled
  | _ => rfl

theorem legUnhit {job : CompiledJob σ} {stage : RunStage σ} {activities : SortedMap (ActionHandler σ)}
    {s : σ} {leg : Leg σ} (goes : job.leg activities s stage = some leg) : (Phase.going stage).hits = [] :=
  goingUnhit fun same => by rw [same] at goes; cases goes

theorem activeUnhit {job : CompiledJob σ} {entry : Entry} {stage : RunStage σ}
    (active : Thread.active ⟨job, entry, .going stage⟩ = true) : (Phase.going stage).hits = [] :=
  goingUnhit fun same => by simp [same, Thread.active, Phase.active] at active

theorem legGone {job : CompiledJob σ} {input : Json} {legs : List (Option Ask)} {stage : RunStage σ}
    {activities : SortedMap (ActionHandler σ)} {s : σ} {leg : Leg σ}
    (way : (Phase.going stage).Way job input legs) (goes : job.leg activities s stage = some leg) :
    job.Gone input (legs ++ [leg.ask]) leg.burst := by
  cases stage with
  | fresh given =>
    obtain ⟨rfl, rfl⟩ := way
    cases goes
    exact .setOut activities s
  | paused paused =>
    obtain ⟨wait, gone⟩ := way
    cases goes
    exact gone.goOn activities s
  | cancelled => cases goes

theorem wayBounded {job : CompiledJob σ} {input : Json} {legs : List (Option Ask)} {phase : Phase σ}
    (way : phase.Way job input legs) : legs.length ≤ waitsOf job.steps + 1 := by
  cases phase with
  | going stage =>
    cases stage with
    | fresh given => simp [way.2]
    | paused paused =>
      obtain ⟨wait, gone⟩ := way
      exact Nat.le_trans (Nat.le_add_right ..) gone.bounded
    | cancelled => exact way
  | closed report =>
    cases report with
    | silent => exact way.elim
    | dropped => exact way
    | settled outcome =>
      obtain ⟨context, gone, -⟩ := way
      exact Nat.le_trans (Nat.le_add_right ..) gone.bounded

theorem readSnoc {α : Type} (read : Event σ → Option α) (log : List (Event σ)) (e : Event σ) :
    (log ++ [e]).filterMap read = log.filterMap read ++ (read e).toList := by
  rw [List.filterMap_append, List.filterMap_cons, List.filterMap_nil]
  cases read e <;> rfl

theorem legless {e : Event σ} (still : e.leg? = none) (legs : List (Option Ask)) :
    legs ++ e.leg?.toList = legs := by
  rw [still]
  exact List.append_nil legs

theorem toldNext {t u : Thread σ} {e : Event σ} (told : t.Told log)
    (entries : t.entry.steps ++ e.entry?.toList = u.entry.steps)
    (hits : t.phase.hits ++ e.hit?.toList = u.phase.hits)
    (reports : t.phase.reports ++ e.report?.toList = u.phase.reports) (job : u.job = t.job)
    (spawn : e.spawn? = none)
    (way : ∀ input legs, t.phase.Way t.job input legs → u.phase.Way t.job input (legs ++ e.leg?.toList)) :
    u.Told (log ++ [e]) := by
  obtain ⟨input, spawned, went⟩ := told.way
  refine ⟨?_, ?_, ?_, input, ?_, ?_⟩
  · rw [readSnoc, told.entries, entries]
  · rw [readSnoc, told.hits, hits]
  · rw [readSnoc, told.reports, reports]
  · rw [readSnoc, spawned, spawn, job]
    rfl
  · rw [readSnoc, job]
    exact way input _ went

theorem told (life : Life run log t) : ∀ th, t = some th → th.Told log := by
  induction life with
  | unknown => exact fun th none => nomatch none
  | @spawned log job input before ih =>
    rintro _ ⟨⟩
    have first {α : Type} (read : Event σ → Option α) (blind : read (.cancelled run false) = none) :
        (log ++ [Event.spawned run job input]).filterMap read = (read (.spawned run job input)).toList := by
      rw [readSnoc, before.silent blind, List.nil_append]
    refine ⟨first _ rfl, first _ rfl, first _ rfl, input, first _ rfl, ?_⟩
    rw [first _ rfl]
    exact ⟨rfl, rfl⟩
  | tracked before ih =>
    rintro _ ⟨⟩
    refine toldNext (ih _ rfl) rfl (List.append_nil _) (List.append_nil _) rfl rfl fun input legs way => ?_
    rwa [legless rfl]
  | opened before ih =>
    rintro _ ⟨⟩
    refine toldNext (ih _ rfl) rfl (List.append_nil _) (List.append_nil _) rfl rfl fun input legs way => ?_
    rwa [legless rfl]
  | @went log job stage activities s leg wait paused before goes pauses ih =>
    rintro _ ⟨⟩
    refine toldNext (ih _ rfl) rfl (by rw [legUnhit goes]; rfl) rfl rfl rfl fun input legs way => ?_
    have gone := legGone way goes
    rw [pauses] at gone
    exact ⟨wait, gone⟩
  | @ended log job stage activities s leg outcome before goes ends ih =>
    rintro _ ⟨⟩
    refine toldNext (ih _ rfl) rfl (by rw [legUnhit goes]; rfl) rfl rfl rfl fun input legs way => ?_
    have gone := legGone way goes
    rw [ends] at gone
    exact ⟨outcome, gone, rfl⟩
  | @cancelled log job entry stage before active ih =>
    rintro _ ⟨⟩
    refine toldNext (ih _ rfl) (List.append_nil _) (by rw [activeUnhit active]; rfl) rfl rfl rfl
      fun input legs way => ?_
    rw [legless rfl]
    exact wayBounded way
  | missed before absent ih =>
    rintro th same
    refine toldNext (ih th same) (List.append_nil _) (List.append_nil _) (List.append_nil _) rfl rfl
      fun input legs way => ?_
    rwa [legless rfl]
  | dropped before ih =>
    rintro _ ⟨⟩
    refine toldNext (ih _ rfl) (List.append_nil _) rfl rfl rfl rfl fun input legs way => ?_
    rw [legless rfl]
    exact wayBounded way

theorem snoc {e : Event σ} (life : Life run (log ++ [e]) t) :
    ∃ before, Life run log before ∧ (log.filterMap Event.hit? ≠ [] →
      e.leg? = none ∧ e.hit? = none ∧ ∀ report, e.report? = some report → report = .dropped) := by
  generalize whole : log ++ [e] = all at life
  cases life with
  | unknown => simp at whole
  | spawned before =>
    obtain ⟨rfl, last⟩ := List.append_inj' whole rfl
    exact ⟨_, before, fun hit => absurd (before.silent rfl) hit⟩
  | tracked before =>
    obtain ⟨rfl, last⟩ := List.append_inj' whole rfl
    cases last
    exact ⟨_, before, fun _ => ⟨rfl, rfl, fun report none => nomatch none⟩⟩
  | opened before =>
    obtain ⟨rfl, last⟩ := List.append_inj' whole rfl
    cases last
    exact ⟨_, before, fun _ => ⟨rfl, rfl, fun report none => nomatch none⟩⟩
  | @went _ job stage activities s leg wait paused before goes pauses =>
    obtain ⟨rfl, last⟩ := List.append_inj' whole rfl
    refine ⟨_, before, fun hit => absurd ?_ hit⟩
    rw [(before.told _ rfl).hits]
    exact legUnhit goes
  | ended before goes ends =>
    obtain ⟨rfl, last⟩ := List.append_inj' whole rfl
    refine ⟨_, before, fun hit => absurd ?_ hit⟩
    rw [(before.told _ rfl).hits]
    exact legUnhit goes
  | cancelled before active =>
    obtain ⟨rfl, last⟩ := List.append_inj' whole rfl
    refine ⟨_, before, fun hit => absurd ?_ hit⟩
    rw [(before.told _ rfl).hits]
    exact activeUnhit active
  | missed before absent =>
    obtain ⟨rfl, last⟩ := List.append_inj' whole rfl
    cases last
    exact ⟨_, before, fun _ => ⟨rfl, rfl, fun report none => nomatch none⟩⟩
  | dropped before =>
    obtain ⟨rfl, last⟩ := List.append_inj' whole rfl
    cases last
    exact ⟨_, before, fun _ => ⟨rfl, rfl, fun report same => (Option.some.inj same).symm⟩⟩

theorem afterHit {before after : List (Event σ)}
    (life : Life run (before ++ .cancelled run true :: after) t) :
    ∀ e ∈ after, e.leg? = none ∧ e.hit? = none ∧ ∀ report, e.report? = some report → report = .dropped := by
  induction after using List.reverseRecOn generalizing t with
  | nil => exact fun e none => nomatch none
  | append_singleton after last ih =>
    rw [← List.cons_append, ← List.append_assoc] at life
    obtain ⟨earlier, lived, next⟩ := life.snoc
    intro e inside
    rcases List.mem_append.1 inside with sooner | here
    · exact ih lived e sooner
    · cases List.mem_singleton.1 here
      exact next (by simp [Event.hit?])

theorem activeIff (life : Life run log t) : t.any Thread.active = true ↔
    .tracked ∈ log.filterMap Event.entry? ∧ log.filterMap Event.report? = [] ∧
      log.filterMap Event.hit? = [] := by
  cases t with
  | none =>
    have quiet : log.filterMap Event.entry? = [] := life.silent rfl
    simp [quiet]
  | some th =>
    have told := life.told th rfl
    obtain ⟨job, entry, phase⟩ := th
    have phases : phase.active = true ↔ phase.reports = [] ∧ phase.hits = [] := by
      cases phase with
      | going stage => cases stage <;> simp [Phase.active, Phase.reports, Phase.hits]
      | closed report => simp [Phase.active, Phase.reports]
    rw [told.entries, told.reports, told.hits, ← phases]
    cases entry <;> simp [Thread.active, Entry.steps]

end Life
end Orchestration
