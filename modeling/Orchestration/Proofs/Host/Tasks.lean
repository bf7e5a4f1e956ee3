import Orchestration.Proofs.Host.Moves
import Orchestration.Proofs.Host.Procedures

/-! The tasks of a host, those that can go on and those that sleep taken together. A start adds one, a
poll ends one or puts it back, a cancellation marks one, and no other move touches any; so
every run that was ever started has a task or a report, and never both. -/
namespace Orchestration

variable {σ : Type}

theorem RunTask.pollSame {t later : RunTask σ} {activities : SortedMap (ActionHandler σ)} {s after : σ}
    {wait : Duration} (polled : t.poll activities s = (.asleep wait later, after)) :
    later.run = t.run ∧ later.engine = t.engine := by
  have kept {burst : Burst σ} (same : t.polled burst = .asleep wait later) :
      later.run = t.run ∧ later.engine = t.engine := by
    cases burst with
    | finished outcome => cases same
    | paused wait run =>
      cases same
      exact ⟨rfl, rfl⟩
  simp only [poll] at polled
  split at polled
  · exact kept (congrArg Prod.fst polled)
  · exact kept (congrArg Prod.fst polled)
  · cases polled

namespace Host
variable {runText : RunId → String}

def tasks (h : Host σ) : List (RunTask σ) := h.ready ++ h.sleeping.map (·.task)

theorem memTasks {h : Host σ} {t : RunTask σ} :
    t ∈ h.tasks ↔ t ∈ h.ready ∨ ∃ s ∈ h.sleeping, s.task = t := by
  simp [tasks]

def enroll (h : Host σ) (t : RunTask σ) : Host σ :=
  { h.changeEngine t.engine (·.track t.run) with
    started := h.started + 1
    ready := h.ready ++ [t] }

structure Still (h k : Host σ) : Prop where
  tasks : k.tasks = h.tasks
  reports : k.reports = h.reports
  started : k.started = h.started
  runs : ∀ n, (k.engine n).runs = (h.engine n).runs

inductive RunMove (h : Host σ) : Host σ → Prop where
  | still {k} (still : Still h k) : RunMove h k
  | enrolled {number name job} (found : (h.engine number).procedure name = .ok job) (input) :
      RunMove h (h.enroll ⟨number, ⟨h.started⟩, job, .fresh input⟩)
  | cancelled {run} (tracked : h.engines.any (·.runs.contains run) = true) :
      RunMove h (h.cancel run).2
  | polled {before t after} (queued : h.ready = before ++ t :: after) :
      RunMove h ((h.queue (before ++ after)).poll t)

theorem Still.changeEngine (h : Host σ) (number : Nat) (change : LocalEngine σ → LocalEngine σ)
    (same : (change (h.engine number)).runs = (h.engine number).runs) :
    Still h (h.changeEngine number change) := by
  refine ⟨rfl, rfl, rfl, fun n => ?_⟩
  rw [engineChanged]
  split
  · rename_i here
    obtain ⟨rfl, -⟩ := here
    exact same
  · rfl

theorem Still.tried (h : Host σ) (number : Nat) (result : Except Error (LocalEngine σ))
    (same : ∀ e, result = .ok e → e.runs = (h.engine number).runs) :
    Still h (h.tryEngine number result).2 := by
  cases result with
  | error e => exact ⟨rfl, rfl, rfl, fun n => rfl⟩
  | ok e => exact .changeEngine h number _ (same e rfl)

theorem Still.wake (h : Host σ) (instant : Duration) : Still h (h.wake instant) := by
  refine ⟨?_, rfl, rfl, fun n => rfl⟩
  simp only [Host.tasks, Host.wake]
  rw [List.append_assoc, ← List.map_append, List.takeWhile_append_dropWhile]

theorem Still.connect (h : Host σ) (settings : ConnectionSettings) : Still h (h.connect settings).2 := by
  have rest : (h.connect settings).2.tasks = h.tasks ∧ (h.connect settings).2.reports = h.reports ∧
      (h.connect settings).2.started = h.started := by
    simp only [Host.connect]
    split
    · exact ⟨rfl, rfl, rfl⟩
    · exact ⟨rfl, rfl, rfl⟩
    · simp only [accept]
      split <;> exact ⟨rfl, rfl, rfl⟩
  exact ⟨rest.1, rest.2.1, rest.2.2, fun n => congrArg LocalEngine.runs (connectEngine h settings n)⟩

theorem Move.seen {h k : Host σ} (move : Move runText h k) : RunMove h k := by
  cases move with
  | registerProcedure number name job => exact .still (.changeEngine h number _ rfl)
  | registerActivity number name handler => exact .still (.changeEngine h number _ rfl)
  | startRun number procedure queue input =>
    simp only [Host.startRun]
    split
    · exact .still ⟨rfl, rfl, rfl, fun n => rfl⟩
    · rename_i job found
      exact .enrolled found input
  | createSchedule number id cron action =>
    exact .still (.tried h number _ fun e made => (LocalEngine.createEffect made).frame.2.2)
  | updateSchedule number id change =>
    exact .still (.tried h number _ fun e made => (LocalEngine.updateEffect made).frame.2.2)
  | shutdown number => exact .still (.changeEngine h number _ rfl)
  | cron number service => exact .still (.changeEngine h number _ rfl)
  | cancel run =>
    by_cases tracked : h.engines.any (·.runs.contains run) = true
    · exact .cancelled tracked
    · rw [show h.cancel run = (false, h) from if_neg tracked]
      exact .still ⟨rfl, rfl, rfl, fun n => rfl⟩
  | poll queued => exact .polled queued
  | wake instant => exact .still (.wake h instant)
  | date moment => exact .still ⟨rfl, rfl, rfl, fun n => rfl⟩
  | connect settings => exact .still (.connect h settings)

def serve (h : Host σ) (services : σ) : Host σ := { h with services := services }

theorem pollSettles {h : Host σ} {t : RunTask σ} {polled : Polled σ} {services : σ}
    (answered : t.poll (h.engine t.engine).activities h.services = (polled, services)) :
    h.poll t = (h.serve services).settle t polled := by
  simp only [Host.poll, answered]
  rfl

theorem tasksEnrolled (h : Host σ) (t : RunTask σ) : (h.enroll t).tasks.Perm (t :: h.tasks) := by
  simp only [tasks, enroll, changeEngine, List.append_assoc, List.singleton_append]
  exact List.perm_middle

theorem tasksTaken {h : Host σ} {before after : List (RunTask σ)} {t : RunTask σ}
    (queued : h.ready = before ++ t :: after) :
    h.tasks.Perm (t :: (h.queue (before ++ after)).tasks) := by
  simp only [tasks, queue, queued, List.append_assoc, List.cons_append]
  exact List.perm_middle

theorem tasksAsleep (h : Host σ) (t later : RunTask σ) (wait : Duration) :
    (h.settle t (.asleep wait later)).tasks.Perm (later :: h.tasks) := by
  have parts (p : SleepingTask σ → Bool) : h.sleeping.map (·.task) =
      (h.sleeping.takeWhile p).map (·.task) ++ (h.sleeping.dropWhile p).map (·.task) := by
    rw [← List.map_append, List.takeWhile_append_dropWhile]
  simp only [settle, tasks, List.map_append, List.map_cons]
  rw [parts fun s => s.due.nanos ≤ h.clock.nanos + wait.nanos, ← List.append_assoc, ← List.append_assoc]
  exact List.perm_middle

def mark (run : RunId) (t : RunTask σ) : RunTask σ := if t.run = run then t.cancel else t

theorem markRun (run : RunId) (t : RunTask σ) : (mark run t).run = t.run := by
  rw [mark]
  split <;> rfl

theorem memMarked {run : RunId} {tasks : List (RunTask σ)} {u : RunTask σ} :
    u ∈ tasks.map (mark run) ↔ (u.run ≠ run ∧ u ∈ tasks) ∨
      (u.run = run ∧ u.stage = .cancelled ∧ ∃ stage, { u with stage := stage } ∈ tasks) := by
  rw [List.mem_map]
  constructor
  · rintro ⟨t, inside, rfl⟩
    rw [mark]
    split
    · rename_i here
      exact .inr ⟨here, rfl, t.stage, inside⟩
    · rename_i apart
      exact .inl ⟨apart, inside⟩
  · rintro (⟨apart, inside⟩ | ⟨here, cancelled, stage, inside⟩)
    · exact ⟨u, inside, if_neg apart⟩
    · refine ⟨_, inside, (if_pos here).trans ?_⟩
      rw [RunTask.cancel, ← cancelled]

theorem tasksCancelled {h : Host σ} {run : RunId}
    (tracked : h.engines.any (·.runs.contains run) = true) :
    (h.cancel run).2.tasks.Perm (h.tasks.map (mark run)) := by
  have asleep (sleeping : List (SleepingTask σ)) :
      ((sleeping.filter (·.task.run = run)).map (·.task.cancel) ++
        (sleeping.filter (·.task.run ≠ run)).map (·.task)).Perm
          ((sleeping.map (·.task)).map (mark run)) := by
    induction sleeping with
    | nil => exact .nil
    | cons s rest ih =>
      by_cases here : s.task.run = run
      · simpa [here, mark] using ih.cons s.task.cancel
      · simp only [here, mark, decide_false, decide_true, Bool.false_eq_true, not_false_eq_true,
          ne_eq, List.filter_cons, if_true, if_false, List.map_cons]
        exact List.perm_middle.trans (ih.cons s.task)
  simp only [tasks, cancel, if_pos tracked, List.map_append, List.append_assoc]
  exact (asleep h.sleeping).append_left _

theorem cancelRest {h : Host σ} {run : RunId} (tracked : h.engines.any (·.runs.contains run) = true) :
    (h.cancel run).2.reports = h.reports ∧ (h.cancel run).2.started = h.started ∧
      (h.cancel run).2.services = h.services := by
  rw [cancel, if_pos tracked]
  exact ⟨rfl, rfl, rfl⟩

/-- Every run that was ever started has a task or a report, and only one of them. -/
def Numbered (h : Host σ) : Prop :=
  (h.reports.map (·.1) ++ h.tasks.map (·.run)).Perm ((List.range h.started).map RunId.mk)

theorem Numbered.start (shared outages moment) (services : σ) :
    (Host.start shared outages moment services).Numbered :=
  .refl _

theorem Numbered.below {h : Host σ} (numbered : h.Numbered) {t : RunTask σ} (inside : t ∈ h.tasks) :
    t.run.number < h.started := by
  have there := numbered.mem_iff.1 (List.mem_append_right _ (List.mem_map_of_mem inside))
  obtain ⟨number, below, same⟩ := List.mem_map.1 there
  rw [← same]
  exact List.mem_range.1 below

theorem Numbered.apart {h : Host σ} (numbered : h.Numbered) {t : RunTask σ} {others : List (RunTask σ)}
    (tasks : h.tasks.Perm (t :: others)) : h.report? t.run = none ∧ ∀ u ∈ others, u.run ≠ t.run := by
  have numbers : ((List.range h.started).map RunId.mk).Nodup :=
    List.nodup_range.map fun i j same => congrArg RunId.number same
  have distinct := (((tasks.map (·.run)).append_left _).nodup_iff.1 (numbered.nodup_iff.2 numbers))
  obtain ⟨-, runs, disjoint⟩ := List.nodup_append.1 distinct
  refine ⟨?_, fun u inside same => ?_⟩
  · rw [report?, Option.map_eq_none_iff, List.find?_eq_none]
    intro told inside same
    rw [decide_eq_true_eq] at same
    exact disjoint _ (List.mem_map_of_mem inside) _ List.mem_cons_self same
  · exact (List.nodup_cons.1 runs).1 (List.mem_map.2 ⟨u, inside, same⟩)

theorem Numbered.enroll {h : Host σ} (numbered : h.Numbered) {t : RunTask σ} (next : t.run = ⟨h.started⟩) :
    (h.enroll t).Numbered := by
  have tasks := (tasksEnrolled h t).map (·.run)
  have numbers : (List.range (h.started + 1)).map RunId.mk =
      (List.range h.started).map RunId.mk ++ [t.run] := by
    rw [List.range_succ, List.map_append, next]
    rfl
  have grown := (tasks.append_left (h.reports.map (·.1))).trans List.perm_middle
  rw [Numbered, show (h.enroll t).started = h.started + 1 from rfl, numbers]
  exact grown.trans ((numbered.cons t.run).trans (List.perm_append_singleton _ _).symm)

theorem Numbered.cancel {h : Host σ} (numbered : h.Numbered) {run : RunId}
    (tracked : h.engines.any (·.runs.contains run) = true) : (h.cancel run).2.Numbered := by
  obtain ⟨reports, started, -⟩ := cancelRest tracked
  have tasks := (tasksCancelled tracked).map (·.run)
  rw [List.map_map, show RunTask.run ∘ mark run = RunTask.run from funext (markRun run)] at tasks
  rw [Numbered, reports, started]
  exact (tasks.append_left _).trans numbered

theorem Numbered.poll {h : Host σ} (numbered : h.Numbered) {before after : List (RunTask σ)}
    {t : RunTask σ} (queued : h.ready = before ++ t :: after) :
    ((h.queue (before ++ after)).poll t).Numbered := by
  have taken := ((tasksTaken queued).map (·.run)).append_left (h.reports.map (·.1))
  have pending := taken.symm.trans numbered
  rcases answered : t.poll ((h.queue (before ++ after)).engine t.engine).activities
    (h.queue (before ++ after)).services with ⟨report | ⟨wait, later⟩, services⟩
  · rw [pollSettles answered, Numbered, settle, List.map_append, List.append_assoc]
    exact pending
  · rw [pollSettles answered]
    have asleep := ((tasksAsleep (serve (h.queue (before ++ after)) services) t later wait).map
      (·.run)).append_left (h.reports.map (·.1))
    rw [List.map_cons, (RunTask.pollSame answered).1] at asleep
    exact asleep.trans pending

theorem Move.numbered {h k : Host σ} (move : Move runText h k) (numbered : h.Numbered) : k.Numbered := by
  cases move.seen with
  | still still =>
    rw [Numbered, still.reports, still.tasks, still.started]
    exact numbered
  | enrolled found input => exact numbered.enroll rfl
  | cancelled tracked => exact numbered.cancel tracked
  | polled queued => exact numbered.poll queued

end Host
end Orchestration
