import Orchestration.Proofs.Host.Tasks
import Orchestration.Proofs.Run.Legs

/-! What runs look up on a host. Activities are replaced but never taken away, and a run that is
under way has only steps of its own job before it: once all steps of a job are served on an
engine, no run of it there ever looks up anything in vain. -/
namespace Orchestration

variable {σ : Type}

namespace RunTask

def Asks (t : RunTask σ) (activities : SortedMap (ActionHandler σ)) (s : σ) (asks : List Ask) : Prop :=
  match t.stage with
  | .fresh input =>
    t.job.Rolls activities (t.job.setOut activities input s) asks (t.job.launch activities input s)
  | .paused run =>
    t.job.Rolls activities (t.job.goOn activities run s) asks (t.job.resume activities run s)
  | .cancelled => asks = []

def Among (t : RunTask σ) : Prop :=
  match t.stage with
  | .fresh _ => True
  | .paused run => ∀ s ∈ run.rest, s ∈ t.job.steps
  | .cancelled => True

variable {t : RunTask σ} {activities : SortedMap (ActionHandler σ)}

theorem asksOf (t : RunTask σ) (activities : SortedMap (ActionHandler σ)) (s : σ) :
    ∃ asks, t.Asks activities s asks := by
  obtain ⟨engine, run, job, stage⟩ := t
  cases stage with
  | fresh input => exact CompiledJob.launchRolls input s
  | paused run => exact CompiledJob.goOnRolls run s
  | cancelled => exact ⟨[], rfl⟩

theorem asksFound (among : t.Among) (served : ∀ s ∈ t.job.steps, s.Served t.job activities) {s : σ}
    {asks : List Ask} (asked : t.Asks activities s asks) : ∀ ask ∈ asks, ask.Found := by
  obtain ⟨engine, run, job, stage⟩ := t
  cases stage with
  | fresh input =>
    exact CompiledJob.Rolls.found served asked (CompiledJob.setOutWithin input s)
      (CompiledJob.setOutFound served input s)
  | paused run =>
    have left : ∀ s ∈ run.rest, s.Served job activities := fun s inside => served s (among s inside)
    exact CompiledJob.Rolls.found served asked (CompiledJob.goOnWithin among s)
      (CompiledJob.goOnFound left s)
  | cancelled =>
    cases asked
    exact fun ask none => nomatch none

theorem Among.poll (among : t.Among) {s : σ} {wait : Duration} {later : RunTask σ} {after : σ}
    (polled : t.poll activities s = (.asleep wait later, after)) : later.Among := by
  obtain ⟨engine, run, job, stage⟩ := t
  have kept {burst : Burst σ} (within : burst.Within job.steps)
      (same : RunTask.polled ⟨engine, run, job, stage⟩ burst = .asleep wait later) : later.Among := by
    cases burst with
    | finished outcome => cases same
    | paused wait run =>
      cases same
      exact within
  cases stage with
  | fresh input =>
    obtain ⟨asks, rolls⟩ := @CompiledJob.launchRolls _ job activities input s
    exact kept (rolls.within (CompiledJob.setOutWithin input s)) (congrArg Prod.fst polled)
  | paused run =>
    obtain ⟨asks, rolls⟩ := @CompiledJob.goOnRolls _ job activities run s
    exact kept (rolls.within (CompiledJob.goOnWithin among s)) (congrArg Prod.fst polled)
  | cancelled => cases polled

end RunTask

namespace Host
variable {runText : RunId → String}

def Orderly (h : Host σ) : Prop := ∀ t ∈ h.tasks, t.Among

def Retains (h k : Host σ) : Prop :=
  ∀ n name handler, (h.engine n).activities.get? name = some handler →
    ∃ later, (k.engine n).activities.get? name = some later

theorem Retains.refl (h : Host σ) : Retains h h := fun _ _ handler known => ⟨handler, known⟩

theorem Retains.trans {a b c : Host σ} (first : Retains a b) (second : Retains b c) : Retains a c := by
  intro n name handler known
  obtain ⟨later, still⟩ := first n name handler known
  exact second n name later still

theorem Retains.alike {h k : Host σ} (same : ∀ n, (k.engine n).activities = (h.engine n).activities) :
    Retains h k := by
  intro n name handler known
  rw [same]
  exact ⟨handler, known⟩

theorem Retains.changeEngine (h : Host σ) (number : Nat) (change : LocalEngine σ → LocalEngine σ)
    (kept : ∀ name handler, (h.engine number).activities.get? name = some handler →
      ∃ later, (change (h.engine number)).activities.get? name = some later) :
    Retains h (h.changeEngine number change) := by
  intro n name handler known
  rw [engineChanged]
  split
  · rename_i here
    obtain ⟨rfl, -⟩ := here
    exact kept name handler known
  · exact ⟨handler, known⟩

theorem Retains.settle (h : Host σ) (t : RunTask σ) (polled : Polled σ) : Retains h (h.settle t polled) := by
  cases polled with
  | ended report =>
    exact Retains.changeEngine h t.engine (·.untrack t.run) fun name handler known => ⟨handler, known⟩
  | asleep wait task => exact .alike fun n => rfl

theorem Retains.tried (h : Host σ) (number : Nat) (result : Except Error (LocalEngine σ))
    (kept : ∀ e, result = .ok e → e.activities = (h.engine number).activities) :
    Retains h (h.tryEngine number result).2 := by
  cases result with
  | error e => exact .refl h
  | ok e =>
    refine .changeEngine h number _ fun name handler known => ⟨handler, ?_⟩
    rw [kept e rfl, known]

theorem Move.retains {h k : Host σ} (move : Move runText h k) : Retains h k := by
  cases move with
  | registerProcedure number name job =>
    exact .changeEngine h number _ fun name handler known => ⟨handler, known⟩
  | registerActivity number name handler =>
    refine .changeEngine h number _ fun other before known => ?_
    simp only [LocalEngine.registerActivity, SortedMap.getInsert]
    split
    · exact ⟨handler, rfl⟩
    · exact ⟨before, known⟩
  | startRun number procedure queue input =>
    simp only [Host.startRun]
    split
    · exact .refl h
    · exact Retains.changeEngine h number (·.track _) fun name handler known => ⟨handler, known⟩
  | createSchedule number id cron action =>
    exact .tried h number _ fun e made => (LocalEngine.createEffect made).frame.2.1
  | updateSchedule number id change =>
    exact .tried h number _ fun e made => (LocalEngine.updateEffect made).frame.2.1
  | shutdown number => exact .changeEngine h number _ fun name handler known => ⟨handler, known⟩
  | cron number service => exact .changeEngine h number _ fun name handler known => ⟨handler, known⟩
  | cancel run =>
    by_cases tracked : h.engines.any (·.runs.contains run) = true
    · refine .alike fun n => ?_
      rw [engineCancelled tracked]
      rfl
    · rw [show h.cancel run = (false, h) from if_neg tracked]
      exact .refl h
  | @poll before t after queued =>
    have served (services : σ) : Retains h ((h.queue (before ++ after)).serve services) := .alike fun n => rfl
    exact (served _).trans (.settle _ t _)
  | wake instant => exact .alike fun n => rfl
  | date moment => exact .alike fun n => rfl
  | connect settings => exact .alike fun n => congrArg LocalEngine.activities (connectEngine h settings n)

theorem Orderly.poll {h : Host σ} (orderly : h.Orderly) {before after : List (RunTask σ)}
    {t : RunTask σ} (queued : h.ready = before ++ t :: after) :
    ((h.queue (before ++ after)).poll t).Orderly := by
  have among {u : RunTask σ} (inside : u ∈ t :: (h.queue (before ++ after)).tasks) : u.Among :=
    orderly u ((tasksTaken queued).mem_iff.2 inside)
  rcases answered : t.poll ((h.queue (before ++ after)).engine t.engine).activities
    (h.queue (before ++ after)).services with ⟨report | ⟨wait, later⟩, services⟩
  · rw [pollSettles answered]
    exact fun u inside => among (List.mem_cons_of_mem t inside)
  · rw [pollSettles answered]
    intro u inside
    rw [(tasksAsleep ..).mem_iff, List.mem_cons] at inside
    rcases inside with rfl | other
    · exact (among List.mem_cons_self).poll answered
    · exact among (List.mem_cons_of_mem t other)

theorem Move.orderly {h k : Host σ} (move : Move runText h k) (orderly : h.Orderly) : k.Orderly := by
  cases move.seen with
  | still still =>
    intro t inside
    rw [still.tasks] at inside
    exact orderly t inside
  | enrolled found input =>
    intro t inside
    rw [(tasksEnrolled ..).mem_iff, List.mem_cons] at inside
    rcases inside with rfl | before
    · exact trivial
    · exact orderly t before
  | @cancelled run tracked =>
    intro t inside
    rw [(tasksCancelled tracked).mem_iff] at inside
    obtain ⟨u, there, rfl⟩ := List.mem_map.1 inside
    rw [mark]
    split
    · exact trivial
    · exact orderly u there
  | polled queued => exact orderly.poll queued

theorem Moves.keeps {h k : Host σ} (moves : Moves runText h k) :
    Retains h k ∧ (h.Orderly → k.Orderly) := by
  induction moves with
  | refl => exact ⟨.refl h, id⟩
  | tail before move ih => exact ⟨ih.1.trans move.retains, fun orderly => move.orderly (ih.2 orderly)⟩

end Host
end Orchestration
