import Orchestration.Proofs.Engine.Independent
import Orchestration.Proofs.Host.Courses

/-! Runs on the engines of a host. As long as nothing is registered with an engine, a host takes the
runs of that engine through an undisturbed course, and they do not touch one another. -/
namespace Orchestration

variable {σ : Type}

namespace Arena

theorem Undisturbed.steps {start a b : Arena σ} {log more : List (Event σ)}
    (undisturbed : Undisturbed start log a) (steps : Steps a more b) : Undisturbed start (log ++ more) b := by
  induction steps generalizing log with
  | here =>
    rw [List.append_nil]
    exact undisturbed
  | cons step more ih =>
    have on := ih (undisturbed.step step)
    rw [List.append_assoc] at on
    exact on

end Arena

namespace Host

structure QuietMove (runText : RunId → String) (n : Nat) (h k : Host σ) : Prop where
  move : Move runText h k
  procedures : (k.engine n).procedures = (h.engine n).procedures
  activities : (k.engine n).activities = (h.engine n).activities

def QuietMoves (runText : RunId → String) (n : Nat) : Host σ → Host σ → Prop :=
  Relation.ReflTransGen (QuietMove runText n)

variable {runText : RunId → String}

theorem Moves.numbered {h k : Host σ} (moves : Moves runText h k) (numbered : h.Numbered) : k.Numbered := by
  induction moves with
  | refl => exact numbered
  | tail before move ih => exact move.numbered ih

def arena (h : Host σ) (n : Nat) : Arena σ := ⟨h.engine n, h.services, fun _ => none⟩

theorem Moves.idle {shared : Bool} {outages : SortedMap Outage} {moment : Nat} {services : σ} {h : Host σ}
    (moves : Moves runText (.start shared outages moment services) h) {n : Nat}
    (taskless : ∀ t ∈ h.tasks, t.engine ≠ n) : (h.arena n).Idle := by
  refine ⟨List.eq_nil_iff_forall_not_mem.2 fun run tracked => ?_, fun run => rfl⟩
  obtain ⟨start, log, a, idle, course, shows⟩ := moves.courses n
  have sound := course.sound idle
  obtain ⟨⟨job, entry, stage | report⟩, here, active⟩ :=
    (Option.any_eq_true _ _).1 ((sound.table run).1 (by rw [shows.engine]; exact tracked))
  · obtain rfl : entry = .opened := (shows.known run _ here).2
    exact taskless _ ((shows.going run job stage).1 here) rfl
  · simp [Thread.active, Phase.active] at active

theorem Shows.idle {h : Host σ} {n : Nat} (taskless : ∀ t ∈ h.tasks, t.engine ≠ n) :
    Shows n h (h.arena n) := by
  refine ⟨rfl, rfl, fun run t here => ?_, fun run job stage => ?_, fun run job report here => ?_⟩
  · cases here
  · exact iff_of_false (fun here => by cases here) fun inside => taskless _ inside rfl
  · cases here

theorem QuietMoves.undisturbed {h k : Host σ} {n : Nat} (numbered : h.Numbered) (idle : (h.arena n).Idle)
    (taskless : ∀ t ∈ h.tasks, t.engine ≠ n) (moves : QuietMoves runText n h k) :
    ∃ log a, Arena.Undisturbed (h.arena n) log a ∧ Shows n k a := by
  have both : k.Numbered ∧ ∃ log a, Arena.Undisturbed (h.arena n) log a ∧ Shows n k a := by
    induction moves with
    | refl => exact ⟨numbered, [], h.arena n, .start, .idle taskless⟩
    | tail before quiet ih =>
      obtain ⟨numbered, log, a, undisturbed, shows⟩ := ih
      refine ⟨quiet.move.numbered numbered, ?_⟩
      have sound := undisturbed.course.sound idle
      obtain ⟨more, b, steps, shown⟩ | ⟨b, aside, shown⟩ := shows.move sound numbered quiet.move
      · exact ⟨_, b, undisturbed.steps steps, shown⟩
      · refine ⟨log, b, undisturbed.aside aside ?_ ?_, shown⟩
        · rw [shown.engine, shows.engine, quiet.procedures]
        · rw [shown.engine, shows.engine, quiet.activities]
  exact both.2

/-- Whatever else is started on an engine, and in whatever order all of it takes its steps, a run that
is not cancelled asks for what it asks for alone, and reports what it reports alone. So do the
runs of a host, from when their engine has no task left, for as long as nothing is registered. -/
theorem runsIndependent (runText : RunId → String) :
    (∀ (start a : Arena σ) (log : List (Event σ)), start.Idle → AllSteady start.engine.activities →
      Arena.Undisturbed start log a → ∀ run job input, .spawned run job input ∈ log →
        .cancelled run true ∉ log →
          ∃ calls outcome, Arena.Independent start log a run job input calls outcome) ∧
    ∀ (shared : Bool) (outages : SortedMap Outage) (moment : Nat) (services : σ) (h k : Host σ) (n : Nat),
      Moves runText (.start shared outages moment services) h → (∀ t ∈ h.tasks, t.engine ≠ n) →
      QuietMoves runText n h k →
        (h.arena n).Idle ∧ ∃ log a, Arena.Undisturbed (h.arena n) log a ∧ Shows n k a := by
  constructor
  · intro start a log idle steady undisturbed run job input spawned spared
    exact undisturbed.independent idle steady spawned spared
  · intro shared outages moment services h k n moves taskless quiet
    have numbered := moves.numbered (.start shared outages moment services)
    have idle := moves.idle taskless
    exact ⟨idle, quiet.undisturbed numbered idle taskless⟩

def counting : Integration Nat :=
  ⟨"shell", ["run"], fun _ input n =>
    (⟨⟨5⟩, if input.entries.isEmpty then .error (.engine "nothing to do") else .ok input⟩, n + 1)⟩

def counted (name : String) (params : Option Payload) : CompiledJob Nat :=
  ⟨name, "", [⟨⟨"", "s", "shell:run", none, params⟩, ⟨"shell", "run"⟩, ⟨2, ⟨60⟩, none⟩⟩],
    .ofIntegrations [counting]⟩

def failing : CompiledJob Nat := counted "check" none

def passing : CompiledJob Nat := counted "build" (some (.ofList [("text", .str "done")]))

def equip (e : LocalEngine Nat) : LocalEngine Nat :=
  ((e.registerProcedure "check" failing).registerProcedure "build" passing).registerActivity "shell:run"
    ⟨⟨"shell", "run"⟩, counting⟩

theorem equippedSteady : AllSteady (equip .empty).activities := by
  intro name handler served
  have told := SortedMap.getInsert .empty "shell:run" name
    (⟨⟨"shell", "run"⟩, counting⟩ : ActionHandler Nat)
  rw [show (equip .empty).activities.get? name = _ from told] at served
  split at served
  · cases served
    exact fun input s t => rfl
  · cases served

theorem runsIndependentRaced :
    let h := (Host.start true .empty 0 0).changeEngine 0 equip
    let begun := ((h.startRun (fun run => toString run.number) 0 "check" "default" .null).2.startRun
      (fun run => toString run.number) 0 "build" "default" .null).2
    (∃ (start a : Arena Nat) (log : List (Event Nat)) (outcome : Except Error Unit),
      start.Idle ∧ AllSteady start.engine.activities ∧ Arena.Undisturbed start log a ∧
      .spawned ⟨0⟩ failing .null ∈ log ∧ .cancelled ⟨0⟩ true ∉ log ∧ .cancelled ⟨1⟩ true ∈ log ∧
      a.services = 3 ∧ (Arena.legs ⟨0⟩ log).length = 3 ∧ Arena.reports ⟨0⟩ log = [.settled outcome] ∧
      Arena.Alone start failing .null (Arena.legs ⟨0⟩ log) outcome) ∧
      ∃ log a, Arena.Undisturbed (h.arena 0) log a ∧ Shows 0 (begun.cancel ⟨1⟩).2 a := by
  intro h begun
  obtain ⟨independent, hosts⟩ := @runsIndependent Nat fun run => toString run.number
  constructor
  · let start : Arena Nat := ⟨equip .empty, 0, fun _ => none⟩
    have first := Arena.Undisturbed.start.step (@Arena.Step.spawn _ start "check" failing rfl ⟨0⟩ rfl .null)
    have second := first.step (@Arena.Step.spawn _ _ "build" passing rfl ⟨1⟩ rfl .null)
    have tracked := second.step (@Arena.Step.track _ _ ⟨0⟩ _ _ rfl)
    have both := tracked.step (@Arena.Step.track _ _ ⟨1⟩ _ _ rfl)
    have other := both.step (@Arena.Step.gate _ _ ⟨1⟩ _ _ rfl)
    have opened := other.step (@Arena.Step.gate _ _ ⟨0⟩ _ _ rfl)
    have failed := opened.step (@Arena.Step.go _ _ ⟨0⟩ _ _ _ _ _ rfl rfl rfl)
    have between := failed.step (@Arena.Step.go _ _ ⟨1⟩ _ _ _ _ _ rfl rfl rfl)
    have again := between.step (@Arena.Step.go _ _ ⟨0⟩ _ _ _ _ _ rfl rfl rfl)
    have hit : start.Undisturbed (_ ++ [.cancelled ⟨1⟩ true]) _ := again.step (.cancel ⟨1⟩)
    have course := hit.step (@Arena.Step.finish _ _ ⟨0⟩ _ _ _ _ rfl rfl rfl)
    have idle : start.Idle := ⟨rfl, fun run => rfl⟩
    obtain ⟨calls, outcome, alike⟩ :=
      independent start _ _ idle equippedSteady course ⟨0⟩ failing .null (by simp) (by simp)
    have told := alike.reported _ (List.mem_singleton_self _)
    have alone := (alike.alone 0 _ _).2 ⟨told.2, Report.settled.inj told.1⟩
    exact ⟨start, _, _, _, idle, equippedSteady, course, by simp, by simp, by simp, rfl, rfl, rfl, alone⟩
  · have equipped : Moves (fun run => toString run.number) (.start true .empty 0 0) h :=
      (Moves.one (.registerProcedure 0 "check" failing)).trans
        ((Moves.one (.registerProcedure 0 "build" passing)).trans
          (.one (.registerActivity 0 "shell:run" ⟨⟨"shell", "run"⟩, counting⟩)))
    have starts : QuietMoves (fun run => toString run.number) 0 h begun :=
      .head ⟨.startRun 0 "check" "default" .null, rfl, rfl⟩
        (.single ⟨.startRun 0 "build" "default" .null, rfl, rfl⟩)
    have quiet := starts.tail ⟨.cancel ⟨1⟩, rfl, rfl⟩
    exact (hosts true .empty 0 0 h _ 0 equipped (fun t inside => by cases inside) quiet).2

end Host
end Orchestration
