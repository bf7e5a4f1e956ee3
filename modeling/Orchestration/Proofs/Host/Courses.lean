import Orchestration.Proofs.Engine.LifeCycle
import Orchestration.Proofs.Host.Tasks

/-! A host takes the runs of each of its engines through a course: it starts a run in one go, lets a
task go as many legs as take no time, and cancels a run in place. What is true of every course
of an engine is true of every host. -/
namespace Orchestration

variable {σ : Type}

theorem RunTask.pollLegs (t : RunTask σ) (activities : SortedMap (ActionHandler σ)) (s : σ) :
    (t.stage = .cancelled ∧ t.poll activities s = (.ended .dropped, s)) ∨
      ∃ leg asks burst after, t.job.leg activities s t.stage = some leg ∧
        t.job.Rolls activities leg asks (burst, after) ∧ t.poll activities s = (t.polled burst, after) := by
  obtain ⟨engine, run, job, stage⟩ := t
  cases stage with
  | fresh input =>
    obtain ⟨asks, rolls⟩ := @CompiledJob.launchRolls _ job activities input s
    exact .inr ⟨_, asks, _, _, rfl, rolls, rfl⟩
  | paused run =>
    obtain ⟨asks, rolls⟩ := @CompiledJob.goOnRolls _ job activities run s
    exact .inr ⟨_, asks, _, _, rfl, rolls, rfl⟩
  | cancelled => exact .inl ⟨rfl, rfl⟩

namespace Arena

def settle (a : Arena σ) (run : RunId) (job : CompiledJob σ) (services : σ) : Burst σ → Arena σ
  | .finished outcome =>
    { a with engine := a.engine.untrack run, services := services }.put run
      ⟨job, .opened, .closed (.settled (outcome.map fun _ => ()))⟩
  | .paused _ paused =>
    { a with services := services }.put run ⟨job, .opened, .going (.paused paused)⟩

theorem settlePut (a : Arena σ) (run : RunId) (t : Thread σ) (between : σ) (job : CompiledJob σ)
    (services : σ) (burst : Burst σ) :
    settle ({ a with services := between }.put run t) run job services burst =
      a.settle run job services burst := by
  cases burst <;> simp only [settle, put, Function.update_idem]

inductive Steps : Arena σ → List (Event σ) → Arena σ → Prop where
  | here {a} : Steps a [] a
  | cons {a e b log c} (step : Step a e b) (more : Steps b log c) : Steps a (e :: log) c

theorem Course.steps {start a b : Arena σ} {log more : List (Event σ)} (course : Course start log a)
    (steps : Steps a more b) : Course start (log ++ more) b := by
  induction steps generalizing log with
  | here =>
    rw [List.append_nil]
    exact course
  | cons step more ih =>
    have on := ih (course.step step)
    rw [List.append_assoc] at on
    exact on

theorem Steps.rolls {a : Arena σ} {run : RunId} {job : CompiledJob σ} {stage : RunStage σ}
    {activities : SortedMap (ActionHandler σ)} {leg : Leg σ} {asks : List Ask} {out : Burst σ × σ}
    (known : a.engine.activities = activities) (here : a.threads run = some ⟨job, .opened, .going stage⟩)
    (goes : job.leg activities a.services stage = some leg) (rolls : job.Rolls activities leg asks out) :
    ∃ more, Steps a more (a.settle run job out.2 out.1) := by
  induction rolls generalizing a stage with
  | @stop leg still =>
    subst known
    cases ends : leg.burst with
    | finished outcome => exact ⟨_, .cons (.finish here goes ends) .here⟩
    | paused wait paused => exact ⟨_, .cons (.go here goes ends) .here⟩
  | @on ask paused s asks out rest ih =>
    subst known
    have gone : Step a (.went run ask) _ := .go here goes rfl
    obtain ⟨more, ended⟩ := @ih ({ a with services := s }.put run _) (.paused paused) rfl (putOwn ..) rfl
    rw [settlePut] at ended
    exact ⟨_, .cons gone ended⟩

end Arena

namespace Host
variable {runText : RunId → String}

/-- What a host has of the runs of one engine: its table, their tasks, and what it tells of those that
are over. -/
structure Shows (n : Nat) (h : Host σ) (a : Arena σ) : Prop where
  engine : a.engine = h.engine n
  services : a.services = h.services
  known : ∀ run t, a.threads run = some t → run.number < h.started ∧ t.entry = .opened
  going : ∀ run job stage, a.threads run = some ⟨job, .opened, .going stage⟩ ↔ ⟨n, run, job, stage⟩ ∈ h.tasks
  closed : ∀ run job report, a.threads run = some ⟨job, .opened, .closed report⟩ → h.report? run = some report

namespace Shows
variable {n : Nat} {h k : Host σ} {a : Arena σ}

theorem aside (shows : Shows n h a) (runs : (k.engine n).runs = (h.engine n).runs)
    (tasks : ∀ u : RunTask σ, u.engine = n → (u ∈ k.tasks ↔ u ∈ h.tasks)) (started : h.started ≤ k.started)
    (reports : ∀ run report, h.report? run = some report → k.report? run = some report) :
    ∃ b, a.Aside b ∧ Shows n k b := by
  refine ⟨⟨k.engine n, k.services, a.threads⟩, ⟨by rw [runs, shows.engine], rfl⟩, rfl, rfl,
    fun run t here => ?_, fun run job stage => ?_, fun run job report here => ?_⟩
  · exact ⟨Nat.lt_of_lt_of_le (shows.known run t here).1 started, (shows.known run t here).2⟩
  · exact (shows.going run job stage).trans (tasks ⟨n, run, job, stage⟩ rfl).symm
  · exact reports run report (shows.closed run job report here)

theorem put (shows : Shows n h a) {run : RunId} {job : CompiledJob σ} {phase : Phase σ}
    {engine : LocalEngine σ} {services : σ} (same : engine = k.engine n) (serves : services = k.services)
    (started : h.started ≤ k.started) (below : run.number < k.started)
    (others : ∀ u : RunTask σ, u.engine = n → u.run ≠ run → (u ∈ k.tasks ↔ u ∈ h.tasks))
    (own : ∀ other stage, ⟨n, run, other, stage⟩ ∈ k.tasks ↔ other = job ∧ phase = .going stage)
    (reports : ∀ other report, h.report? other = some report → k.report? other = some report)
    (told : ∀ report, phase = .closed report → k.report? run = some report) :
    Shows n k (Arena.put ⟨engine, services, a.threads⟩ run ⟨job, .opened, phase⟩) := by
  refine ⟨same, serves, fun other t here => ?_, fun other another stage => ?_,
    fun other another report here => ?_⟩
  · by_cases apart : run = other
    · subst apart
      rw [Arena.putOwn] at here
      cases here
      exact ⟨below, rfl⟩
    · rw [Arena.putOther _ _ apart] at here
      exact ⟨Nat.lt_of_lt_of_le (shows.known other t here).1 started, (shows.known other t here).2⟩
  · by_cases apart : run = other
    · subst apart
      rw [Arena.putOwn, own]
      simp only [Option.some.injEq, Thread.mk.injEq, true_and]
      exact and_congr_left' eq_comm
    · rw [Arena.putOther _ _ apart, others _ rfl (Ne.symm apart)]
      exact shows.going other another stage
  · by_cases apart : run = other
    · subst apart
      rw [Arena.putOwn] at here
      cases here
      exact told report rfl
    · rw [Arena.putOther _ _ apart] at here
      exact reports other report (shows.closed other another report here)

end Shows

theorem reportKept {h k : Host σ} {more : List (RunId × Report)} (told : k.reports = h.reports ++ more)
    (run : RunId) (report : Report) (known : h.report? run = some report) : k.report? run = some report := by
  obtain ⟨entry, found, rfl⟩ := Option.map_eq_some_iff.1 known
  rw [report?, told, List.find?_append, found]
  rfl

theorem foundBelow {h : Host σ} {n : Nat} {name : String} {job : CompiledJob σ}
    (found : (h.engine n).procedure name = .ok job) : n < h.engines.length := by
  refine Nat.lt_of_not_le fun beyond => ?_
  rw [engineBeyond beyond] at found
  cases found

theorem Shows.enrolled {n : Nat} {h : Host σ} {a : Arena σ} (shows : Shows n h a)
    (numbered : h.Numbered) {name : String} {job : CompiledJob σ}
    (found : (h.engine n).procedure name = .ok job) (input : Json) :
    ∃ more b, Arena.Steps a more b ∧ Shows n (h.enroll ⟨n, ⟨h.started⟩, job, .fresh input⟩) b := by
  have new : a.threads ⟨h.started⟩ = none := by
    cases here : a.threads ⟨h.started⟩ with
    | none => rfl
    | some t => exact absurd (shows.known _ t here).1 (Nat.lt_irrefl _)
  have engine : (h.enroll ⟨n, ⟨h.started⟩, job, .fresh input⟩).engine n = (h.engine n).track ⟨h.started⟩ :=
    (engineChanged h n n _).trans (if_pos ⟨rfl, foundBelow found⟩)
  have tasks (u : RunTask σ) := (tasksEnrolled h ⟨n, ⟨h.started⟩, job, .fresh input⟩).mem_iff (a := u)
  rw [← shows.engine] at found
  have opened := Arena.Steps.cons (.spawn found new input)
    (.cons (.track (Arena.putOwn ..)) (.cons (.gate (Arena.putOwn ..)) .here))
  simp only [Arena.put, Function.update_idem] at opened
  refine ⟨_, _, opened, shows.put ?_ shows.services (Nat.le_succ _) (Nat.lt_succ_self _)
    (fun u there apart => ?_) (fun other stage => ?_) (reportKept (List.append_nil _).symm)
    (fun report none => by cases none)⟩
  · rw [shows.engine]
    exact engine.symm
  · rw [tasks, List.mem_cons, or_iff_right]
    intro same
    exact apart (congrArg RunTask.run same)
  · rw [tasks, List.mem_cons, or_iff_left fun old => Nat.lt_irrefl _ (numbered.below old)]
    simp only [RunTask.mk.injEq, true_and, Phase.going.injEq]
    exact and_congr_right' eq_comm

theorem untrackAbsent {e : LocalEngine σ} {run : RunId} (absent : run ∉ e.runs) : e.untrack run = e := by
  have same : e.runs.filter (· ≠ run) = e.runs :=
    List.filter_eq_self.2 fun other inside => by
      rw [decide_eq_true_eq]
      rintro rfl
      exact absent inside
  rw [LocalEngine.untrack, same]

theorem engineUntracked (h : Host σ) (t : RunTask σ) (report : Report) :
    (h.settle t (.ended report)).engine t.engine = (h.engine t.engine).untrack t.run := by
  refine (engineChanged h t.engine t.engine _).trans ?_
  split
  · rfl
  · rename_i beyond
    rw [engineBeyond (Nat.le_of_not_lt fun inside => beyond ⟨rfl, inside⟩)]
    rfl

section
variable {h : Host σ} {a : Arena σ} {before after : List (RunTask σ)} {t : RunTask σ}

theorem Shows.thread (shows : Shows t.engine h a) (queued : h.ready = before ++ t :: after) :
    a.threads t.run = some ⟨t.job, .opened, .going t.stage⟩ :=
  (shows.going ..).2 ((tasksTaken queued).mem_iff.2 List.mem_cons_self)

theorem tasksOthers (queued : h.ready = before ++ t :: after) {u : RunTask σ} (apart : u.run ≠ t.run) :
    u ∈ (h.queue (before ++ after)).tasks ↔ u ∈ h.tasks := by
  rw [(tasksTaken queued).mem_iff, List.mem_cons, or_iff_right]
  rintro rfl
  exact apart rfl

theorem Shows.ended (shows : Shows t.engine h a) (numbered : h.Numbered)
    (queued : h.ready = before ++ t :: after) (report : Report) {engine : LocalEngine σ}
    (same : engine = a.engine.untrack t.run) (services : σ) :
    Shows t.engine (((h.queue (before ++ after)).serve services).settle t (.ended report))
      (Arena.put ⟨engine, services, a.threads⟩ t.run ⟨t.job, .opened, .closed report⟩) := by
  obtain ⟨unreported, apart⟩ := numbered.apart (tasksTaken queued)
  have below := (shows.known _ _ (shows.thread queued)).1
  refine shows.put ?_ rfl (Nat.le_refl _) below (fun u there other => tasksOthers queued other)
    (fun other stage => ?_) (reportKept rfl) ?_
  · rw [engineUntracked, same, shows.engine]
    rfl
  · exact iff_of_false (fun inside => apart _ inside rfl) fun both => nomatch both.2
  · rintro _ ⟨⟩
    rw [report?, Option.map_eq_none_iff] at unreported
    have first : ((h.reports ++ [(t.run, report)]).find? (·.1 = t.run)).map (·.2) = some report := by
      rw [List.find?_append, unreported]
      simp
    exact first

theorem Shows.asleep (shows : Shows t.engine h a) (numbered : h.Numbered)
    (queued : h.ready = before ++ t :: after) (wait : Duration) (paused : PausedRun σ) (services : σ) :
    Shows t.engine (((h.queue (before ++ after)).serve services).settle t
        (.asleep wait { t with stage := .paused paused }))
      (Arena.put ⟨a.engine, services, a.threads⟩ t.run ⟨t.job, .opened, .going (.paused paused)⟩) := by
  have apart := (numbered.apart (tasksTaken queued)).2
  have below := (shows.known _ _ (shows.thread queued)).1
  have tasks (u : RunTask σ) := (tasksAsleep ((h.queue (before ++ after)).serve services) t
    { t with stage := .paused paused } wait).mem_iff (a := u)
  refine shows.put shows.engine rfl (Nat.le_refl _) below (fun u there other => ?_)
    (fun other stage => ?_) (reportKept (List.append_nil _).symm) (fun report none => by cases none)
  · rw [tasks, List.mem_cons, or_iff_right]
    · exact tasksOthers queued other
    · rintro rfl
      exact other rfl
  · rw [tasks, List.mem_cons, or_iff_left]
    · simp only [RunTask.mk.injEq, true_and, Phase.going.injEq]
      exact and_congr_right' eq_comm
    · exact fun inside => apart _ inside rfl

theorem Shows.polled {log : List (Event σ)} (sound : a.Sound log) (shows : Shows t.engine h a)
    (numbered : h.Numbered) (queued : h.ready = before ++ t :: after) :
    ∃ more b, Arena.Steps a more b ∧ Shows t.engine ((h.queue (before ++ after)).poll t) b := by
  have thread := shows.thread queued
  obtain ⟨cancelled, polled⟩ | ⟨leg, asks, burst, services, goes, rolls, polled⟩ :=
    t.pollLegs ((h.queue (before ++ after)).engine t.engine).activities (h.queue (before ++ after)).services
  · rw [cancelled] at thread
    have absent : t.run ∉ a.engine.runs := by
      rw [sound.table, thread]
      exact Bool.false_ne_true
    rw [pollSettles polled, show (h.queue (before ++ after)).services = a.services from shows.services.symm]
    exact ⟨_, _, .cons (.drop thread) .here,
      shows.ended numbered queued .dropped (untrackAbsent absent).symm a.services⟩
  · have known : a.engine.activities = (h.engine t.engine).activities := by rw [shows.engine]
    obtain ⟨more, ended⟩ := Arena.Steps.rolls known thread (shows.services ▸ goes) rolls
    rw [pollSettles polled]
    refine ⟨more, _, ended, ?_⟩
    cases burst with
    | finished outcome => exact shows.ended numbered queued _ rfl services
    | paused wait paused => exact shows.asleep numbered queued wait paused services

end

section
variable {n : Nat} {h : Host σ} {a : Arena σ} {log : List (Event σ)} {run : RunId}

theorem Shows.hit (sound : a.Sound log) (shows : Shows n h a)
    (tracked : h.engines.any (·.runs.contains run) = true) (here : run ∈ a.engine.runs) :
    ∃ more b, Arena.Steps a more b ∧ Shows n (h.cancel run).2 b := by
  obtain ⟨reports, started, services⟩ := cancelRest tracked
  have tasks (u : RunTask σ) := ((tasksCancelled tracked).mem_iff (a := u)).trans memMarked
  obtain ⟨⟨job, entry, stage | report⟩, thread, going⟩ :=
    (Option.any_eq_true _ _).1 ((sound.table run).1 here)
  · obtain rfl : entry = .opened := (shows.known run _ thread).2
    have step := Arena.Step.cancel (a := a) run
    rw [Arena.cancelHit here thread] at step
    refine ⟨_, _, .cons step .here, shows.put ?_ (shows.services.trans services.symm) (Nat.le_of_eq started.symm)
      ?_ (fun u there other => ?_) (fun other later => ?_)
      (reportKept (reports.trans (List.append_nil _).symm)) (fun report none => by cases none)⟩
    · rw [engineCancelled tracked, shows.engine]
    · rw [started]
      exact (shows.known run _ thread).1
    · simp [tasks, other]
    · simp only [tasks, ne_eq, not_true_eq_false, false_and, false_or, true_and, ← shows.going, thread,
        Option.some.injEq, Thread.mk.injEq, Phase.going.injEq, exists_and_left, exists_eq', and_true]
      exact and_comm.trans (and_congr eq_comm eq_comm)
  · simp [Thread.active, Phase.active] at going

theorem Shows.idled (sound : a.Sound log) (shows : Shows n h a) (absent : run ∉ a.engine.runs)
    {job : CompiledJob σ} {stage : RunStage σ} (inside : ⟨n, run, job, stage⟩ ∈ h.tasks) :
    stage = .cancelled := by
  rw [sound.table, (shows.going run job stage).2 inside] at absent
  cases stage with
  | cancelled => rfl
  | _ => exact absurd rfl absent

theorem Shows.missed (sound : a.Sound log) (shows : Shows n h a)
    (tracked : h.engines.any (·.runs.contains run) = true) (absent : run ∉ a.engine.runs) :
    ∃ b, a.Aside b ∧ Shows n (h.cancel run).2 b := by
  obtain ⟨reports, started, services⟩ := cancelRest tracked
  have runs : ((h.cancel run).2.engine n).runs = (h.engine n).runs := by
    rw [engineCancelled tracked, ← shows.engine, untrackAbsent absent]
  refine shows.aside runs (fun u there => ?_) (Nat.le_of_eq started.symm)
    (reportKept (reports.trans (List.append_nil _).symm))
  obtain ⟨engine, other, job, stage⟩ := u
  cases there
  rw [(tasksCancelled tracked).mem_iff, memMarked]
  by_cases own : other = run
  · subst own
    simp only [ne_eq, not_true_eq_false, false_and, false_or, true_and]
    constructor
    · rintro ⟨rfl, before, inside⟩
      cases shows.idled sound absent inside
      exact inside
    · intro inside
      exact ⟨shows.idled sound absent inside, _, inside⟩
  · simp [own]

end

theorem Shows.move {n : Nat} {h k : Host σ} {a : Arena σ} {log : List (Event σ)} (sound : a.Sound log)
    (shows : Shows n h a) (numbered : h.Numbered) (move : Move runText h k) :
    (∃ more b, Arena.Steps a more b ∧ Shows n k b) ∨ ∃ b, a.Aside b ∧ Shows n k b := by
  cases move.seen with
  | still still =>
    refine .inr <| shows.aside (still.runs n) (fun u there => by rw [still.tasks])
      (Nat.le_of_eq still.started.symm) (reportKept (still.reports.trans (List.append_nil _).symm))
  | @enrolled number name job found input =>
    by_cases here : number = n
    · subst here
      exact .inl (shows.enrolled numbered found input)
    · refine .inr <| shows.aside ?_ (fun u there => ?_) (Nat.le_succ _)
        (reportKept (List.append_nil _).symm)
      · exact congrArg LocalEngine.runs ((engineChanged h number n _).trans (if_neg fun both => here both.1))
      · rw [(tasksEnrolled ..).mem_iff, List.mem_cons, or_iff_right]
        rintro rfl
        exact here there
  | @cancelled run tracked =>
    by_cases here : run ∈ a.engine.runs
    · exact .inl (shows.hit sound tracked here)
    · exact .inr (shows.missed sound tracked here)
  | @polled before t after queued =>
    by_cases here : t.engine = n
    · subst here
      exact .inl (shows.polled sound numbered queued)
    · have others (u : RunTask σ) (there : u.engine = n) :
          u ∈ (h.queue (before ++ after)).tasks ↔ u ∈ h.tasks := by
        rw [(tasksTaken queued).mem_iff, List.mem_cons, or_iff_right]
        rintro rfl
        exact here there
      rcases answered : t.poll ((h.queue (before ++ after)).engine t.engine).activities
        (h.queue (before ++ after)).services with ⟨report | ⟨wait, later⟩, services⟩
      · rw [pollSettles answered]
        refine .inr <| shows.aside ?_ others (Nat.le_refl _) (reportKept rfl)
        exact congrArg LocalEngine.runs
          ((engineChanged h t.engine n _).trans (if_neg fun both => here both.1))
      · rw [pollSettles answered]
        refine .inr <| shows.aside rfl (fun u there => ?_) (Nat.le_refl _)
          (reportKept (List.append_nil _).symm)
        rw [(tasksAsleep ..).mem_iff, List.mem_cons, or_iff_right]
        · exact others u there
        · rintro rfl
          exact here ((RunTask.pollSame answered).2.symm.trans there)

theorem cancelHits (h : Host σ) (run : RunId) :
    (h.cancel run).1 = true ↔ ∃ n, run ∈ (h.engine n).runs := by
  have answer : (h.cancel run).1 = h.engines.any (·.runs.contains run) := by
    rw [cancel]
    split
    · exact Eq.symm ‹_›
    · exact (Bool.eq_false_iff.2 ‹_›).symm
  rw [answer, List.any_eq_true]
  constructor
  · rintro ⟨e, inside, tracked⟩
    obtain ⟨n, here⟩ := List.mem_iff_getElem?.1 inside
    refine ⟨n, ?_⟩
    rw [engine, here]
    exact List.contains_iff_mem.1 tracked
  · rintro ⟨n, tracked⟩
    cases here : h.engines[n]? with
    | none =>
      rw [engine, here] at tracked
      cases tracked
    | some e =>
      rw [engine, here] at tracked
      exact ⟨e, List.mem_of_getElem? here, List.contains_iff_mem.2 tracked⟩

theorem Shows.start (n : Nat) (shared : Bool) (outages : SortedMap Outage) (moment : Nat) (services : σ) :
    Shows n (.start shared outages moment services) ⟨.empty, services, fun _ => none⟩ := by
  refine ⟨(startEngine ..).symm, rfl, fun run t known => ?_, fun run job stage => ?_,
    fun run job report known => ?_⟩
  · cases known
  · exact iff_of_false (fun known => by cases known) List.not_mem_nil
  · cases known

/-- However a host has come about, the runs of each of its engines have gone a course. -/
theorem Moves.courses {shared : Bool} {outages : SortedMap Outage} {moment : Nat} {services : σ}
    {h : Host σ} (moves : Moves runText (.start shared outages moment services) h) (n : Nat) :
    ∃ start log a, start.Idle ∧ Arena.Course start log a ∧ Shows n h a := by
  let start : Arena σ := ⟨.empty, services, fun _ => none⟩
  have idle : start.Idle := ⟨rfl, fun run => rfl⟩
  have both : h.Numbered ∧ ∃ log a, Arena.Course start log a ∧ Shows n h a := by
    induction moves with
    | refl => exact ⟨.start .., [], start, .start, .start n shared outages moment services⟩
    | tail before move ih =>
      obtain ⟨numbered, log, a, course, shows⟩ := ih
      refine ⟨move.numbered numbered, ?_⟩
      obtain ⟨more, b, steps, shown⟩ | ⟨b, aside, shown⟩ := shows.move (course.sound idle) numbered move
      · exact ⟨_, b, course.steps steps, shown⟩
      · exact ⟨_, b, course.aside aside, shown⟩
  obtain ⟨-, log, a, course, shows⟩ := both
  exact ⟨start, log, a, idle, course, shows⟩

/-- In whatever order starts, tasks and cancellations take their steps, runs keep to their life cycle.
However a host has come about, each of its engines has what such a course leaves, and a cancellation
hits if and only if one of them has the run in its table. -/
theorem runLifeCycles (runText : RunId → String) :
    (∀ (start a : Arena σ) (log : List (Event σ)), start.Idle → Arena.Course start log a →
      Arena.LifeCycle log a) ∧
    ∀ (shared : Bool) (outages : SortedMap Outage) (moment : Nat) (services : σ) (h : Host σ),
      Moves runText (.start shared outages moment services) h →
      (∀ n, ∃ start log a, start.Idle ∧ Arena.Course start log a ∧ Shows n h a) ∧
      ∀ run, (h.cancel run).1 = true ↔ ∃ n, run ∈ (h.engine n).runs := by
  refine ⟨fun _ _ _ idle course => ?_, fun _ _ _ _ h moves => ⟨fun n => ?_, fun run => ?_⟩⟩
  · exact course.lifeCycle idle
  · exact moves.courses n
  · exact h.cancelHits run

def stepless : CompiledJob Unit := ⟨"build", "", [], .ofIntegrations []⟩

theorem runLifeCyclesRaced :
    let log : List (Event Unit) :=
      [.spawned ⟨0⟩ stepless .null, .cancelled ⟨0⟩ false, .tracked ⟨0⟩, .spawned ⟨1⟩ stepless .null,
        .cancelled ⟨0⟩ true, .tracked ⟨1⟩, .opened ⟨1⟩, .ended ⟨1⟩ none (.ok ()), .opened ⟨0⟩, .dropped ⟨0⟩]
    let made := (Host.start true .empty 0 ()).changeEngine 0 (·.registerProcedure "build" stepless)
    let h := (made.startRun (fun run => toString run.number) 0 "build" "default" .null).2
    (∃ start a, Arena.Idle start ∧ Arena.Course start log a ∧ Arena.LifeCycle log a ∧ a.engine.runs = []) ∧
      (∃ start log a, Arena.Idle start ∧ Arena.Course start log a ∧ Shows 0 h a) ∧
      (h.cancel ⟨0⟩).1 = true := by
  intro log made h
  obtain ⟨cycles, hosts⟩ := @runLifeCycles Unit fun run => toString run.number
  refine ⟨?_, ?_⟩
  · let start : Arena Unit := ⟨LocalEngine.empty.registerProcedure "build" stepless, (), fun _ => none⟩
    have first := Arena.Course.start.step (@Arena.Step.spawn _ start "build" stepless rfl ⟨0⟩ rfl .null)
    have missed := first.step (.cancel ⟨0⟩)
    have tracked := missed.step (@Arena.Step.track _ _ ⟨0⟩ _ _ rfl)
    have second := tracked.step (@Arena.Step.spawn _ _ "build" stepless rfl ⟨1⟩ rfl .null)
    have hit := second.step (.cancel ⟨0⟩)
    have other := hit.step (@Arena.Step.track _ _ ⟨1⟩ _ _ rfl)
    have opened := other.step (@Arena.Step.gate _ _ ⟨1⟩ _ _ rfl)
    have ended := opened.step (@Arena.Step.finish _ _ ⟨1⟩ _ _ _ _ rfl rfl rfl)
    have late := ended.step (@Arena.Step.gate _ _ ⟨0⟩ _ _ rfl)
    have course := late.step (@Arena.Step.drop _ _ ⟨0⟩ _ _ rfl)
    have idle : start.Idle := ⟨rfl, fun run => rfl⟩
    exact ⟨start, _, idle, course, cycles _ _ _ idle course, rfl⟩
  · have moves : Moves (fun run => toString run.number) (.start true .empty 0 ()) h :=
      (Moves.one (.registerProcedure 0 "build" stepless)).trans
        (.one (.startRun 0 "build" "default" .null))
    obtain ⟨courses, cancels⟩ := hosts true .empty 0 () h moves
    exact ⟨courses 0, (cancels ⟨0⟩).2 ⟨0, List.mem_singleton_self _⟩⟩

end Host
end Orchestration
