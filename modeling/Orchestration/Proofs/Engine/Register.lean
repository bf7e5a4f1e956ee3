import Orchestration.Proofs.Cron.Service
import Orchestration.Proofs.Engine.CronKey

/-! Pointing the cron jobs of a schedule at expressions: the jobs that are built, one
for each expression in order, and the jobs that run afterwards. -/
namespace Orchestration.LocalEngine
open CronExpression

variable {σ : Type}

inductive BuiltJobs (id : String) : Nat → List String → List (CronJob String) → Prop where
  | nil (i) : BuiltJobs id i [] []
  | cons {i cron expression rest jobs} (read : CronExpression.read cron = .ok expression)
      (next : BuiltJobs id (i + 1) rest jobs) :
      BuiltJobs id i (cron :: rest) (⟨cronKey id i, expression, id⟩ :: jobs)

theorem builtJobs {id : String} {i : Nat} {expressions : List String} {jobs : List (CronJob String)}
    (built : buildJobs id i expressions = .ok jobs) : BuiltJobs id i expressions jobs := by
  induction expressions generalizing i jobs with
  | nil =>
    cases built
    exact .nil i
  | cons cron rest ih =>
    simp only [buildJobs, CronJob.build] at built
    cases read : CronExpression.read cron with
    | error e =>
      rw [read] at built
      cases built
    | ok expression =>
      rw [read] at built
      cases tail : buildJobs id (i + 1) rest with
      | error e =>
        rw [tail] at built
        cases built
      | ok more =>
        rw [tail] at built
        cases built
        exact .cons read (ih tail)

namespace BuiltJobs
variable {id : String} {i : Nat} {expressions : List String} {jobs : List (CronJob String)}

theorem keys (built : BuiltJobs id i expressions jobs) :
    jobs.map (·.key) = (List.range' i expressions.length).map (cronKey id) := by
  induction built with
  | nil i => rfl
  | cons read next ih => simp only [List.map_cons, ih, List.length_cons, List.range'_succ]

theorem keysNodup (built : BuiltJobs id i expressions jobs) : (jobs.map (·.key)).Nodup := by
  rw [built.keys]
  exact List.Nodup.map (fun _ _ same => (cronKeyInj same).2) List.nodup_range'

theorem readable (built : BuiltJobs id i expressions jobs) : ∀ cron ∈ expressions, Readable cron := by
  induction built with
  | nil i => simp
  | cons read next ih =>
    intro cron member
    rcases List.mem_cons.1 member with rfl | rest
    · exact ⟨_, read⟩
    · exact ih cron rest

theorem member (built : BuiltJobs id i expressions jobs) (job : CronJob String) :
    job ∈ jobs ↔ ∃ n cron, expressions[n]? = some cron ∧
      CronJob.build (cronKey id (i + n)) cron id = .ok job := by
  induction built with
  | nil i => simp
  | @cons i cron expression rest jobs read next ih =>
    rw [List.mem_cons, ih]
    constructor
    · rintro (rfl | ⟨n, other, place, made⟩)
      · exact ⟨0, cron, rfl, by simp [CronJob.build, read, Except.map]⟩
      · exact ⟨n + 1, other, place, by rw [← made, Nat.add_comm n, Nat.add_assoc]⟩
    · rintro ⟨n, other, place, made⟩
      cases n with
      | zero =>
        cases place
        rw [CronJob.build, read] at made
        cases made
        exact .inl rfl
      | succ n => exact .inr ⟨n, other, place, by rw [← made, Nat.add_comm n, Nat.add_assoc]⟩

theorem started (built : BuiltJobs id i expressions jobs) {job : CronJob String}
    (inside : job ∈ jobs) : (keyStart id).toList.isPrefixOf job.key.toList := by
  have named := List.mem_map_of_mem (f := (·.key)) inside
  rw [built.keys] at named
  obtain ⟨n, -, same⟩ := List.mem_map.1 named
  rw [← same]
  exact (startsCronKey id id n).2 (.inl rfl)

end BuiltJobs

theorem registerCronBuilt {e e' : LocalEngine σ} {moment : Nat} {id : String}
    {expressions : List String} (ok : e.registerCron moment id expressions = .ok e') :
    ∃ jobs, BuiltJobs id 0 expressions jobs ∧ e' = { e with
      cron := (jobs.foldl (fun cron job => cron.install moment job) e.cron).removePrefixed
        (keyStart id) (jobs.map (·.key)) } := by
  simp only [registerCron] at ok
  cases made : buildJobs id 0 expressions with
  | error e =>
    rw [made] at ok
    cases ok
  | ok jobs =>
    rw [made] at ok
    cases ok
    exact ⟨jobs, builtJobs made, rfl⟩

theorem registerReadable (e : LocalEngine σ) (moment : Nat) (id : String) {cron : String}
    (readable : Readable cron) : ∃ e', e.registerCron moment id [cron] = .ok e' := by
  obtain ⟨expression, read⟩ := readable
  simp only [registerCron, buildJobs, CronJob.build, read, Except.map]
  exact ⟨_, rfl⟩

theorem registerUnreadable (e : LocalEngine σ) (moment : Nat) (id : String) {cron : String}
    {err : Error} (read : CronExpression.read cron = .error err) :
    e.registerCron moment id [cron] = .error err := by
  simp only [registerCron, buildJobs, CronJob.build, read, Except.map]

theorem registerCronLive {e e' : LocalEngine σ} {moment : Nat} {id : String}
    {expressions : List String} (consistent : e.cron.Consistent)
    (ok : e.registerCron moment id expressions = .ok e') :
    e'.cron.Consistent ∧ ∃ jobs added, BuiltJobs id 0 expressions jobs ∧
      added.map LiveJob.job = jobs ∧
      e'.cron.live =
        (e.cron.live.filter fun l => !(keyStart id).toList.isPrefixOf l.job.key.toList) ++ added := by
  obtain ⟨jobs, built, rfl⟩ := registerCronBuilt ok
  obtain ⟨installed, added, live, mapped⟩ := consistent.installAll moment built.keysNodup
  obtain ⟨after, kept⟩ := installed.removePrefixed (keyStart id) (jobs.map (·.key))
  refine ⟨after, jobs, added, built, mapped, ?_⟩
  refine kept.trans ?_
  rw [live, List.filter_append, List.filter_filter]
  congr 1
  · refine List.filter_congr fun l _ => ?_
    by_cases new : l.job.key ∈ jobs.map (·.key)
    · obtain ⟨job, inside, same⟩ := List.mem_map.1 new
      simp [← same, built.started inside]
    · simp [new]
  · refine List.filter_eq_self.2 fun l inside => ?_
    have new : l.job ∈ jobs := mapped ▸ List.mem_map_of_mem inside
    simp [List.mem_map_of_mem new]

theorem registerCronJobs {e e' : LocalEngine σ} {moment : Nat} {id : String}
    {expressions : List String} (consistent : e.cron.Consistent)
    (ok : e.registerCron moment id expressions = .ok e') :
    ∃ jobs, BuiltJobs id 0 expressions jobs ∧ ∀ job, job ∈ e'.cron.live.map (·.job) ↔
      (job ∈ e.cron.live.map (·.job) ∧ ¬ (keyStart id).toList.isPrefixOf job.key.toList) ∨
        job ∈ jobs := by
  obtain ⟨-, jobs, added, built, mapped, live⟩ := registerCronLive consistent ok
  refine ⟨jobs, built, fun job => ?_⟩
  rw [live, List.map_append, List.mem_append, mapped]
  simp only [List.mem_map, List.mem_filter, Bool.not_eq_true', Bool.not_eq_true]
  constructor
  · rintro (⟨l, ⟨inside, apart⟩, rfl⟩ | new)
    · exact .inl ⟨⟨l, inside, rfl⟩, apart⟩
    · exact .inr new
  · rintro (⟨⟨l, inside, rfl⟩, apart⟩ | new)
    · exact .inl ⟨l, ⟨inside, apart⟩, rfl⟩
    · exact .inr new

theorem registerCronOthers {e e' : LocalEngine σ} {moment : Nat} {id other : String}
    {expressions : List String} (consistent : e.cron.Consistent)
    (ok : e.registerCron moment id expressions = .ok e') (apart : other ≠ id) :
    e'.cron.live.filter (·.job.tick = other) = e.cron.live.filter fun l =>
      l.job.tick = other ∧ ¬ (keyStart id).toList.isPrefixOf l.job.key.toList := by
  obtain ⟨-, jobs, added, built, mapped, live⟩ := registerCronLive consistent ok
  have own : added.filter (·.job.tick = other) = [] := by
    refine List.filter_eq_nil_iff.2 fun l inside => ?_
    obtain ⟨i, cron, -, made⟩ := (built.member _).1 (mapped ▸ List.mem_map_of_mem inside)
    simp only [(CronJob.buildFields made).2, decide_eq_true_eq]
    exact fun same => apart same.symm
  rw [live, List.filter_append, own, List.append_nil, List.filter_filter]
  refine List.filter_congr fun l _ => ?_
  rw [Bool.decide_and, decide_not, Bool.decide_eq_true]

def expressions? (e : LocalEngine σ) (id : String) : Option (List String) :=
  (e.schedules.get? id).map (·.expressions)

theorem expressionsStored (e : LocalEngine σ) (id : String) (d : ScheduleDescription) :
    ({ e with schedules := e.schedules.insert id d } : LocalEngine σ).expressions? id =
      some d.expressions := by
  rw [expressions?, SortedMap.getInsertSelf, Option.map_some]

inductive Effect (e : LocalEngine σ) (id : String) : LocalEngine σ → Prop where
  | refused : Effect e id e
  | described {updated} (same : e.expressions? id = some updated.expressions) :
      Effect e id { e with schedules := e.schedules.insert id updated }
  | rewired {moment updated e'} (registered : e.registerCron moment id updated.expressions = .ok e')
      (changed : e.expressions? id ≠ some updated.expressions) :
      Effect e id { e' with schedules := e'.schedules.insert id updated }

theorem createEffect {e e' : LocalEngine σ} {moment : Nat} {id cron : String}
    {action : ScheduleAction} (ok : e.createSchedule moment id cron action = .ok e') :
    Effect e id e' := by
  simp only [createSchedule] at ok
  split at ok
  · cases ok
  · rename_i absent
    cases registered : e.registerCron moment id [cron] with
    | error e =>
      rw [registered] at ok
      cases ok
    | ok wired =>
      rw [registered] at ok
      cases ok
      refine .rewired registered ?_
      rw [SortedMap.containsEq, Bool.not_eq_true, Option.isSome_eq_false_iff,
        Option.isNone_iff_eq_none] at absent
      simp [expressions?, absent]

theorem updateEffect {e e' : LocalEngine σ} {moment : Nat} {id : String}
    {change : ScheduleDescription → ScheduleDescription}
    (ok : e.updateSchedule moment id change = .ok e') : Effect e id e' := by
  simp only [updateSchedule] at ok
  cases stored : e.schedules.get? id with
  | none =>
    rw [stored] at ok
    cases ok
  | some current =>
    rw [stored] at ok
    simp only at ok
    split at ok
    · rename_i same
      cases ok
      exact .described (by simp only [expressions?, stored, Option.map_some, same])
    · rename_i changed
      cases registered : e.registerCron moment id (change current).expressions with
      | error e =>
        rw [registered] at ok
        cases ok
      | ok wired =>
        rw [registered] at ok
        cases ok
        refine .rewired registered ?_
        simp only [expressions?, stored, Option.map_some, ne_eq, Option.some.injEq]
        exact fun same => changed same.symm

def AllReadable (e : LocalEngine σ) : Prop :=
  ∀ id d, e.schedules.get? id = some d → ∀ cron ∈ d.expressions, Readable cron

theorem Effect.readable {e e' : LocalEngine σ} {id : String} (effect : Effect e id e')
    (readable : e.AllReadable) : e'.AllReadable := by
  cases effect with
  | refused => exact readable
  | @described updated same =>
    intro other d
    simp only [SortedMap.getInsert]
    split
    · rintro ⟨⟩
      obtain ⟨current, stored, equal⟩ := Option.map_eq_some_iff.1 same
      rw [← equal]
      exact readable id current stored
    · exact readable other d
  | @rewired moment updated e' registered changed =>
    obtain ⟨jobs, built, rfl⟩ := registerCronBuilt registered
    intro other d
    simp only [SortedMap.getInsert]
    split
    · rintro ⟨⟩
      exact built.readable
    · exact readable other d

theorem Effect.frame {e e' : LocalEngine σ} {id : String} (effect : Effect e id e') :
    e'.procedures = e.procedures ∧ e'.activities = e.activities ∧ e'.runs = e.runs := by
  cases effect with
  | refused => exact ⟨rfl, rfl, rfl⟩
  | described same => exact ⟨rfl, rfl, rfl⟩
  | rewired registered changed =>
    obtain ⟨jobs, built, rfl⟩ := registerCronBuilt registered
    exact ⟨rfl, rfl, rfl⟩

end Orchestration.LocalEngine
