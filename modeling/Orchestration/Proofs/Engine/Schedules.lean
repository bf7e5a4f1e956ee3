import Orchestration.Proofs.Engine.Register

/-! The cron jobs of an engine after a series of calls that create and update schedules.
A call that changes the expressions of a schedule takes away the jobs of every schedule
whose id goes on after its own id and the mark; they stay away until that schedule gets
other expressions itself. All other schedules have the jobs that their expressions say. -/
namespace Orchestration

inductive ScheduleCall where
  | create (moment : Nat) (id cron : String) (action : ScheduleAction)
  | update (moment : Nat) (id : String) (change : ScheduleDescription → ScheduleDescription)

namespace ScheduleCall
variable {σ : Type}

def id : ScheduleCall → String
  | create _ id _ _ => id
  | update _ id _ => id

def apply (e : LocalEngine σ) : ScheduleCall → Except Error (LocalEngine σ)
  | create moment id cron action => e.createSchedule moment id cron action
  | update moment id change => e.updateSchedule moment id change

def run (call : ScheduleCall) (e : LocalEngine σ) : LocalEngine σ :=
  match call.apply e with
  | .ok e => e
  | .error _ => e

end ScheduleCall

namespace LocalEngine
open CronExpression
variable {σ : Type}

def jobsOf (e : LocalEngine σ) (id : String) : List (LiveJob String) :=
  e.cron.live.filter (·.job.tick = id)

def RewrittenBy (e : LocalEngine σ) (call : ScheduleCall) : Prop :=
  (call.run e).expressions? call.id ≠ e.expressions? call.id

theorem runEffect (call : ScheduleCall) (e : LocalEngine σ) : Effect e call.id (call.run e) := by
  rw [ScheduleCall.run]
  cases applied : call.apply e with
  | error _ => exact .refused
  | ok e' =>
    cases call with
    | create moment id cron action => exact createEffect applied
    | update moment id change => exact updateEffect applied

def after (σ : Type) : List ScheduleCall → LocalEngine σ
  | [] => .empty
  | call :: earlier => call.run (after σ earlier)

/-- The cron jobs of the schedule were taken away by a call for another one, and it has not got
other expressions since. -/
def Eclipsed (σ : Type) : List ScheduleCall → String → Prop
  | [], _ => False
  | call :: earlier, id =>
    ((after σ earlier).RewrittenBy call ∧ Shadows call.id id) ∨
      (Eclipsed σ earlier id ∧ ((after σ earlier).RewrittenBy call → call.id ≠ id))

/-- The cron jobs are those of the stored schedules that are not gone: one job for each
expression, under its own key, and none besides. -/
structure CronFollows (e : LocalEngine σ) (gone : String → Prop) : Prop where
  keys : ∀ key, key ∈ e.cron.keys ↔ ∃ id d, e.schedules.get? id = some d ∧ ¬ gone id ∧
    ∃ i < d.expressions.length, key = cronKey id i
  paired : (e.cron.live.map fun l => (l.job.key, l.number)).Perm e.cron.tracked.entries
  distinct : (e.cron.live.map (·.number)).Nodup
  built : ∀ id d i cron, e.schedules.get? id = some d → ¬ gone id → d.expressions[i]? = some cron →
    ∃ l ∈ e.cron.live, CronJob.build (cronKey id i) cron id = .ok l.job

def CronMatches (e : LocalEngine σ) : Prop := e.CronFollows fun _ => False

def Wanted (e : LocalEngine σ) (gone : String → Prop) (id : String) (i : Nat) (cron : String) : Prop :=
  ∃ d, e.schedules.get? id = some d ∧ ¬ gone id ∧ d.expressions[i]? = some cron

structure Wired (e : LocalEngine σ) (gone : String → Prop) : Prop where
  consistent : e.cron.Consistent
  readable : e.AllReadable
  jobs : ∀ job, job ∈ e.cron.live.map (·.job) ↔
    ∃ id i cron, e.Wanted gone id i cron ∧ CronJob.build (cronKey id i) cron id = .ok job

namespace Wired
variable {e : LocalEngine σ} {gone : String → Prop}

theorem empty : (LocalEngine.empty : LocalEngine σ).Wired fun _ => False := by
  refine ⟨CronService.emptyConsistent, fun id d stored => ?_, fun job => ?_⟩
  · cases stored
  · simp [LocalEngine.empty, CronService.empty, Wanted]

theorem congr {other : String → Prop} (wired : e.Wired gone) (same : ∀ id, gone id ↔ other id) :
    e.Wired other := by
  rwa [← funext fun id => propext (same id)]

theorem described (wired : e.Wired gone) {id : String} {updated : ScheduleDescription}
    (same : e.expressions? id = some updated.expressions) :
    ({ e with schedules := e.schedules.insert id updated } : LocalEngine σ).Wired gone := by
  obtain ⟨current, stored, equal⟩ := Option.map_eq_some_iff.1 same
  refine ⟨wired.consistent, (Effect.described same).readable wired.readable, fun job => ?_⟩
  rw [wired.jobs]
  have wanted : ∀ other i cron, e.Wanted gone other i cron ↔
      ({ e with schedules := e.schedules.insert id updated } : LocalEngine σ).Wanted gone other i
        cron := by
    intro other i cron
    simp only [Wanted, SortedMap.getInsert]
    split
    · rename_i here
      subst here
      simp [stored, equal]
    · rfl
  simp only [wanted]

def goneAfter (gone : String → Prop) (id other : String) : Prop :=
  Shadows id other ∨ (gone other ∧ id ≠ other)

theorem rewired (wired : e.Wired gone) {e' : LocalEngine σ} {moment : Nat} {id : String}
    {updated : ScheduleDescription}
    (registered : e.registerCron moment id updated.expressions = .ok e')
    (changed : e.expressions? id ≠ some updated.expressions) :
    ({ e' with schedules := e'.schedules.insert id updated } : LocalEngine σ).Wired
      (goneAfter gone id) := by
  have readable := (Effect.rewired registered changed).readable wired.readable
  obtain ⟨consistent, -⟩ := registerCronLive wired.consistent registered
  obtain ⟨jobs, built, running⟩ := registerCronJobs wired.consistent registered
  have kept : e'.schedules = e.schedules := by
    obtain ⟨_, _, rfl⟩ := registerCronBuilt registered
    rfl
  refine ⟨consistent, readable, fun job => ?_⟩
  rw [running, wired.jobs, built.member]
  simp only [Wanted, SortedMap.getInsert, kept, Nat.zero_add]
  constructor
  · rintro (⟨⟨other, i, cron, ⟨d, stored, present, place⟩, made⟩, apart⟩ | ⟨i, cron, place, made⟩)
    · rw [(CronJob.buildFields made).1, startsCronKey, not_or] at apart
      refine ⟨other, i, cron, ⟨d, ?_, ?_, place⟩, made⟩
      · rw [if_neg apart.1, stored]
      · exact fun absent => absent.elim apart.2 fun absent => present absent.1
    · exact ⟨id, i, cron, ⟨updated, if_pos rfl, fun absent =>
        absent.elim (notShadowsSelf id) fun absent => absent.2 rfl, place⟩, made⟩
  · rintro ⟨other, i, cron, ⟨d, stored, present, place⟩, made⟩
    split at stored
    · rename_i here
      subst here
      cases stored
      exact .inr ⟨i, cron, place, made⟩
    · rename_i apart
      refine .inl ⟨⟨other, i, cron, ⟨d, stored, fun absent => present (.inr ⟨absent, apart⟩), place⟩,
        made⟩, ?_⟩
      rw [(CronJob.buildFields made).1, startsCronKey]
      exact fun starts => starts.elim apart fun shadows => present (.inl shadows)

theorem buildWanted (wired : e.Wired gone) {id : String} {i : Nat} {cron : String}
    (wanted : e.Wanted gone id i cron) :
    ∃ l ∈ e.cron.live, CronJob.build (cronKey id i) cron id = .ok l.job := by
  have ⟨d, stored, _, place⟩ := wanted
  obtain ⟨expression, read⟩ := wired.readable id d stored cron (List.mem_of_getElem? place)
  have made : CronJob.build (cronKey id i) cron id = .ok ⟨cronKey id i, expression, id⟩ := by
    rw [CronJob.build, read]
    rfl
  obtain ⟨l, live, job⟩ := List.mem_map.1 ((wired.jobs _).2 ⟨id, i, cron, wanted, made⟩)
  exact ⟨l, live, job ▸ made⟩

theorem wantedOf (wired : e.Wired gone) {l : LiveJob String} (live : l ∈ e.cron.live) :
    ∃ id i cron, e.Wanted gone id i cron ∧ l.job.key = cronKey id i ∧ l.job.tick = id := by
  obtain ⟨id, i, cron, wanted, made⟩ := (wired.jobs _).1 (List.mem_map_of_mem live)
  exact ⟨id, i, cron, wanted, CronJob.buildFields made⟩

theorem startsOther (wired : e.Wired gone) {l : LiveJob String} (live : l ∈ e.cron.live)
    {id other : String} (ticks : l.job.tick = other) (apart : other ≠ id) :
    (keyStart id).toList.isPrefixOf l.job.key.toList ↔ Shadows id other := by
  obtain ⟨owner, i, cron, -, named, owned⟩ := wired.wantedOf live
  rw [named, startsCronKey, ← ticks, owned, or_iff_right]
  intro same
  exact apart (ticks.symm.trans (owned.trans same.symm))

theorem follows (wired : e.Wired gone) : e.CronFollows gone := by
  refine ⟨fun key => ?_, wired.consistent.entriesPerm, wired.consistent.distinct, ?_⟩
  · rw [CronService.keys, SortedMap.memKeys]
    constructor
    · rintro ⟨number, points⟩
      obtain ⟨l, live, named, -⟩ := (wired.consistent.points key number).1 points
      obtain ⟨id, i, cron, ⟨d, stored, present, place⟩, same, -⟩ := wired.wantedOf live
      obtain ⟨inside, -⟩ := List.getElem?_eq_some_iff.1 place
      exact ⟨id, d, stored, present, i, inside, named.symm.trans same⟩
    · rintro ⟨id, d, stored, present, i, inside, rfl⟩
      obtain ⟨l, live, made⟩ :=
        wired.buildWanted ⟨d, stored, present, List.getElem?_eq_getElem inside⟩
      exact ⟨l.number, (CronJob.buildFields made).1 ▸ wired.consistent.pointed live⟩
  · intro id d i cron stored present place
    exact wired.buildWanted ⟨d, stored, present, place⟩

theorem frame (wired : e.Wired gone) {id other : String} {e' : LocalEngine σ}
    (effect : Effect e id e') (apart : other ≠ id) :
    (e'.expressions? id ≠ e.expressions? id ∧ Shadows id other → e'.jobsOf other = []) ∧
      (¬ (e'.expressions? id ≠ e.expressions? id ∧ Shadows id other) →
        e'.jobsOf other = e.jobsOf other) := by
  cases effect with
  | refused => exact ⟨fun h => absurd rfl h.1, fun _ => rfl⟩
  | described same =>
    refine ⟨fun h => absurd ?_ h.1, fun _ => rfl⟩
    exact (expressionsStored e id _).trans same.symm
  | @rewired moment updated e' registered changed =>
    have kept := registerCronOthers wired.consistent registered apart
    simp only [jobsOf, kept]
    constructor
    · rintro ⟨-, shadows⟩
      refine List.filter_eq_nil_iff.2 fun l inside => ?_
      simp only [decide_eq_true_eq, not_and, not_not]
      exact fun ticks => (wired.startsOther inside ticks apart).2 shadows
    · intro quiet
      have unshadowed : ¬ Shadows id other := by
        refine fun shadows => quiet ⟨?_, shadows⟩
        rw [expressionsStored]
        exact Ne.symm changed
      refine List.filter_congr fun l inside => ?_
      rw [decide_eq_decide]
      exact ⟨And.left, fun ticks => ⟨ticks, fun starts =>
        unshadowed ((wired.startsOther inside ticks apart).1 starts)⟩⟩

end Wired

theorem Wired.run {e : LocalEngine σ} {gone : String → Prop} (wired : e.Wired gone)
    (call : ScheduleCall) :
    (call.run e).Wired fun id => (e.RewrittenBy call ∧ Shadows call.id id) ∨
      (gone id ∧ (e.RewrittenBy call → call.id ≠ id)) := by
  have effect := runEffect call e
  rw [RewrittenBy]
  generalize call.run e = e' at effect
  cases effect with
  | refused => exact wired.congr fun id => by simp
  | described same =>
    refine (wired.described same).congr fun id => ?_
    simp only [expressionsStored, ← same, ne_eq, not_true_eq_false, false_and, false_or,
      false_implies, and_true]
  | rewired registered changed =>
    refine (wired.rewired registered changed).congr fun id => ?_
    have changes := Ne.symm changed
    simp only [Wired.goneAfter, expressionsStored, ne_eq, changes, not_false_eq_true, true_and,
      forall_const]

theorem afterWired (calls : List ScheduleCall) : (after σ calls).Wired (Eclipsed σ calls) := by
  induction calls with
  | nil => exact .empty
  | cons call earlier ih => exact ih.run call

theorem CronFollows.matchesIff {e : LocalEngine σ} {gone : String → Prop}
    (follows : e.CronFollows gone) :
    e.CronMatches ↔ ∀ id d, e.schedules.get? id = some d → d.expressions ≠ [] → ¬ gone id := by
  constructor
  · intro full id d stored filled
    have inside : 0 < d.expressions.length := List.length_pos_iff.2 filled
    obtain ⟨other, _, _, present, i, _, same⟩ :=
      (follows.keys _).1 ((full.keys _).2 ⟨id, d, stored, not_false, 0, inside, rfl⟩)
    rw [(cronKeyInj same).1]
    exact present
  · intro present
    refine ⟨fun key => (follows.keys key).trans ?_, follows.paired, follows.distinct, ?_⟩
    · constructor
      · rintro ⟨id, d, stored, -, place⟩
        exact ⟨id, d, stored, not_false, place⟩
      · rintro ⟨id, d, stored, -, i, inside, same⟩
        exact ⟨id, d, stored, present id d stored (List.ne_nil_of_length_pos (by omega)), i, inside, same⟩
    · intro id d i cron stored _ place
      exact follows.built id d i cron stored
        (present id d stored (List.ne_nil_of_mem (List.mem_of_getElem? place))) place

/-- After any calls the cron jobs are those of the stored schedules that are not eclipsed, so
they are those of all stored schedules just when none with expressions is eclipsed; and a
call takes away the jobs of another schedule just when it changes expressions and shadows it. -/
theorem cronAfterCalls (calls : List ScheduleCall) :
    (after σ calls).CronFollows (Eclipsed σ calls) ∧
      ((after σ calls).CronMatches ↔ ∀ id d, (after σ calls).schedules.get? id = some d →
        d.expressions ≠ [] → ¬ Eclipsed σ calls id) ∧
      ∀ call other, other ≠ call.id →
        ((after σ calls).RewrittenBy call ∧ Shadows call.id other →
          (after σ (call :: calls)).jobsOf other = []) ∧
        (¬ ((after σ calls).RewrittenBy call ∧ Shadows call.id other) →
          (after σ (call :: calls)).jobsOf other = (after σ calls).jobsOf other) := by
  have wired := afterWired (σ := σ) calls
  refine ⟨wired.follows, wired.follows.matchesIff, fun call other apart => ?_⟩
  exact wired.frame (runEffect call _) apart

theorem cronEclipsed :
    ¬ (after Unit [.create 0 "a" "0 3 * * *" ⟨"cleanup", "default", .null⟩,
      .create 0 "a#b" "0 3 * * *" ⟨"report", "default", .null⟩]).CronMatches := by
  intro full
  have inside := (full.keys "a#b#0").2 ⟨"a#b", ⟨"a#b", ["0 3 * * *"], ⟨"report", "default", .null⟩⟩,
    by decide +kernel, not_false, 0, by decide, by decide +kernel⟩
  revert inside
  decide +kernel

end LocalEngine
end Orchestration
