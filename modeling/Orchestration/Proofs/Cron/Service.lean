import Mathlib.Data.List.Nodup
import Orchestration.Cron.Service
import Orchestration.Proofs.Collection.SortedMap

/-! The running jobs of a cron service and the keys that point to them. In a consistent
service the two say the same, so that adding and removing can be told by the running
jobs alone: a key is the key of one of them at most. -/
namespace Orchestration

def CronExpression.Readable (cron : String) : Prop :=
  ∃ expression, CronExpression.read cron = .ok expression

theorem CronJob.buildFields {τ : Type} {key cron : String} {tick : τ} {job : CronJob τ}
    (made : CronJob.build key cron tick = .ok job) : job.key = key ∧ job.tick = tick := by
  rw [CronJob.build] at made
  cases read : CronExpression.read cron with
  | error e =>
    rw [read] at made
    cases made
  | ok expression =>
    rw [read] at made
    cases made
    exact ⟨rfl, rfl⟩

namespace CronService

variable {τ : Type}

structure Consistent (s : CronService τ) : Prop where
  points : ∀ key number, s.tracked.get? key = some number ↔
    ∃ l ∈ s.live, l.job.key = key ∧ l.number = number
  distinct : (s.live.map (·.number)).Nodup
  fresh : ∀ l ∈ s.live, l.number < s.started

theorem emptyConsistent : (empty : CronService τ).Consistent :=
  ⟨fun key number => by simp [empty], by simp [empty], by simp [empty]⟩

namespace Consistent
variable {s : CronService τ}

theorem pointed (consistent : s.Consistent) {l : LiveJob τ} (live : l ∈ s.live) :
    s.tracked.get? l.job.key = some l.number :=
  (consistent.points _ _).2 ⟨l, live, rfl, rfl⟩

theorem sameNumber (consistent : s.Consistent) {l m : LiveJob τ} (left : l ∈ s.live)
    (right : m ∈ s.live) (same : l.number = m.number) : l = m :=
  List.inj_on_of_nodup_map consistent.distinct left right same

theorem numberIffKey (consistent : s.Consistent) {key : String} {number : Nat}
    (points : s.tracked.get? key = some number) {l : LiveJob τ} (live : l ∈ s.live) :
    l.number = number ↔ l.job.key = key := by
  obtain ⟨m, other, named, numbered⟩ := (consistent.points _ _).1 points
  constructor
  · intro same
    rw [consistent.sameNumber live other (same.trans numbered.symm), named]
  · intro same
    have found := consistent.pointed live
    rw [same, points] at found
    exact (Option.some.inj found).symm

theorem noneLive (consistent : s.Consistent) {key : String} (free : s.tracked.get? key = none)
    {l : LiveJob τ} (live : l ∈ s.live) : l.job.key ≠ key := by
  intro same
  have found := consistent.pointed live
  rw [same, free] at found
  cases found

theorem dropLive (consistent : s.Consistent) {key : String} {number : Nat}
    (points : s.tracked.get? key = some number) :
    s.live.filter (·.number ≠ number) = s.live.filter (·.job.key ≠ key) := by
  refine List.filter_congr fun l live => ?_
  simp only [ne_eq, consistent.numberIffKey points live]

theorem keepLive (consistent : s.Consistent) {key : String} (free : s.tracked.get? key = none) :
    s.live.filter (·.job.key ≠ key) = s.live :=
  List.filter_eq_self.2 fun _ live => decide_eq_true (consistent.noneLive free live)

theorem removeEq (consistent : s.Consistent) (key : String) :
    s.remove key =
      { s with live := s.live.filter (·.job.key ≠ key), tracked := s.tracked.erase key } := by
  simp only [remove]
  cases points : s.tracked.get? key with
  | some number => simp only [drop, consistent.dropLive points]
  | none =>
    have same : s.tracked.erase key = s.tracked := by
      refine SortedMap.eqOfGet fun other => ?_
      rw [SortedMap.getErase]
      split
      · rename_i same
        rw [same, points]
      · rfl
    simp only [consistent.keepLive points, same]

theorem remove (consistent : s.Consistent) (key : String) : (s.remove key).Consistent := by
  rw [consistent.removeEq]
  refine ⟨fun other number => ?_, ?_, fun l live => consistent.fresh l (List.mem_filter.1 live).1⟩
  · simp only [SortedMap.getErase, List.mem_filter, decide_eq_true_eq]
    by_cases same : other = key
    · subst other
      simp only [if_true, reduceCtorEq, false_iff]
      rintro ⟨l, ⟨-, apart⟩, named, -⟩
      exact apart named
    · simp only [same, if_false, consistent.points]
      constructor
      · rintro ⟨l, live, named, numbered⟩
        exact ⟨l, ⟨live, named ▸ same⟩, named, numbered⟩
      · rintro ⟨l, ⟨live, -⟩, named, numbered⟩
        exact ⟨l, live, named, numbered⟩
  · exact consistent.distinct.sublist (List.filter_sublist.map _)

theorem installEq (consistent : s.Consistent) (moment : Nat) (job : CronJob τ) :
    s.install moment job =
      ⟨s.live.filter (·.job.key ≠ job.key) ++ [⟨s.started, job, job.expression.next moment⟩],
        s.tracked.insert job.key s.started, s.started + 1⟩ := by
  simp only [install]
  cases points : s.tracked.get? job.key with
  | some number =>
    have newer : s.started ≠ number := by
      obtain ⟨l, live, -, numbered⟩ := (consistent.points _ _).1 points
      have := consistent.fresh l live
      omega
    simp only [drop, List.filter_append, consistent.dropLive points, List.filter_cons,
      List.filter_nil, ne_eq, newer, not_false_eq_true, decide_true, if_true]
  | none => simp only [consistent.keepLive points]

theorem install (consistent : s.Consistent) (moment : Nat) (job : CronJob τ) :
    (s.install moment job).Consistent := by
  rw [consistent.installEq]
  refine ⟨fun key number => ?_, ?_, fun l live => ?_⟩
  · simp only [SortedMap.getInsert, List.mem_append, List.mem_filter, List.mem_singleton,
      decide_eq_true_eq]
    by_cases same : job.key = key
    · subst key
      simp only [if_true, Option.some.injEq]
      constructor
      · intro numbered
        exact ⟨_, .inr rfl, rfl, numbered⟩
      · rintro ⟨l, ⟨-, apart⟩ | rfl, named, numbered⟩
        · exact absurd named apart
        · exact numbered
    · simp only [same, if_false, consistent.points]
      constructor
      · rintro ⟨l, live, named, numbered⟩
        exact ⟨l, .inl ⟨live, fun other => same (other.symm.trans named)⟩, named, numbered⟩
      · rintro ⟨l, ⟨live, -⟩ | rfl, named, numbered⟩
        · exact ⟨l, live, named, numbered⟩
        · exact absurd named same
  · rw [List.map_append, List.nodup_append]
    refine ⟨consistent.distinct.sublist (List.filter_sublist.map _), by simp, ?_⟩
    rintro number old _ new rfl
    obtain ⟨l, live, rfl⟩ := List.mem_map.1 old
    have := consistent.fresh l (List.mem_filter.1 live).1
    simp only [List.map_cons, List.map_nil, List.mem_singleton] at new
    omega
  · rcases List.mem_append.1 live with old | new
    · exact Nat.lt_succ_of_lt (consistent.fresh l (List.mem_filter.1 old).1)
    · simp only [List.mem_singleton] at new
      subst new
      exact Nat.lt_succ_self _

theorem installAll (consistent : s.Consistent) (moment : Nat) {jobs : List (CronJob τ)}
    (distinct : (jobs.map (·.key)).Nodup) :
    (jobs.foldl (fun s job => s.install moment job) s).Consistent ∧
      ∃ added, (jobs.foldl (fun s job => s.install moment job) s).live =
          s.live.filter (fun l => l.job.key ∉ jobs.map (·.key)) ++ added ∧
        added.map (·.job) = jobs := by
  induction jobs generalizing s with
  | nil => exact ⟨consistent, [], by simp, rfl⟩
  | cons job rest ih =>
    simp only [List.map_cons, List.nodup_cons] at distinct
    obtain ⟨after, added, live, mapped⟩ := ih (consistent.install moment job) distinct.2
    refine ⟨after, ⟨s.started, job, job.expression.next moment⟩ :: added, ?_, by simp [mapped]⟩
    have first : job.key ∉ rest.map (·.key) := distinct.1
    rw [List.foldl_cons]
    refine live.trans ?_
    rw [consistent.installEq]
    simp only [List.filter_append, List.filter_filter, List.filter_cons, List.filter_nil, first,
      not_false_eq_true, decide_true, if_true, List.append_assoc, List.singleton_append,
      List.map_cons, List.mem_cons, not_or]
    congr 1
    refine List.filter_congr fun l _ => ?_
    simp [Bool.and_comm]

theorem removeAll (consistent : s.Consistent) (keys : List String) :
    (keys.foldl CronService.remove s).Consistent ∧
      (keys.foldl CronService.remove s).live = s.live.filter (fun l => l.job.key ∉ keys) := by
  induction keys generalizing s with
  | nil => exact ⟨consistent, by simp⟩
  | cons key rest ih =>
    obtain ⟨after, live⟩ := ih (consistent.remove key)
    refine ⟨after, ?_⟩
    rw [List.foldl_cons]
    refine live.trans ?_
    rw [consistent.removeEq]
    simp only [List.filter_filter]
    refine List.filter_congr fun l _ => ?_
    simp [Bool.and_comm]

theorem removePrefixed (consistent : s.Consistent) (start : String) (keep : List String) :
    (s.removePrefixed start keep).Consistent ∧
      (s.removePrefixed start keep).live =
        s.live.filter fun l => !(start.toList.isPrefixOf l.job.key.toList && !keep.contains l.job.key) := by
  obtain ⟨after, live⟩ := consistent.removeAll
    (s.keys.filter fun key => start.toList.isPrefixOf key.toList && !keep.contains key)
  refine ⟨after, live.trans (List.filter_congr fun l inside => ?_)⟩
  have tracked : l.job.key ∈ s.keys := (SortedMap.memKeys _).2 ⟨_, consistent.pointed inside⟩
  rw [Bool.eq_iff_iff]
  simp only [List.mem_filter, tracked, true_and, decide_eq_true_eq, Bool.not_eq_true',
    Bool.not_eq_true]

theorem entriesPerm (consistent : s.Consistent) :
    (s.live.map fun l => (l.job.key, l.number)).Perm s.tracked.entries := by
  refine (List.perm_ext_iff_of_nodup ?_ (SortedEntries.entriesNodup s.tracked.ascending)).2 ?_
  · refine List.Nodup.of_map Prod.snd ?_
    simpa [List.map_map, Function.comp_def] using consistent.distinct
  · rintro ⟨key, number⟩
    rw [SortedMap.memEntries, consistent.points]
    simp

end Consistent
end CronService
end Orchestration
