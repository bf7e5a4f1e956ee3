import Orchestration.Proofs.Engine.Schedules

/-! Calls on schedules carried out in place: what has been written before a call fails stays
written. Nothing has, since all expressions are checked before the first job is installed, so
a call that fails leaves the engine as it was; and a call that does not fail changes the
description of its own schedule alone. -/
namespace Orchestration

abbrev InPlace (σ : Type) := ExceptT Error (StateM (LocalEngine σ))

variable {σ : Type}

namespace LocalEngine

def carryOut {α : Type} (e : LocalEngine σ) (change : InPlace σ α) :
    Except Error α × LocalEngine σ :=
  change.run.run e

def installAll (moment : Nat) : List (CronJob String) → InPlace σ Unit
  | [] => pure ()
  | job :: rest => do
    modify fun e => { e with cron := e.cron.install moment job }
    installAll moment rest

def rewire (moment : Nat) (id : String) (expressions : List String) : InPlace σ Unit := do
  let jobs ← liftExcept (buildJobs id 0 expressions)
  installAll moment jobs
  modify fun e => { e with cron := e.cron.removePrefixed (keyStart id) (jobs.map (·.key)) }

def describe (id : String) (d : ScheduleDescription) : InPlace σ Unit :=
  modify fun e => { e with schedules := e.schedules.insert id d }

end LocalEngine

def ScheduleCall.perform : ScheduleCall → InPlace σ Unit
  | create moment id cron action => do
    if (← get).schedules.contains id then throw (.scheduleExists id)
    else
      LocalEngine.rewire moment id [cron]
      LocalEngine.describe id ⟨id, [cron], action⟩
  | update moment id change => do
    match (← get).schedules.get? id with
    | none => throw (.scheduleNotFound id)
    | some current =>
      let updated := { change current with id := id }
      if updated.expressions = current.expressions then LocalEngine.describe id updated
      else
        LocalEngine.rewire moment id updated.expressions
        LocalEngine.describe id updated

namespace LocalEngine
open CronExpression

def settled (e : LocalEngine σ) : Except Error (LocalEngine σ) → Except Error Unit × LocalEngine σ
  | .ok after => (.ok (), after)
  | .error err => (.error err, e)

theorem carryOutThen {α β : Type} (e : LocalEngine σ) (first : InPlace σ α) (next : α → InPlace σ β) :
    e.carryOut (first >>= next) =
      match e.carryOut first with
      | (.ok a, after) => after.carryOut (next a)
      | (.error err, after) => (.error err, after) := by
  have whole : e.carryOut (first >>= next) =
      (ExceptT.bindCont next (e.carryOut first).1).run (e.carryOut first).2 := rfl
  rw [whole]
  rcases e.carryOut first with ⟨err | a, after⟩ <;> rfl

theorem installAllDone (moment : Nat) (jobs : List (CronJob String)) (e : LocalEngine σ) :
    e.carryOut (installAll moment jobs) =
      (.ok (), { e with cron := jobs.foldl (fun cron job => cron.install moment job) e.cron }) := by
  induction jobs generalizing e with
  | nil => rfl
  | cons job rest ih => exact ih { e with cron := e.cron.install moment job }

theorem rewireSettled (e : LocalEngine σ) (moment : Nat) (id : String) (expressions : List String) :
    e.carryOut (rewire moment id expressions) = e.settled (e.registerCron moment id expressions) := by
  unfold rewire registerCron
  cases built : buildJobs id 0 expressions with
  | error err => rfl
  | ok jobs =>
    -- from here on nothing fails
    have checked : e.carryOut (liftExcept (.ok jobs : Except Error _)) = (.ok jobs, e) := rfl
    rw [carryOutThen, checked]
    simp only
    rw [carryOutThen, installAllDone]
    rfl

theorem rewiredThenDescribed (e : LocalEngine σ) (moment : Nat) (id : String)
    (expressions : List String) (d : ScheduleDescription) :
    e.carryOut (do rewire moment id expressions; describe id d) =
      e.settled ((e.registerCron moment id expressions).map fun e =>
        { e with schedules := e.schedules.insert id d }) := by
  -- what is described is described on the engine as the jobs have left it
  rw [carryOutThen, rewireSettled]
  cases e.registerCron moment id expressions <;> rfl

/-- Carried out in place or as a whole, a call on a schedule comes to the same. -/
theorem performSettled (e : LocalEngine σ) (call : ScheduleCall) :
    e.carryOut call.perform = e.settled (call.apply e) := by
  have read (next : LocalEngine σ → InPlace σ Unit) :
      e.carryOut (get >>= next) = e.carryOut (next e) := rfl
  cases call with
  | create moment id cron action =>
    simp only [ScheduleCall.perform, ScheduleCall.apply, createSchedule, read]
    split
    · rfl
    · exact rewiredThenDescribed ..
  | update moment id change =>
    simp only [ScheduleCall.perform, ScheduleCall.apply, updateSchedule, read]
    cases e.schedules.get? id with
    | none => rfl
    | some current =>
      simp only
      split
      · rfl
      · exact rewiredThenDescribed ..

theorem builtReadable {key cron tick : String} :
    (∃ job, CronJob.build key cron tick = .ok job) ↔ Readable cron := by
  rw [Readable, CronJob.build]
  cases CronExpression.read cron <;> simp [Except.map]

inductive FirstRejected (id : String) (err : Error) : Nat → List String → Prop where
  | here {i cron rest} (rejected : CronJob.build (cronKey id i) cron id = .error err) :
      FirstRejected id err i (cron :: rest)
  | later {i cron rest} (readable : Readable cron) (next : FirstRejected id err (i + 1) rest) :
      FirstRejected id err i (cron :: rest)

theorem buildJobsRejected {id : String} {err : Error} {i : Nat} {expressions : List String} :
    buildJobs id i expressions = .error err ↔ FirstRejected id err i expressions := by
  constructor
  · intro refused
    induction expressions generalizing i with
    | nil => cases refused
    | cons cron rest ih =>
      rw [buildJobs] at refused
      cases first : CronJob.build (keyStart id ++ toString i) cron id with
      | error e =>
        rw [first] at refused
        cases refused
        exact .here first
      | ok job =>
        rw [first] at refused
        cases others : buildJobs id (i + 1) rest with
        | error e =>
          rw [others] at refused
          cases refused
          exact .later (builtReadable.1 ⟨job, first⟩) (ih others)
        | ok jobs =>
          rw [others] at refused
          cases refused
  · intro rejected
    induction rejected with
    | @here i cron rest rejected =>
      rw [cronKey] at rejected
      rw [buildJobs, rejected]
    | @later i cron rest readable next ih =>
      obtain ⟨job, built⟩ := @builtReadable (keyStart id ++ toString i) cron id |>.2 readable
      rw [buildJobs, built, ih]
      rfl

theorem FirstRejected.unreadable {id : String} {err : Error} {i : Nat} {expressions : List String}
    (rejected : FirstRejected id err i expressions) : ∃ cron ∈ expressions, ¬ Readable cron := by
  induction rejected with
  | @here i cron rest rejected =>
    refine ⟨cron, List.mem_cons_self, fun readable => ?_⟩
    obtain ⟨job, built⟩ := builtReadable.2 readable
    rw [built] at rejected
    cases rejected
  | later readable next ih =>
    obtain ⟨cron, inside, unreadable⟩ := ih
    exact ⟨cron, List.mem_cons_of_mem _ inside, unreadable⟩

theorem firstRejected (id : String) (i : Nat) {expressions : List String} {cron : String}
    (inside : cron ∈ expressions) (unreadable : ¬ Readable cron) :
    ∃ err, FirstRejected id err i expressions := by
  cases made : buildJobs id i expressions with
  | error err => exact ⟨err, buildJobsRejected.1 made⟩
  | ok jobs => exact absurd ((builtJobs made).readable cron inside) unreadable

theorem registerRejected {e : LocalEngine σ} {moment : Nat} {id : String} {expressions : List String}
    {err : Error} :
    e.registerCron moment id expressions = .error err ↔ FirstRejected id err 0 expressions := by
  rw [registerCron, ← buildJobsRejected]
  cases buildJobs id 0 expressions <;> simp [Except.map]

inductive Refuses (e : LocalEngine σ) : ScheduleCall → Error → Prop where
  | present {moment id cron action} (stored : e.schedules.contains id) :
      Refuses e (.create moment id cron action) (.scheduleExists id)
  | rejected {moment id cron action err} (absent : ¬ e.schedules.contains id)
      (rejected : FirstRejected id err 0 [cron]) : Refuses e (.create moment id cron action) err
  | absent {moment id change} (absent : e.schedules.get? id = none) :
      Refuses e (.update moment id change) (.scheduleNotFound id)
  | someRejected {moment id change current err} (stored : e.schedules.get? id = some current)
      (changed : (change current).expressions ≠ current.expressions)
      (rejected : FirstRejected id err 0 (change current).expressions) :
      Refuses e (.update moment id change) err

theorem errorMapped {α β ε : Type} {x : Except ε α} {f : α → β} {err : ε} :
    x.map f = .error err ↔ x = .error err := by
  cases x <;> simp [Except.map]

theorem applyRefused {e : LocalEngine σ} {call : ScheduleCall} {err : Error} :
    call.apply e = .error err ↔ e.Refuses call err := by
  constructor
  · intro refused
    cases call with
    | create moment id cron action =>
      rw [ScheduleCall.apply, createSchedule] at refused
      split at refused
      · rename_i stored
        cases refused
        exact .present stored
      · rename_i absent
        exact .rejected absent (registerRejected.1 (errorMapped.1 refused))
    | update moment id change =>
      rw [ScheduleCall.apply, updateSchedule] at refused
      cases stored : e.schedules.get? id with
      | none =>
        rw [stored] at refused
        cases refused
        exact .absent stored
      | some current =>
        simp only [stored] at refused
        split at refused
        · cases refused
        · rename_i changed
          exact .someRejected stored changed (registerRejected.1 (errorMapped.1 refused))
  · intro refused
    cases refused with
    | present stored => rw [ScheduleCall.apply, createSchedule, if_pos stored]
    | rejected absent rejected =>
      rw [ScheduleCall.apply, createSchedule, if_neg absent, errorMapped, registerRejected]
      exact rejected
    | absent absent => rw [ScheduleCall.apply, updateSchedule, absent]
    | someRejected stored changed rejected =>
      simp only [ScheduleCall.apply, updateSchedule, stored, if_neg changed]
      exact errorMapped.2 (registerRejected.2 rejected)

end LocalEngine

namespace ScheduleCall
open CronExpression

def Unfit (e : LocalEngine σ) : ScheduleCall → Prop
  | create _ id cron _ => (∃ d, e.schedules.get? id = some d) ∨ ¬ Readable cron
  | update _ id change => ∀ current, e.schedules.get? id = some current →
    (change current).expressions ≠ current.expressions ∧
      ∃ cron ∈ (change current).expressions, ¬ Readable cron

def describes (e : LocalEngine σ) : ScheduleCall → Option ScheduleDescription
  | create _ id cron action => some ⟨id, [cron], action⟩
  | update _ id change => (e.schedules.get? id).map fun current => { change current with id := id }

end ScheduleCall

namespace LocalEngine
open CronExpression

theorem refusesUnfit {e : LocalEngine σ} {call : ScheduleCall} :
    (∃ err, e.Refuses call err) ↔ call.Unfit e := by
  constructor
  · rintro ⟨err, refused⟩
    cases refused with
    | present stored =>
      rw [SortedMap.containsEq, Option.isSome_iff_exists] at stored
      exact .inl stored
    | rejected absent rejected =>
      obtain ⟨other, inside, unreadable⟩ := rejected.unreadable
      exact .inr (List.mem_singleton.1 inside ▸ unreadable)
    | absent absent =>
      intro current stored
      rw [absent] at stored
      cases stored
    | someRejected stored changed rejected =>
      intro current same
      rw [stored] at same
      cases same
      exact ⟨changed, rejected.unreadable⟩
  · intro unfit
    cases call with
    | create moment id cron action =>
      by_cases stored : e.schedules.contains id
      · exact ⟨_, .present stored⟩
      · have unreadable := unfit.resolve_left fun ⟨d, there⟩ => stored (by
          rw [SortedMap.containsEq, there, Option.isSome_some])
        obtain ⟨err, rejected⟩ := firstRejected id 0 List.mem_cons_self unreadable
        exact ⟨err, .rejected stored rejected⟩
    | update moment id change =>
      cases stored : e.schedules.get? id with
      | none => exact ⟨_, .absent stored⟩
      | some current =>
        obtain ⟨changed, cron, inside, unreadable⟩ := unfit current stored
        obtain ⟨err, rejected⟩ := firstRejected id 0 inside unreadable
        exact ⟨err, .someRejected stored changed rejected⟩

theorem registeredThenStored {e after : LocalEngine σ} {moment : Nat} {id : String}
    {expressions : List String} {d : ScheduleDescription}
    (ok : (e.registerCron moment id expressions).map (fun e : LocalEngine σ =>
      { e with schedules := e.schedules.insert id d }) = .ok after) :
    after.schedules = e.schedules.insert id d := by
  cases registered : e.registerCron moment id expressions with
  | error err =>
    rw [registered] at ok
    cases ok
  | ok wired =>
    rw [registered] at ok
    cases ok
    obtain ⟨jobs, built, rfl⟩ := registerCronBuilt registered
    rfl

theorem applyStores {e after : LocalEngine σ} {call : ScheduleCall}
    (applied : call.apply e = .ok after) :
    ∃ d, call.describes e = some d ∧ after.schedules = e.schedules.insert call.id d := by
  cases call with
  | create moment id cron action =>
    rw [ScheduleCall.apply, createSchedule] at applied
    split at applied
    · cases applied
    · exact ⟨_, rfl, registeredThenStored applied⟩
  | update moment id change =>
    rw [ScheduleCall.apply, updateSchedule] at applied
    cases stored : e.schedules.get? id with
    | none =>
      rw [stored] at applied
      cases applied
    | some current =>
      simp only [stored] at applied
      have asked : (ScheduleCall.update moment id change).describes e =
          some { change current with id := id } := by
        rw [ScheduleCall.describes, stored, Option.map_some]
      refine ⟨_, asked, ?_⟩
      split at applied
      · cases applied
        rfl
      · exact registeredThenStored applied

/-- Carried out in place, a call fails if and only if it is unfit, and leaves the whole engine as it
was, its schedules as its cron jobs; otherwise it stores the description it asks for under its own
id, and no other one. -/
theorem callWholeOrRefused (e : LocalEngine σ) (call : ScheduleCall) :
    (∀ err after, e.carryOut call.perform = (.error err, after) ↔ e.Refuses call err ∧ after = e) ∧
      ((∃ err, e.Refuses call err) ↔ call.Unfit e) ∧
      ∀ after, e.carryOut call.perform = (.ok (), after) →
        after.schedules.get? call.id = call.describes e ∧
          ∀ other, other ≠ call.id → after.schedules.get? other = e.schedules.get? other := by
  rw [performSettled]
  refine ⟨fun err after => ?_, refusesUnfit, fun after done => ?_⟩
  · rw [← applyRefused]
    cases call.apply e <;> simp [settled, eq_comm]
  · have applied : call.apply e = .ok after := by
      revert done
      cases call.apply e <;> simp [settled]
    obtain ⟨d, asked, stored⟩ := applyStores applied
    rw [stored, asked]
    exact ⟨SortedMap.getInsertSelf .., fun other apart => SortedMap.getInsertOther _ _ apart.symm⟩

example : let nightly := after Unit [.create 0 "a" "0 3 * * *" ⟨"report", "default", .null⟩]
    let call := ScheduleCall.update 0 "a" fun d => { d with expressions := ["0 4 * * *", "never"] }
    let e := (nightly.carryOut call.perform).2
    e.cron.keys = ["a#0"] ∧ e.expressions? "a" = some ["0 3 * * *"] := by
  decide +kernel

end LocalEngine
end Orchestration
