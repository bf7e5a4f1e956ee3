import Mathlib.Data.List.Forall2
import Orchestration.Proofs.Dispatch.Sweep
import Orchestration.Proofs.Dispatch.Upsert

/-! Putting all schedules in place, twice. A pass is a sweep over placements, one for each job
of a scheduled definition, and what it leaves under an id can be told by the placements
for that id alone. Another pass, whatever it draws, has placements that mean the same,
and so finds everything as it would leave it. -/
namespace Orchestration.Dispatcher

variable {σ : Type}

def agenda : List Definition → List Nat → List (ScheduleSpec × Definition)
  | [], _ => []
  | d :: rest, words =>
    match d.cronSchedule with
    | none => agenda rest words
    | some schedule =>
      let (spec, words) := ScheduleSpec.resolve schedule words
      (spec, d) :: agenda rest words

def placements (definitions : List Definition) (words : List Nat) : List (ScheduleSpec × ListedJob) :=
  (agenda definitions words).flatMap fun i => i.2.listed.map fun l => (i.1, l)

theorem agendaSound (definitions : List Definition) {words : List Nat} (narrow : Draw.Narrow words) :
    ∀ i ∈ agenda definitions words, i.2 ∈ definitions ∧ i.1.Sound := by
  induction definitions generalizing words with
  | nil => simp [agenda]
  | cons d rest ih =>
    simp only [agenda]
    cases d.cronSchedule with
    | none =>
      intro i inside
      obtain ⟨listed, sound⟩ := ih narrow i inside
      exact ⟨List.mem_cons_of_mem d listed, sound⟩
    | some schedule =>
      obtain ⟨sound, left⟩ := ScheduleSpec.resolveSound schedule narrow
      intro i inside
      rcases List.mem_cons.1 inside with rfl | later
      · exact ⟨List.mem_cons_self, sound⟩
      · obtain ⟨listed, sound⟩ := ih left i later
        exact ⟨List.mem_cons_of_mem d listed, sound⟩

theorem agendaAlike (definitions : List Definition) (first second : List Nat) :
    List.Forall₂ (fun i j => i.1.Alike j.1 ∧ j.2 = i.2)
      (agenda definitions first) (agenda definitions second) := by
  induction definitions generalizing first second with
  | nil => exact .nil
  | cons d rest ih =>
    simp only [agenda]
    cases d.cronSchedule with
    | none => exact ih first second
    | some schedule => exact .cons ⟨ScheduleSpec.resolveAlike schedule first second, rfl⟩ (ih _ _)

def SamePlace (i j : ScheduleSpec × ListedJob) : Prop := i.1.Alike j.1 ∧ j.2 = i.2

theorem placementsAlike (definitions : List Definition) (first second : List Nat) :
    List.Forall₂ SamePlace (placements definitions first) (placements definitions second) := by
  refine List.rel_flatMap (agendaAlike definitions first second) ?_
  rintro ⟨s, d⟩ ⟨t, _⟩ ⟨alike, rfl⟩
  rw [List.forall₂_map_left_iff, List.forall₂_map_right_iff, List.forall₂_same]
  exact fun l _ => ⟨alike, rfl⟩

theorem samePlaces {items again : List (ScheduleSpec × ListedJob)}
    (alike : List.Forall₂ SamePlace items again) :
    again.map Prod.snd = items.map Prod.snd ∧
      again.map (·.1.verdict) = items.map (·.1.verdict) := by
  induction alike with
  | nil => exact ⟨rfl, rfl⟩
  | cons same rest ih => simp only [List.map_cons, same.2, same.1.verdict, ih.1, ih.2, and_self]

theorem placementsSound {definitions : List Definition} {words : List Nat}
    (narrow : Draw.Narrow words) {i : ScheduleSpec × ListedJob}
    (inside : i ∈ placements definitions words) :
    i.1.Sound ∧ ∃ d ∈ definitions, ∃ e ∈ d.jobs.entries, i.2 = ⟨d.name, e.1, e.2⟩ := by
  obtain ⟨⟨s, d⟩, scheduled, member⟩ := List.mem_flatMap.1 inside
  obtain ⟨l, listed, rfl⟩ := List.mem_map.1 member
  obtain ⟨e, entry, rfl⟩ := List.mem_map.1 listed
  obtain ⟨known, sound⟩ := agendaSound definitions narrow _ scheduled
  exact ⟨sound, d, known, e, entry, rfl⟩

section
variable {η κ : Type} (p : Platform σ η κ)

def place (i : ScheduleSpec × ListedJob) (f : Fleet η κ) : Except Error Unit × Fleet η κ :=
  upsert p i.1 i.2.name i.2.job f

theorem foldAgenda (definitions : List Definition) (words : List Nat)
    (s : Outcome Unit × Fleet η κ) :
    (definitions.foldl (fun s d => scheduleDefinition p d s) (s, words)).1 =
      (agenda definitions words).foldl
        (fun s i => Outcome.forJobs (upsert p i.1) i.2.name i.2.jobs.entries s) s := by
  induction definitions generalizing words s with
  | nil => rfl
  | cons d rest ih =>
    simp only [List.foldl_cons, agenda, scheduleDefinition]
    cases d.cronSchedule with
    | none => exact ih words s
    | some schedule => exact ih _ _

theorem initSweep (definitions : List Definition) (words : List Nat) (f : Fleet η κ) :
    let items := placements definitions words
    let swept := sweep (place p) items f
    let o := Outcome.empty.gather (items.map Prod.snd) swept.1
    (initSchedules p definitions words f).1 = o.conclude.map (fun _ => o.succeeded) ∧
      (initSchedules p definitions words f).2.1 = swept.2 := by
  have folded := foldAgenda p definitions words (Outcome.empty, f)
  rw [Outcome.foldForJobs (fun i : ScheduleSpec × Definition => upsert p i.1) Prod.snd] at folded
  have items : placements definitions words =
      ((agenda definitions words).flatMap fun i => i.2.listed.map fun l => (i, l)).map
        fun x => (x.1.1, x.2) := by
    simp only [placements, List.map_flatMap, List.map_map, Function.comp_def]
  simp only [items, sweepMap, List.map_map, Function.comp_def]
  simp only [initSchedules]
  generalize definitions.foldl (fun s d => scheduleDefinition p d s) ((Outcome.empty, f), words) = out
    at folded
  obtain ⟨⟨o, g⟩, left⟩ := out
  obtain ⟨rfl, rfl⟩ := Prod.mk.inj folded
  exact ⟨rfl, rfl⟩

end

def settleAt (r : ClientRegistry Connection) (n : Nat) (id : String)
    (stored : Option ScheduleDescription) (i : ScheduleSpec × ListedJob) : Option ScheduleDescription :=
  if (r.get? i.2.job.queue).map (·.engine) = some n ∧ i.2.name = id then
    i.1.settle i.2.name ⟨i.2.name, r.queueName i.2.job.queue, .null⟩ stored
  else stored

theorem Placed.settles {f g : Fleet Connection (Host σ)} {i : ScheduleSpec × ListedJob}
    (placed : Placed f g i.1 i.2.name i.2.job.queue) {r : ClientRegistry Connection}
    (grows : g.clients.Grows r) (n : Nat) (id : String) :
    g.stored n id = settleAt r n id (f.stored n id) i := by
  obtain ⟨c, held, stored⟩ := placed.stored
  rw [stored, settleAt, grows.get held, Option.map_some, grows.queueName, placed.grows.queueName]
  simp only [Option.some.injEq]

theorem Placed.reaches {f g : Fleet Connection (Host σ)} {s : ScheduleSpec} {name queue : String}
    (placed : Placed f g s name queue) {other : String} (reaches : f.Reaches other) :
    g.Reaches other := by
  rcases reaches with ⟨c, held⟩ | answers
  · exact .inl ⟨c, placed.grows.get held⟩
  · refine .inr ?_
    rw [placed.outages, placed.grows.queueName]
    exact answers

theorem sweepPlaced {f : Fleet Connection (Host σ)} (sound : f.Sound) (runText : RunId → String)
    {items : List (ScheduleSpec × ListedJob)} (fit : ∀ i ∈ items, i.1.Sound)
    (reaches : ∀ i ∈ items, f.Reaches i.2.job.queue) :
    let out := sweep (place (Host.platform runText)) items f
    out.1 = items.map (·.1.verdict) ∧ out.2.Sound ∧ f.clients.Grows out.2.clients ∧
      (∀ i ∈ items, ∃ c, out.2.clients.get? i.2.job.queue = some c) ∧
      ∀ r, out.2.clients.Grows r → ∀ n id,
        out.2.stored n id = items.foldl (settleAt r n id) (f.stored n id) := by
  induction items generalizing f with
  | nil => exact ⟨rfl, sound, .refl _, by simp, fun _ _ _ _ => rfl⟩
  | cons i rest ih =>
    obtain ⟨fit, later⟩ := List.forall_mem_cons.1 fit
    obtain ⟨near, far⟩ := List.forall_mem_cons.1 reaches
    have first : (place (Host.platform runText) i f).1 = i.1.verdict ∧
        (place (Host.platform runText) i f).2.Sound ∧
        Placed f (place (Host.platform runText) i f).2 i.1 i.2.name i.2.job.queue :=
      upsertPlaced sound runText fit i.2.name near
    obtain ⟨answer, safe, placed⟩ := first
    obtain ⟨answers, good, grows, held, stored⟩ :=
      ih safe later fun j inside => placed.reaches (far j inside)
    refine ⟨?_, good, placed.grows.trans grows, fun j inside => ?_, fun r more n id => ?_⟩
    · simp only [sweep, List.map_cons]
      exact congrArg₂ List.cons answer answers
    · rcases List.mem_cons.1 inside with rfl | inside
      · obtain ⟨c, connected, -⟩ := placed.stored
        exact ⟨c, grows.get connected⟩
      · exact held j inside
    · rw [List.foldl_cons, ← placed.settles (grows.trans more)]
      exact stored r more n id

section
variable {r : ClientRegistry Connection} {n : Nat} {id : String}

theorem settleAlike {i j : ScheduleSpec × ListedJob} (same : SamePlace i j) :
    (∀ stored, settleAt r n id stored i = stored ∧ settleAt r n id stored j = stored) ∨
      ∃ action, ∀ stored, settleAt r n id stored i = some (i.1.description id action stored) ∧
        settleAt r n id stored j = some (j.1.description id action stored) := by
  obtain ⟨s, _⟩ := i
  obtain ⟨t, l⟩ := j
  obtain ⟨alike, rfl⟩ := same
  simp only [settleAt]
  by_cases here : (r.get? l.job.queue).map (·.engine) = some n ∧ l.name = id
  · obtain ⟨leads, rfl⟩ := here
    simp only [leads, and_self, if_true, ScheduleSpec.settle, alike.verdict]
    cases s.verdict with
    | ok u => exact .inr ⟨_, fun stored => ⟨rfl, rfl⟩⟩
    | error e => exact .inl fun stored => ⟨rfl, rfl⟩
  · exact .inl fun stored => ⟨if_neg here, if_neg here⟩

theorem settleAtCases (i : ScheduleSpec × ListedJob) :
    (∀ stored, settleAt r n id stored i = stored) ∨
      ∃ action, ∀ stored, settleAt r n id stored i = some (i.1.description id action stored) := by
  have itself : SamePlace i i := ⟨⟨rfl, fun _ => rfl⟩, rfl⟩
  rcases settleAlike itself with leave | ⟨action, write⟩
  · exact .inl fun stored => (leave stored).1
  · exact .inr ⟨action, fun stored => (write stored).1⟩

theorem settledExpressions (items : List (ScheduleSpec × ListedJob)) {a b : Option ScheduleDescription}
    (same : a.map (·.expressions) = b.map (·.expressions)) :
    (items.foldr (fun i stored => settleAt r n id stored i) a).map (·.expressions) =
      (items.foldr (fun i stored => settleAt r n id stored i) b).map (·.expressions) := by
  induction items with
  | nil => exact same
  | cons i rest ih =>
    rw [List.foldr_cons, List.foldr_cons]
    rcases @settleAtCases r n id i with leaves | ⟨action, writes⟩
    · rw [leaves, leaves, ih]
    · rw [writes, writes]
      simp only [Option.map_some, ScheduleSpec.description, ih]

theorem settledNone {items : List (ScheduleSpec × ListedJob)}
    (bare : items.foldr (fun i stored => settleAt r n id stored i) none = none)
    (stored : Option ScheduleDescription) :
    items.foldr (fun i stored => settleAt r n id stored i) stored = stored := by
  induction items with
  | nil => rfl
  | cons i rest ih =>
    rw [List.foldr_cons] at bare ⊢
    rcases @settleAtCases r n id i with leaves | ⟨action, writes⟩
    · rw [leaves] at bare ⊢
      exact ih bare
    · rw [writes] at bare
      cases bare

theorem settledAgain {items again : List (ScheduleSpec × ListedJob)}
    (alike : List.Forall₂ SamePlace items again) {before left : Option ScheduleDescription}
    (told : items.foldr (fun i stored => settleAt r n id stored i) before = left) :
    again.foldr (fun i stored => settleAt r n id stored i) left = left := by
  subst told
  induction alike with
  | nil => rfl
  | @cons i j items again same rest ih =>
    simp only [List.foldr_cons] at ih ⊢
    generalize items.foldr (fun i stored => settleAt r n id stored i) before = left at ih ⊢
    rcases @settleAlike r n id i j same with leave | ⟨action, write⟩
    · rw [(leave _).1, (leave _).2, ih]
    · rw [(write _).1, (write _).2, Option.some.injEq]
      cases kept : i.1.preserve with
      | false =>
        simp only [ScheduleSpec.description, same.1.preserve, kept, same.1.expression kept]
        rfl
      | true =>
        have stays : (again.foldr (fun i stored => settleAt r n id stored i)
            (some (i.1.description id action left))).map (·.expressions) =
              some (i.1.description id action left).expressions := by
          cases left with
          | none =>
            rw [settledNone ih]
            rfl
          | some d =>
            have same : (some (i.1.description id action (some d))).map (·.expressions) =
                (some d).map (·.expressions) := by
              simp [ScheduleSpec.description, kept]
            rw [settledExpressions again same, ih, ← same]
            rfl
        rw [ScheduleSpec.description, same.1.preserve, if_pos kept, stays]
        rfl

end

/-- Putting the schedules in place again, with other draws, gives the same answer and leaves every
schedule of every engine as it is. -/
theorem initSchedulesAgain (runText : RunId → String) (definitions : List Definition)
    (first second : List UInt32) {f : Fleet Connection (Host σ)}
    (reachable : Fleet.Reachable runText f)
    (connects : ∀ d ∈ definitions, ∀ e ∈ d.jobs.entries,
      ∃ c, (f.getOrCreate (Host.platform runText) e.2.queue).1 = .ok c) :
    let p := Host.platform runText
    let one := initSchedules p definitions (first.map UInt32.toNat) f
    let two := initSchedules p definitions (second.map UInt32.toNat) one.2.1
    two.1 = one.1 ∧
      ∀ n, (two.2.1.state.engine n).schedules = (one.2.1.state.engine n).schedules := by
  intro p one two
  have alike := placementsAlike definitions (first.map UInt32.toNat) (second.map UInt32.toNat)
  obtain ⟨jobs, verdicts⟩ := samePlaces alike
  have fits (words : List UInt32) : ∀ i ∈ placements definitions (words.map UInt32.toNat), i.1.Sound :=
    fun i inside => (placementsSound (Draw.narrowOfWords words) inside).1
  have reaches : ∀ i ∈ placements definitions (first.map UInt32.toNat), f.Reaches i.2.job.queue := by
    intro i inside
    obtain ⟨-, d, known, e, entry, same⟩ := placementsSound (Draw.narrowOfWords first) inside
    obtain ⟨c, connected⟩ := connects d known e entry
    rw [same]
    exact Fleet.reachesOf connected
  obtain ⟨outcomeOne, fleetOne⟩ := initSweep p definitions (first.map UInt32.toNat) f
  obtain ⟨answersOne, soundOne, -, held, storedOne⟩ :=
    sweepPlaced reachable.sound runText (fits first) reaches
  rw [← fleetOne] at soundOne held storedOne
  -- after the first pass every queue is connected, so the second reaches the same engines
  have reachesAgain : ∀ i ∈ placements definitions (second.map UInt32.toNat),
      one.2.1.Reaches i.2.job.queue := by
    intro i inside
    have listed : i.2 ∈ (placements definitions (first.map UInt32.toNat)).map Prod.snd :=
      jobs ▸ List.mem_map_of_mem inside
    obtain ⟨j, earlier, same⟩ := List.mem_map.1 listed
    rw [← same]
    exact .inl (held j earlier)
  obtain ⟨outcomeTwo, fleetTwo⟩ := initSweep p definitions (second.map UInt32.toNat) one.2.1
  obtain ⟨answersTwo, -, grows, -, storedTwo⟩ :=
    sweepPlaced soundOne runText (fits second) reachesAgain
  rw [← fleetTwo] at grows storedTwo
  refine ⟨?_, fun n => SortedMap.eqOfGet fun id => ?_⟩
  · rw [outcomeOne, outcomeTwo, answersOne, answersTwo, jobs, verdicts]
  · have left := storedOne two.2.1.clients grows n id
    have after := storedTwo two.2.1.clients (.refl _) n id
    rw [List.foldl_eq_foldr_reverse] at left after
    exact after.trans (settledAgain (List.forall₂_reverse_iff.2 alike) left.symm)

def nightly (name schedule job : String) : Definition :=
  ⟨name, ⟨[], some ⟨schedule⟩⟩, SortedMap.empty.insert job ⟨"", none, []⟩⟩

def mixed : List Definition :=
  [nightly "drawn" "random-daily" "backup", nightly "unreadable" "hourly" "audit",
    nightly "drawn" "Random_Hourly" "report", nightly "fixed" "0 3 * * *" "report"]

def idle : Fleet Connection (Host Unit) :=
  ⟨⟨.standard, none, ⟨"1", "localhost"⟩, .empty⟩, .start false .empty 0 ()⟩

theorem initSchedulesAgainMixed :
    let one := initSchedules (Host.platform fun run => toString run.number) mixed
      ([7, 9].map UInt32.toNat) idle
    let two := initSchedules (Host.platform fun run => toString run.number) mixed
      ([3000000000, 4000000000].map UInt32.toNat) one.2.1
    (two.1 = one.1 ∧ ∀ n, (two.2.1.state.engine n).schedules = (one.2.1.state.engine n).schedules) ∧
      (two.2.1.state.engine 0).expressions? "backup" = some ["0 0 * * *"] ∧
      (two.2.1.state.engine 0).expressions? "report" = some ["0 3 * * *"] ∧
      (two.2.1.state.engine 0).expressions? "audit" = none := by
  have reachable : Fleet.Reachable (fun run => toString run.number) idle := .start rfl ..
  have connects : ∀ d ∈ mixed, ∀ e ∈ d.jobs.entries,
      ∃ c, (idle.getOrCreate (Host.platform fun run => toString run.number) e.2.queue).1 = .ok c :=
    fun d _ e _ => ⟨⟨0, 0⟩, rfl⟩
  have again := initSchedulesAgain _ mixed [7, 9] [3000000000, 4000000000] reachable connects
  refine ⟨again, ?_, ?_, ?_⟩
  · decide +kernel
  · decide +kernel
  · decide +kernel

end Orchestration.Dispatcher
