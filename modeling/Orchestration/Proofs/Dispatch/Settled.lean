import Orchestration.Proofs.Dispatch.InitSchedules

/-! What one pass over the schedules leaves behind. An id that no scheduled definition has is
not touched. An id that one of them has alone is settled by that definition, with the
expression drawn for it, whatever became of the jobs before it. -/
namespace Orchestration

namespace Outcome
variable {α : Type}

theorem Parted.answered {jobs : List ListedJob} {answers : List (Except Error α)} {results : List α}
    {succeeded : List String} {failures : List (JobFailure Error)}
    (parted : Parted jobs answers results succeeded failures) {l : ListedJob} {answer : Except Error α}
    (inside : (l, answer) ∈ jobs.zip answers) :
    (∀ result, answer = .ok result → l.name ∈ succeeded) ∧
      ∀ e, answer = .error e → ⟨l.workflow, l.name, e⟩ ∈ failures := by
  induction parted with
  | nil => simp at inside
  | @ok l' jobs result answers results succeeded failures rest ih =>
    rcases List.mem_cons.1 inside with same | later
    · cases same
      refine ⟨fun _ _ => List.mem_cons_self, fun e bad => ?_⟩
      cases bad
    · obtain ⟨fine, failed⟩ := ih later
      exact ⟨fun result ok => List.mem_cons_of_mem _ (fine result ok), failed⟩
  | @error l' jobs e' answers results succeeded failures rest ih =>
    rcases List.mem_cons.1 inside with same | later
    · cases same
      refine ⟨fun result ok => ?_, fun e bad => ?_⟩
      · cases ok
      · cases bad
        exact List.mem_cons_self
    · obtain ⟨fine, failed⟩ := ih later
      exact ⟨fine, fun e bad => List.mem_cons_of_mem _ (failed e bad)⟩

end Outcome

namespace Dispatcher

variable {σ : Type}

def judge (schedule : String) : Except Error Unit :=
  match ScheduleClass.parse schedule with
  | some _ => .ok ()
  | none => (CronExpression.read (Text.trim schedule)).map fun _ => ()

/-- What a definition makes of a schedule of one of its jobs, with the random words that are left
when its turn comes. -/
def settled (schedule : String) (words : List Nat) (name : String) (action : ScheduleAction)
    (stored : Option ScheduleDescription) : Option ScheduleDescription :=
  match ScheduleClass.parse schedule with
  | some c =>
    some ⟨name, (stored.map (·.expressions)).getD [c.expression (Draw.below c.bound words)], action⟩
  | none =>
    match CronExpression.read (Text.trim schedule) with
    | .ok _ => some ⟨name, [Text.trim schedule], action⟩
    | .error _ => stored

theorem resolveVerdict (schedule : String) (words : List Nat) :
    (ScheduleSpec.resolve schedule words).1.verdict = judge schedule := by
  rw [ScheduleSpec.resolve, judge]
  cases ScheduleClass.parse schedule <;> rfl

theorem resolveSettle (schedule : String) (words : List Nat) (name : String) (action : ScheduleAction)
    (stored : Option ScheduleDescription) :
    (ScheduleSpec.resolve schedule words).1.settle name action stored =
      settled schedule words name action stored := by
  rw [ScheduleSpec.settle, resolveVerdict, judge, settled, ScheduleSpec.resolve]
  cases ScheduleClass.parse schedule with
  | some c => rfl
  | none => cases CronExpression.read (Text.trim schedule) <;> rfl

def leftover : List Definition → List Nat → List Nat
  | [], words => words
  | d :: rest, words =>
    match d.cronSchedule with
    | none => leftover rest words
    | some schedule => leftover rest (ScheduleSpec.resolve schedule words).2

def scheduledJobs (definitions : List Definition) : List (String × ListedJob) :=
  definitions.flatMap fun d =>
    match d.cronSchedule with
    | none => []
    | some schedule => d.listed.map fun l => (schedule, l)

theorem placementsSkip {d : Definition} (unscheduled : d.cronSchedule = none) (rest : List Definition)
    (words : List Nat) : placements (d :: rest) words = placements rest words := by
  simp only [placements, agenda, unscheduled]

theorem placementsCons {d : Definition} {schedule : String} (scheduled : d.cronSchedule = some schedule)
    (rest : List Definition) (words : List Nat) :
    placements (d :: rest) words =
      (d.listed.map fun l => ((ScheduleSpec.resolve schedule words).1, l)) ++
        placements rest (ScheduleSpec.resolve schedule words).2 := by
  simp only [placements, agenda, scheduled, List.flatMap_cons]

theorem placementsAppend (before after : List Definition) (words : List Nat) :
    placements (before ++ after) words =
      placements before words ++ placements after (leftover before words) := by
  induction before generalizing words with
  | nil => rfl
  | cons d rest ih =>
    rw [List.cons_append, leftover]
    cases scheduled : d.cronSchedule with
    | none => rw [placementsSkip scheduled, placementsSkip scheduled, ih]
    | some schedule =>
      rw [placementsCons scheduled, placementsCons scheduled, ih, List.append_assoc]

theorem placementsNamed {definitions : List Definition} {words : List Nat}
    {i : ScheduleSpec × ListedJob} (inside : i ∈ placements definitions words) :
    ∃ d ∈ definitions, d.cronSchedule ≠ none ∧ ∃ e ∈ d.jobs.entries, i.2 = ⟨d.name, e.1, e.2⟩ := by
  induction definitions generalizing words with
  | nil => cases inside
  | cons d rest ih =>
    cases scheduled : d.cronSchedule with
    | none =>
      rw [placementsSkip scheduled] at inside
      obtain ⟨other, known, found⟩ := ih inside
      exact ⟨other, List.mem_cons_of_mem d known, found⟩
    | some schedule =>
      rw [placementsCons scheduled, List.mem_append] at inside
      rcases inside with own | later
      · obtain ⟨l, listed, rfl⟩ := List.mem_map.1 own
        obtain ⟨e, entry, rfl⟩ := List.mem_map.1 listed
        exact ⟨d, List.mem_cons_self, by simp [scheduled], e, entry, rfl⟩
      · obtain ⟨other, known, found⟩ := ih later
        exact ⟨other, List.mem_cons_of_mem d known, found⟩

theorem placementsJudged (definitions : List Definition) (words : List Nat) :
    (placements definitions words).map (fun i => (i.1.verdict, i.2)) =
      (scheduledJobs definitions).map fun j => (judge j.1, j.2) := by
  induction definitions generalizing words with
  | nil => rfl
  | cons d rest ih =>
    rw [scheduledJobs, List.flatMap_cons, List.map_append]
    cases scheduled : d.cronSchedule with
    | none =>
      rw [placementsSkip scheduled, ih]
      rfl
    | some schedule =>
      rw [placementsCons scheduled, List.map_append, ih]
      simp only [List.map_map, Function.comp_def, resolveVerdict]
      rfl

theorem onlyPlacement {before after : List Definition} {d : Definition} {schedule name : String}
    {job : Job} (scheduled : d.cronSchedule = some schedule) (entry : (name, job) ∈ d.jobs.entries)
    (alone : ∀ other ∈ before ++ after, other.cronSchedule ≠ none → name ∉ other.jobs.keys)
    (words : List Nat) :
    ∃ earlier later, placements (before ++ d :: after) words =
        earlier ++ ((ScheduleSpec.resolve schedule (leftover before words)).1, ⟨d.name, name, job⟩) :: later ∧
      ∀ i ∈ earlier ++ later, i.2.name ≠ name := by
  obtain ⟨front, back, split⟩ := List.append_of_mem entry
  have distinct := d.jobs.keysNodup
  rw [SortedMap.keys, split, List.map_append, List.map_cons, List.nodup_middle, List.nodup_cons] at distinct
  have own : ∀ e ∈ front ++ back, e.1 ≠ name := by
    rintro e inside rfl
    rw [← List.map_append] at distinct
    exact distinct.1 (List.mem_map.2 ⟨e, inside, rfl⟩)
  have elsewhere {definitions : List Definition} {left : List Nat}
      (part : ∀ other ∈ definitions, other ∈ before ++ after) :
      ∀ i ∈ placements definitions left, i.2.name ≠ name := by
    rintro i inside rfl
    obtain ⟨other, known, has, e, found, same⟩ := placementsNamed inside
    refine alone other (part other known) has ?_
    rw [same]
    exact List.mem_map_of_mem found
  let spec := (ScheduleSpec.resolve schedule (leftover before words)).1
  let placed (e : String × Job) : ScheduleSpec × ListedJob := (spec, ⟨d.name, e.1, e.2⟩)
  refine ⟨placements before words ++ front.map placed,
    back.map placed ++ placements after (ScheduleSpec.resolve schedule (leftover before words)).2,
    ?_, fun i inside => ?_⟩
  · rw [placementsAppend, placementsCons scheduled, Definition.listed, split]
    simp only [List.map_append, List.map_cons, List.map_map, Function.comp_def, List.append_assoc,
      List.cons_append, placed, spec]
  · simp only [List.mem_append, List.mem_map] at inside
    rcases inside with (first | ⟨e, found, rfl⟩) | (⟨e, found, rfl⟩ | last)
    · exact elsewhere (fun other known => List.mem_append_left _ known) i first
    · exact own e (List.mem_append_left _ found)
    · exact own e (List.mem_append_right _ found)
    · exact elsewhere (fun other known => List.mem_append_right _ known) i last

theorem settleOthers {r : ClientRegistry Connection} {n : Nat} {id : String}
    {items : List (ScheduleSpec × ListedJob)} (others : ∀ i ∈ items, i.2.name ≠ id)
    (stored : Option ScheduleDescription) : items.foldl (settleAt r n id) stored = stored := by
  induction items generalizing stored with
  | nil => rfl
  | cons i rest ih =>
    obtain ⟨other, later⟩ := List.forall_mem_cons.1 others
    rw [List.foldl_cons, settleAt, if_neg fun here => other here.2]
    exact ih later stored

theorem initConcluded {η κ : Type} (p : Platform σ η κ) (definitions : List Definition)
    (words : List Nat) (f : Fleet η κ)
    (answers : (sweep (place p) (placements definitions words) f).1 =
      (placements definitions words).map (·.1.verdict)) :
    ∃ units succeeded failures,
      Outcome.Parted ((scheduledJobs definitions).map (·.2))
        ((scheduledJobs definitions).map (judge ·.1)) units succeeded failures ∧
      (initSchedules p definitions words f).1 =
        if failures = [] then .ok succeeded else .error (.dispatch succeeded failures) := by
  have judged := placementsJudged definitions words
  have verdicts : (placements definitions words).map (·.1.verdict) =
      (scheduledJobs definitions).map (judge ·.1) := by
    simpa [Function.comp_def] using congrArg (List.map Prod.fst) judged
  have jobs : (placements definitions words).map Prod.snd = (scheduledJobs definitions).map (·.2) := by
    simpa [Function.comp_def] using congrArg (List.map Prod.snd) judged
  obtain ⟨outcome, -⟩ := initSweep p definitions words f
  have count : ((scheduledJobs definitions).map (·.2)).length =
      ((scheduledJobs definitions).map (judge ·.1)).length := by
    rw [List.length_map, List.length_map]
  obtain ⟨units, succeeded, failures, parted, named, concluded⟩ := Outcome.concludeParted count
  refine ⟨units, succeeded, failures, parted, ?_⟩
  rw [outcome, answers, verdicts, jobs, concluded, named]
  split <;> rfl

/-- One pass, whatever the engines held and whatever is drawn: schedules of other ids stay, a job
that one scheduled definition alone has is settled on the engine behind its queue and nowhere
else, and every job of every scheduled definition is answered for by its own schedule. -/
theorem schedulesAfterPass (runText : RunId → String) (definitions : List Definition)
    (words : List UInt32) {f : Fleet Connection (Host σ)} (reachable : Fleet.Reachable runText f)
    (connects : ∀ d ∈ definitions, d.cronSchedule ≠ none → ∀ e ∈ d.jobs.entries,
      ∃ c, (f.getOrCreate (Host.platform runText) e.2.queue).1 = .ok c) :
    let drawn := words.map UInt32.toNat
    let out := initSchedules (Host.platform runText) definitions drawn f
    (∀ id, (∀ d ∈ definitions, d.cronSchedule ≠ none → id ∉ d.jobs.keys) →
        ∀ n, out.2.1.stored n id = f.stored n id) ∧
      (∀ before d after schedule name job, definitions = before ++ d :: after →
        d.cronSchedule = some schedule → (name, job) ∈ d.jobs.entries →
        (∀ other ∈ before ++ after, other.cronSchedule ≠ none → name ∉ other.jobs.keys) →
        ∃ client, out.2.1.clients.get? job.queue = some client ∧
          ∀ n, out.2.1.stored n name =
            if client.engine = n then
              settled schedule (leftover before drawn) name
                ⟨name, f.clients.queueName job.queue, .null⟩ (f.stored n name)
            else f.stored n name) ∧
      ∃ units succeeded failures,
        Outcome.Parted ((scheduledJobs definitions).map (·.2))
          ((scheduledJobs definitions).map (judge ·.1)) units succeeded failures ∧
        out.1 = (if failures = [] then .ok succeeded else .error (.dispatch succeeded failures)) ∧
        ∀ j ∈ scheduledJobs definitions,
          (∀ u, judge j.1 = .ok u → j.2.name ∈ succeeded) ∧
            ∀ e, judge j.1 = .error e → ⟨j.2.workflow, j.2.name, e⟩ ∈ failures := by
  intro drawn out
  have fit : ∀ i ∈ placements definitions drawn, i.1.Sound := fun i inside =>
    (placementsSound (Draw.narrowOfWords words) inside).1
  have reaches : ∀ i ∈ placements definitions drawn, f.Reaches i.2.job.queue := by
    intro i inside
    obtain ⟨d, known, scheduled, e, entry, same⟩ := placementsNamed inside
    obtain ⟨c, connected⟩ := connects d known scheduled e entry
    rw [same]
    exact Fleet.reachesOf connected
  obtain ⟨answers, -, grows, held, stored⟩ := sweepPlaced reachable.sound runText fit reaches
  rw [← (initSweep (Host.platform runText) definitions drawn f).2] at grows held stored
  have told := stored out.2.1.clients (.refl _)
  refine ⟨fun id absent n => ?_, fun before d after schedule name job split scheduled entry alone => ?_,
    ?_⟩
  · rw [told n id]
    refine settleOthers (fun i inside same => ?_) _
    obtain ⟨d, known, scheduled, e, entry, listed⟩ := placementsNamed inside
    refine absent d known scheduled ?_
    rw [← same, listed]
    exact List.mem_map_of_mem entry
  · obtain ⟨earlier, later, placed, others⟩ := onlyPlacement scheduled entry alone drawn
    rw [← split] at placed
    obtain ⟨client, connected⟩ := held _ (placed ▸ List.mem_append_right _ List.mem_cons_self)
    refine ⟨client, connected, fun n => ?_⟩
    have engine : (out.2.1.clients.get? job.queue).map (·.engine) = some client.engine :=
      congrArg (Option.map (·.engine)) connected
    rw [told n name, placed, List.foldl_append, List.foldl_cons,
      settleOthers fun i inside => others i (List.mem_append_left _ inside),
      settleOthers fun i inside => others i (List.mem_append_right _ inside),
      settleAt, resolveSettle, grows.queueName]
    simp only [engine, Option.some.injEq, and_true]
  · obtain ⟨units, succeeded, failures, parted, concluded⟩ :=
      initConcluded (Host.platform runText) definitions drawn f answers
    refine ⟨units, succeeded, failures, parted, concluded, fun j inside => parted.answered ?_⟩
    rw [List.zip_map']
    exact List.mem_map_of_mem inside

def prepared : Fleet Connection (Host Unit) :=
  let p := Host.platform fun run => toString run.number
  let connected := (idle.getOrCreate p "").2
  let kept : ScheduleAction := ⟨"old", "elsewhere", .str "kept"⟩
  ⟨connected.clients, (p.createSchedule ⟨0, 0⟩ "backup" "1 2 * * *" kept connected.state).2⟩

def nights : List Definition :=
  [nightly "drawn" "random-daily" "backup", nightly "unreadable" "hourly" "audit",
    nightly "fixed" " 0 3 * * * " "report"]

theorem schedulesAfterPassNights :
    let out := initSchedules (Host.platform fun run => toString run.number) nights
      ([7, 9].map UInt32.toNat) prepared
    (∀ n, out.2.1.stored n "untouched" = prepared.stored n "untouched") ∧
      (∃ client, out.2.1.clients.get? "" = some client ∧
        ∀ n, out.2.1.stored n "backup" =
          if client.engine = n then
            settled "random-daily" [7, 9] "backup" ⟨"backup", "default", .null⟩ (prepared.stored n "backup")
          else prepared.stored n "backup") ∧
      out.2.1.stored 0 "backup" = some ⟨"backup", ["1 2 * * *"], ⟨"backup", "default", .null⟩⟩ ∧
      out.2.1.stored 0 "audit" = none ∧
      out.2.1.stored 0 "report" = some ⟨"report", ["0 3 * * *"], ⟨"report", "default", .null⟩⟩ ∧
      ∃ succeeded failures, out.1 = .error (.dispatch succeeded failures) ∧
        "report" ∈ succeeded ∧ ∃ e, ⟨"unreadable", "audit", e⟩ ∈ failures := by
  have reachable : Fleet.Reachable (fun run => toString run.number) prepared :=
    .host (.getOrCreate (.start rfl ..) "") (.createSchedule ..)
  have blank : ∀ d ∈ nights, ∀ e ∈ d.jobs.entries, e.2.queue = "" := by decide +kernel
  have connects : ∀ d ∈ nights, d.cronSchedule ≠ none → ∀ e ∈ d.jobs.entries,
      ∃ c, (prepared.getOrCreate (Host.platform fun run => toString run.number) e.2.queue).1 = .ok c := by
    intro d known _ e entry
    rw [blank d known e entry]
    exact ⟨⟨0, 0⟩, rfl⟩
  obtain ⟨untouched, own, units, succeeded, failures, -, concluded, told⟩ :=
    schedulesAfterPass _ nights [7, 9] reachable connects
  obtain ⟨u, valid⟩ : ∃ u, judge "0 3 * * *" = .ok u := by
    have fine : (judge "0 3 * * *").isOk = true := by decide +kernel
    cases verdict : judge "0 3 * * *" with
    | ok u => exact ⟨u, rfl⟩
    | error e =>
      rw [verdict] at fine
      cases fine
  have report := (told ("0 3 * * *", ⟨"fixed", "report", ⟨"", none, []⟩⟩) (by decide +kernel)).1 u
    valid
  have audit := (told ("hourly", ⟨"unreadable", "audit", ⟨"", none, []⟩⟩) (by decide +kernel)).2
    (.cronWordCount "hourly") rfl
  have failed : failures ≠ [] := List.ne_nil_of_mem audit
  rw [if_neg failed] at concluded
  refine ⟨untouched "untouched" (by decide +kernel),
    own [] _ _ "random-daily" "backup" ⟨"", none, []⟩ rfl (by decide +kernel) (by decide +kernel)
      (by decide +kernel), ?_, ?_, ?_, succeeded, failures, concluded, report, _, audit⟩
  · decide +kernel
  · decide +kernel
  · decide +kernel

end Dispatcher
end Orchestration
