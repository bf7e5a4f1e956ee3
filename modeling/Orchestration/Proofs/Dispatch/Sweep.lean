import Mathlib.Data.List.Forall2
import Orchestration.Dispatch.Dispatcher

/-! A pass over jobs as one sweep: the jobs of all definitions in one row, each attempted
on the state the one before it left, and the answers parted afterwards. Starting jobs and
putting schedules in place are both sweeps, so that no answer can keep a later job from
being attempted. -/
namespace Orchestration

structure ListedJob where
  workflow : String
  name : String
  job : Job
  deriving DecidableEq, Repr

def Definition.listed (d : Definition) : List ListedJob :=
  d.jobs.entries.map fun e => ⟨d.name, e.1, e.2⟩

section
variable {ι α φ : Type}

def sweep (attempt : ι → φ → Except Error α × φ) : List ι → φ → List (Except Error α) × φ
  | [], f => ([], f)
  | i :: rest, f =>
    let next := sweep attempt rest (attempt i f).2
    ((attempt i f).1 :: next.1, next.2)

theorem sweepAppend (attempt : ι → φ → Except Error α × φ) (a b : List ι) (f : φ) :
    sweep attempt (a ++ b) f =
      ((sweep attempt a f).1 ++ (sweep attempt b (sweep attempt a f).2).1,
        (sweep attempt b (sweep attempt a f).2).2) := by
  induction a generalizing f with
  | nil => rfl
  | cons i rest ih => simp only [List.cons_append, sweep, ih]

theorem sweepLength (attempt : ι → φ → Except Error α × φ) (items : List ι) (f : φ) :
    (sweep attempt items f).1.length = items.length := by
  induction items generalizing f with
  | nil => rfl
  | cons i rest ih => exact congrArg Nat.succ (ih _)

theorem sweepMap {δ : Type} (attempt : ι → φ → Except Error α × φ) (g : δ → ι) (items : List δ)
    (f : φ) : sweep attempt (items.map g) f = sweep (fun d => attempt (g d)) items f := by
  induction items generalizing f with
  | nil => rfl
  | cons d rest ih => simp only [List.map_cons, sweep, ih]

theorem sweepView {ψ : Type} (see : φ → ψ) {attempt : ι → φ → Except Error α × φ}
    {seen : ι → ψ → Except Error α × ψ}
    (same : ∀ i f, (attempt i f).1 = (seen i (see f)).1 ∧ see (attempt i f).2 = (seen i (see f)).2)
    (items : List ι) (f : φ) : (sweep attempt items f).1 = (sweep seen items (see f)).1 ∧
      see (sweep attempt items f).2 = (sweep seen items (see f)).2 := by
  induction items generalizing f with
  | nil => exact ⟨rfl, rfl⟩
  | cons i rest ih =>
    obtain ⟨answer, left⟩ := same i f
    obtain ⟨answers, last⟩ := ih (attempt i f).2
    rw [left] at answers last
    exact ⟨by rw [sweep, sweep, answer, answers], last⟩

end

namespace Outcome
variable {α φ : Type}

def gather (o : Outcome α) : List ListedJob → List (Except Error α) → Outcome α
  | l :: jobs, answer :: answers => gather (o.add l.workflow l.name answer) jobs answers
  | _, _ => o

theorem gatherAppend {a b : List ListedJob} {as bs : List (Except Error α)} (o : Outcome α)
    (same : a.length = as.length) : o.gather (a ++ b) (as ++ bs) = (o.gather a as).gather b bs := by
  induction a generalizing as o with
  | nil =>
    cases List.length_eq_zero_iff.1 same.symm
    rfl
  | cons l rest ih =>
    cases as with
    | nil => simp at same
    | cons answer answers => exact ih _ (Nat.succ.inj same)

/-- Answers parted into results, with the names of their jobs, and failures, each in order. -/
inductive Parted : List ListedJob → List (Except Error α) →
    List α → List String → List (JobFailure Error) → Prop where
  | nil : Parted [] [] [] [] []
  | ok {l jobs result answers results succeeded failures}
      (rest : Parted jobs answers results succeeded failures) :
      Parted (l :: jobs) (.ok result :: answers) (result :: results) (l.name :: succeeded) failures
  | error {l jobs e answers results succeeded failures}
      (rest : Parted jobs answers results succeeded failures) :
      Parted (l :: jobs) (.error e :: answers) results succeeded
        (⟨l.workflow, l.name, e⟩ :: failures)

theorem gatherParted {jobs : List ListedJob} {answers : List (Except Error α)} (o : Outcome α)
    (same : jobs.length = answers.length) :
    ∃ results succeeded failures, Parted jobs answers results succeeded failures ∧
      o.gather jobs answers =
        ⟨o.results ++ results, o.succeeded ++ succeeded, o.failures ++ failures⟩ := by
  induction jobs generalizing answers o with
  | nil =>
    cases List.length_eq_zero_iff.1 same.symm
    exact ⟨[], [], [], .nil, by simp [gather]⟩
  | cons l rest ih =>
    cases answers with
    | nil => simp at same
    | cons answer answers =>
      obtain ⟨results, succeeded, failures, parted, gathered⟩ :=
        ih (o.add l.workflow l.name answer) (Nat.succ.inj same)
      cases answer with
      | ok result =>
        refine ⟨result :: results, l.name :: succeeded, failures, .ok parted, gathered.trans ?_⟩
        simp [add]
      | error e =>
        refine ⟨results, succeeded, ⟨l.workflow, l.name, e⟩ :: failures, .error parted, ?_⟩
        refine gathered.trans ?_
        simp [add]

theorem Parted.allOk {jobs : List ListedJob} {answers : List (Except Error α)} {results : List α}
    {succeeded : List String} {failures : List (JobFailure Error)}
    (parted : Parted jobs answers results succeeded failures) :
    failures = [] ↔ answers = results.map .ok := by
  induction parted with
  | nil => simp
  | ok rest ih => simp [ih]
  | @error l jobs e answers results succeeded failures rest ih =>
    constructor
    · intro none
      cases none
    · intro all
      cases results <;> simp at all

theorem Parted.results {jobs : List ListedJob} {answers : List (Except Error α)} {results : List α}
    {succeeded : List String} {failures : List (JobFailure Error)}
    (parted : Parted jobs answers results succeeded failures) :
    answers.filterMap Except.toOption = results := by
  induction parted with
  | nil => rfl
  | ok rest ih => exact congrArg _ ih
  | error rest ih => exact ih

theorem Parted.noneOk {jobs : List ListedJob} {answers : List (Except Error α)} {results : List α}
    {succeeded : List String} {failures : List (JobFailure Error)}
    (parted : Parted jobs answers results succeeded failures) :
    results = [] ↔ answers = (failures.map (·.error)).map .error := by
  induction parted with
  | nil => simp
  | @ok l jobs result answers results succeeded failures rest ih =>
    constructor
    · intro none
      cases none
    · intro all
      cases failures <;> simp at all
  | error rest ih => simp [ih]

theorem Parted.lengths {jobs : List ListedJob} {answers : List (Except Error α)} {results : List α}
    {succeeded : List String} {failures : List (JobFailure Error)}
    (parted : Parted jobs answers results succeeded failures) :
    jobs.length = results.length + failures.length := by
  induction parted with
  | nil => rfl
  | ok rest ih =>
    simp only [List.length_cons, ih]
    omega
  | error rest ih =>
    simp only [List.length_cons, ih]
    omega

theorem Parted.okMem {jobs : List ListedJob} {answers : List (Except Error α)} {results : List α}
    {succeeded : List String} {failures : List (JobFailure Error)}
    (parted : Parted jobs answers results succeeded failures) {a : α} :
    .ok a ∈ answers ↔ a ∈ results := by
  induction parted with
  | nil => simp
  | ok rest ih => simp [ih]
  | error rest ih => simp [ih]

theorem Parted.allErrors {jobs : List ListedJob} {answers : List (Except Error α)} {results : List α}
    {succeeded : List String} {failures : List (JobFailure Error)}
    (parted : Parted jobs answers results succeeded failures) :
    results = [] ↔ ∀ answer ∈ answers, ∃ e, answer = .error e := by
  constructor
  · intro none answer inside
    rw [parted.noneOk.1 none] at inside
    obtain ⟨e, -, same⟩ := List.mem_map.1 inside
    exact ⟨e, same.symm⟩
  · intro failed
    refine List.eq_nil_iff_forall_not_mem.2 fun a inside => ?_
    obtain ⟨e, same⟩ := failed _ (parted.okMem.2 inside)
    cases same

theorem Parted.someError {jobs : List ListedJob} {answers : List (Except Error α)} {results : List α}
    {succeeded : List String} {failures : List (JobFailure Error)}
    (parted : Parted jobs answers results succeeded failures) (failed : failures ≠ []) :
    ∃ e, .error e ∈ answers := by
  induction parted with
  | nil => exact absurd rfl failed
  | ok rest ih =>
    obtain ⟨e, inside⟩ := ih failed
    exact ⟨e, List.mem_cons_of_mem _ inside⟩
  | error rest ih => exact ⟨_, List.mem_cons_self⟩

theorem Parted.drawn {R : ListedJob → Except Error α → Prop} {jobs : List ListedJob}
    {answers : List (Except Error α)} {results : List α} {succeeded : List String}
    {failures : List (JobFailure Error)} (parted : Parted jobs answers results succeeded failures)
    (each : List.Forall₂ R jobs answers) : ∀ a ∈ results, ∃ l ∈ jobs, R l (.ok a) := by
  induction parted with
  | nil => exact fun a inside => nomatch inside
  | @ok l jobs result answers results succeeded failures rest ih =>
    obtain ⟨head, tail⟩ := List.forall₂_cons.1 each
    refine List.forall_mem_cons.2 ⟨⟨l, List.mem_cons_self, head⟩, fun a inside => ?_⟩
    obtain ⟨other, listed, holds⟩ := ih tail a inside
    exact ⟨other, List.mem_cons_of_mem l listed, holds⟩
  | @error l jobs e answers results succeeded failures rest ih =>
    obtain ⟨-, tail⟩ := List.forall₂_cons.1 each
    intro a inside
    obtain ⟨other, listed, holds⟩ := ih tail a inside
    exact ⟨other, List.mem_cons_of_mem l listed, holds⟩

theorem Parted.sorted {R : ListedJob → Except Error α → Prop} {jobs : List ListedJob}
    {answers : List (Except Error α)} {results : List α} {succeeded : List String}
    {failures : List (JobFailure Error)} (parted : Parted jobs answers results succeeded failures)
    (each : List.Forall₂ R jobs answers) : ∀ l ∈ jobs,
      (∃ a ∈ results, R l (.ok a)) ∨ ∃ e, ⟨l.workflow, l.name, e⟩ ∈ failures := by
  induction parted with
  | nil => exact fun l inside => nomatch inside
  | @ok l jobs result answers results succeeded failures rest ih =>
    obtain ⟨head, tail⟩ := List.forall₂_cons.1 each
    refine List.forall_mem_cons.2 ⟨.inl ⟨result, List.mem_cons_self, head⟩, fun other inside => ?_⟩
    refine (ih tail other inside).imp_left fun fine => ?_
    obtain ⟨a, made, holds⟩ := fine
    exact ⟨a, List.mem_cons_of_mem result made, holds⟩
  | @error l jobs e answers results succeeded failures rest ih =>
    obtain ⟨-, tail⟩ := List.forall₂_cons.1 each
    refine List.forall_mem_cons.2 ⟨.inr ⟨e, List.mem_cons_self⟩, fun other inside => ?_⟩
    refine (ih tail other inside).imp_right fun failed => ?_
    obtain ⟨reason, known⟩ := failed
    exact ⟨reason, List.mem_cons_of_mem _ known⟩

theorem forJobsSweep (attempt : String → Job → φ → Except Error α × φ) (d : Definition)
    (o : Outcome α) (f : φ) :
    forJobs attempt d.name d.jobs.entries (o, f) =
      (o.gather d.listed (sweep (fun l => attempt l.name l.job) d.listed f).1,
        (sweep (fun l => attempt l.name l.job) d.listed f).2) := by
  simp only [Definition.listed]
  generalize d.jobs.entries = entries
  induction entries generalizing o f with
  | nil => rfl
  | cons e rest ih => simp only [forJobs, List.map_cons, sweep, gather, ih]

theorem foldForJobs {δ : Type} (attempt : δ → String → Job → φ → Except Error α × φ)
    (definition : δ → Definition) (ds : List δ) (o : Outcome α) (f : φ) :
    let items := ds.flatMap fun d => (definition d).listed.map fun l => (d, l)
    let swept := sweep (fun i : δ × ListedJob => attempt i.1 i.2.name i.2.job) items f
    ds.foldl (fun s d => forJobs (attempt d) (definition d).name (definition d).jobs.entries s) (o, f) =
      (o.gather (items.map Prod.snd) swept.1, swept.2) := by
  induction ds generalizing o f with
  | nil => rfl
  | cons d rest ih =>
    have own : (((definition d).listed.map fun l => (d, l)).map Prod.snd) = (definition d).listed := by
      simp [List.map_map, Function.comp_def]
    simp only [List.foldl_cons, forJobsSweep, ih, List.flatMap_cons, sweepAppend, sweepMap,
      List.map_append, own]
    rw [gatherAppend _ (sweepLength _ _ _).symm]

theorem concludeEq (o : Outcome α) :
    o.conclude = if o.failures = [] then .ok o.results else .error (.dispatch o.succeeded o.failures) := by
  simp [conclude]

theorem concludeParted {jobs : List ListedJob} {answers : List (Except Error α)}
    (same : jobs.length = answers.length) :
    ∃ results succeeded failures, Parted jobs answers results succeeded failures ∧
      (empty.gather jobs answers).succeeded = succeeded ∧
      (empty.gather jobs answers).conclude =
        if failures = [] then .ok results else .error (.dispatch succeeded failures) := by
  obtain ⟨results, succeeded, failures, parted, gathered⟩ := gatherParted empty same
  refine ⟨results, succeeded, failures, parted, ?_, ?_⟩
  · rw [gathered]
    rfl
  · rw [concludeEq, gathered]
    rfl

end Outcome
end Orchestration
