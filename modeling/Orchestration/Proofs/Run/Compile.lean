import Orchestration.Proofs.Run.Walk

/-! When a job compiles. Each step must name an action that some integration offers; the
first step that does not is the one that the error is about. -/
namespace Orchestration

inductive Step.Offends {σ : Type} (integrations : List (Integration σ)) (job : String) (s : Step) :
    Error → Prop where
  | malformed (unread : ∀ a : Action, a.WellFormed → a.text ≠ s.actionId) :
      Offends integrations job s (.malformedActionId s.actionId)
  | unregistered {a : Action} (formed : a.WellFormed) (text : a.text = s.actionId)
      (absent : ∀ i ∈ integrations, i.offers a = false) :
      Offends integrations job s (.unregisteredActivity job s.label s.actionId)

def Step.Offered {σ : Type} (integrations : List (Integration σ)) (s : Step) : Prop :=
  ∃ a : Action, a.WellFormed ∧ a.text = s.actionId ∧ ∃ i ∈ integrations, i.offers a = true

namespace CompiledJob
variable {σ : Type}

theorem offeredOr (integrations : List (Integration σ)) (name : String) (s : Step) :
    s.Offered integrations ∨ ∃ e, s.Offends integrations name e := by
  by_cases read : ∃ a : Action, a.WellFormed ∧ a.text = s.actionId
  · obtain ⟨a, formed, text⟩ := read
    by_cases there : ∃ i ∈ integrations, i.offers a = true
    · exact .inl ⟨a, formed, text, there⟩
    · have absent : ∀ i ∈ integrations, i.offers a = false := by
        intro i inside
        exact Bool.eq_false_iff.2 fun offers => there ⟨i, inside, offers⟩
      exact .inr ⟨_, .unregistered formed text absent⟩
  · have unread : ∀ a : Action, a.WellFormed → a.text ≠ s.actionId := by
      intro a formed text
      exact read ⟨a, formed, text⟩
    exact .inr ⟨_, .malformed unread⟩

variable {integrations : List (Integration σ)}

theorem offeredNot {name : String} {s : Step} (offered : s.Offered integrations) (e : Error) :
    ¬ s.Offends integrations name e := by
  obtain ⟨a, formed, text, i, inside, offers⟩ := offered
  intro offends
  cases offends with
  | malformed unread => exact unread a formed text
  | @unregistered b other same absent =>
    have one : a = b := Action.textInj other (text.trans same.symm)
    rw [one, absent i inside] at offers
    cases offers

theorem compileStepOffered (name : String) (job : Job) {s : Step} (offered : s.Offered integrations) :
    ∃ c, compileStep name job (.ofIntegrations integrations) s = .ok c := by
  obtain ⟨a, formed, text, i, inside, offers⟩ := offered
  have parsed : Action.parse s.actionId = .ok a := Action.parseIff.2 ⟨formed, text⟩
  cases found : (ActionRegistry.ofIntegrations integrations).lookup a with
  | none =>
    have absent := (ActionRegistry.lookupNone formed).1 found i inside
    rw [absent] at offers
    cases offers
  | some handler =>
    simp only [compileStep, parsed, found]
    exact ⟨_, rfl⟩

theorem compileStepOffends {name : String} (job : Job) {s : Step} {e : Error}
    (offends : s.Offends integrations name e) :
    compileStep name job (.ofIntegrations integrations) s = .error e := by
  cases offends with
  | malformed unread =>
    cases parsed : Action.parse s.actionId with
    | ok a =>
      obtain ⟨formed, text⟩ := Action.parseIff.1 parsed
      exact absurd text (unread a formed)
    | error fault =>
      have same := Action.parseError parsed
      subst same
      simp only [compileStep, parsed]
  | @unregistered a formed text absent =>
    have parsed : Action.parse s.actionId = .ok a := Action.parseIff.2 ⟨formed, text⟩
    have unfound := (ActionRegistry.lookupNone formed).2 absent
    simp only [compileStep, parsed, unfound, text]

theorem compileStepsOffered (name : String) (job : Job) {steps : List Step}
    (offered : ∀ s ∈ steps, s.Offered integrations) :
    ∃ compiled, compileSteps name job (.ofIntegrations integrations) steps = .ok compiled := by
  induction steps with
  | nil => exact ⟨[], rfl⟩
  | cons s rest ih =>
    obtain ⟨here, later⟩ := List.forall_mem_cons.1 offered
    obtain ⟨c, first⟩ := compileStepOffered name job here
    obtain ⟨cs, others⟩ := ih later
    refine ⟨c :: cs, ?_⟩
    simp only [compileSteps, first, others, Except.map]

theorem compileStepsOffends {name : String} (job : Job) {before after : List Step} {s : Step} {e : Error}
    (offered : ∀ b ∈ before, b.Offered integrations) (offends : s.Offends integrations name e) :
    compileSteps name job (.ofIntegrations integrations) (before ++ s :: after) = .error e := by
  induction before with
  | nil => simp only [List.nil_append, compileSteps, compileStepOffends job offends]
  | cons b rest ih =>
    obtain ⟨here, later⟩ := List.forall_mem_cons.1 offered
    obtain ⟨c, first⟩ := compileStepOffered name job here
    simp only [List.cons_append, compileSteps, first, ih later, Except.map]

structure FirstOffence (integrations : List (Integration σ)) (name : String) (steps before : List Step)
    (s : Step) (after : List Step) (e : Error) : Prop where
  cut : steps = before ++ s :: after
  offered : ∀ b ∈ before, b.Offered integrations
  offends : s.Offends integrations name e

theorem offeredOrFirst (integrations : List (Integration σ)) (name : String) (steps : List Step) :
    (∀ s ∈ steps, s.Offered integrations) ∨
      ∃ before s after e, FirstOffence integrations name steps before s after e := by
  induction steps with
  | nil => exact .inl fun s inside => absurd inside List.not_mem_nil
  | cons s rest ih =>
    rcases offeredOr integrations name s with offered | ⟨e, offends⟩
    · rcases ih with all | ⟨before, bad, after, e, first⟩
      · exact .inl (List.forall_mem_cons.2 ⟨offered, all⟩)
      · have cut : s :: rest = (s :: before) ++ bad :: after := congrArg (s :: ·) first.cut
        exact .inr ⟨s :: before, bad, after, e, cut,
          List.forall_mem_cons.2 ⟨offered, first.offered⟩, first.offends⟩
    · exact .inr ⟨[], s, rest, e, rfl, fun b inside => absurd inside List.not_mem_nil, offends⟩

variable {name : String} {job : Job}

theorem compileOffered :
    (∃ j, compile name job (.ofIntegrations integrations) = .ok j) ↔
      ∀ s ∈ job.steps, s.Offered integrations := by
  constructor
  · rintro ⟨j, ok⟩
    rcases offeredOrFirst integrations name job.steps with
      all | ⟨before, s, after, e, first⟩
    · exact all
    · have steps := (compileOk ok).2.2
      rw [first.cut, compileStepsOffends job first.offered first.offends] at steps
      cases steps
  · intro offered
    obtain ⟨compiled, steps⟩ := compileStepsOffered name job offered
    have compiles : compile name job (.ofIntegrations integrations) =
        .ok ⟨name, job.queue, compiled, .ofIntegrations integrations⟩ := by
      rw [compile, steps]
      rfl
    exact ⟨_, compiles⟩

theorem compileError {e : Error} :
    compile name job (.ofIntegrations integrations) = .error e ↔
      ∃ before s after, FirstOffence integrations name job.steps before s after e := by
  constructor
  · intro failed
    rcases offeredOrFirst integrations name job.steps with
      all | ⟨before, s, after, fault, first⟩
    · obtain ⟨j, ok⟩ := compileOffered.2 all
      cases ok.symm.trans failed
    · have stopped : compile name job (.ofIntegrations integrations) = .error fault := by
        rw [compile, first.cut, compileStepsOffends job first.offered first.offends]
        rfl
      cases stopped.symm.trans failed
      exact ⟨before, s, after, first⟩
  · rintro ⟨before, s, after, first⟩
    rw [compile, first.cut, compileStepsOffends job first.offered first.offends]
    rfl

end CompiledJob
end Orchestration
