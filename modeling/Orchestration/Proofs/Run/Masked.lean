import Mathlib.Data.List.Forall2
import Orchestration.Proofs.Run.Walk

/-! Two runs of one job whose payloads differ only in what they hold under `steps`. Every
context that a template is filled from and every input that is laid over it holds the
recorded outputs there, so nothing of the difference is ever seen. -/
namespace Orchestration

universe u

def Entries.SameBut {α : Type u} (key : String) (a b : List (String × α)) : Prop :=
  List.Forall₂ (fun x y => x.1 = y.1 ∧ (x.1 ≠ key → x.2 = y.2)) a b

namespace OrderedMap
variable {α : Type u}

structure SameBut (key : String) (m n : OrderedMap α) : Prop where
  keys : m.keys = n.keys
  values : ∀ other, other ≠ key → m.get? other = n.get? other

theorem SameBut.insert {key : String} {m n : OrderedMap α} (same : SameBut key m n) (k : String) {v w : α}
    (value : k ≠ key → v = w) : SameBut key (m.insert k v) (n.insert k w) := by
  refine ⟨by rw [keysInsert, keysInsert, same.keys], fun other apart => ?_⟩
  rw [getInsert, getInsert]
  by_cases here : k = other
  · rw [if_pos here, if_pos here, value (here ▸ apart)]
  · rw [if_neg here, if_neg here]
    exact same.values other apart

theorem SameBut.insertAll {key : String} {a b : List (String × α)}
    (alike : Entries.SameBut key a b) {m n : OrderedMap α} (same : SameBut key m n) : SameBut key (m.insertAll a) (n.insertAll b) := by
  rw [Entries.SameBut] at alike
  induction alike generalizing m n with
  | nil => exact same
  | @cons x y as bs head tail ih =>
    obtain ⟨k, v⟩ := x
    obtain ⟨l, w⟩ := y
    obtain ⟨rfl, value⟩ := head
    exact ih (same.insert k value)

theorem SameBut.covered {key : String} {m n : OrderedMap α} (same : SameBut key m n) (value : α) :
    m.insert key value = n.insert key value := by
  have both := same.insert key (v := value) (w := value) fun _ => rfl
  refine eqOfGet both.keys fun other _ => ?_
  by_cases here : key = other
  · rw [getInsert, getInsert, if_pos here, if_pos here]
  · exact both.values other (Ne.symm here)

end OrderedMap

namespace RunContext

def recorded (c : RunContext) : Payload × List String := (c.steps, c.completed)

/-- Two contexts that only a look at `steps` in their payloads could tell apart. -/
structure Masked (c d : RunContext) : Prop where
  input : OrderedMap.SameBut "steps" c.input d.input
  steps : c.steps = d.steps
  completed : c.completed = d.completed

namespace Masked
variable {c d : RunContext}

theorem recorded (masked : Masked c d) : c.recorded = d.recorded :=
  Prod.ext masked.steps masked.completed

theorem shared (masked : Masked c d) : c.shared = d.shared := by
  rw [sharedInsert, sharedInsert, masked.steps]
  exact masked.input.covered d.steps.toJson

theorem stepInput (masked : Masked c d) (s : Step) : s.input c = s.input d := by
  simp only [Step.input, masked.shared]

theorem record (masked : Masked c d) (id : String) (outputs : Payload) :
    Masked (c.record id outputs) (d.record id outputs) := by
  refine ⟨masked.input, ?_, ?_⟩
  · simp only [RunContext.record, masked.steps]
  · simp only [RunContext.record, masked.completed]

end Masked
end RunContext

namespace CompiledJob
variable {σ τ : Type} (j : CompiledJob σ) (call : ActivityCall → τ → Except Error Payload × τ)

theorem prepareMasked {c d : RunContext} (masked : c.Masked d) (s : CompiledStep) :
    j.prepare s c = j.prepare s d := by
  simp only [prepare, masked.stepInput]

theorem stepFailedMasked {c d : RunContext} (masked : c.Masked d) (s : CompiledStep) (e : Error) :
    j.stepFailed s c e = j.stepFailed s d e := by
  simp only [stepFailed, masked.completed]

theorem runStepsMasked (steps : List CompiledStep) {c d : RunContext} (masked : c.Masked d) (t : τ) :
    (runSteps j call steps c t).2 = (runSteps j call steps d t).2 ∧
      (runSteps j call steps c t).1.map RunContext.recorded =
        (runSteps j call steps d t).1.map RunContext.recorded := by
  induction steps generalizing c d t with
  | nil => exact ⟨rfl, congrArg Except.ok masked.recorded⟩
  | cons s rest ih =>
    simp only [runSteps, prepareMasked j masked, stepFailedMasked j masked]
    cases j.prepare s d with
    | error e => exact ⟨rfl, rfl⟩
    | ok activity =>
      rcases answered : call activity t with ⟨answer, t'⟩
      simp only [answered]
      cases answer with
      | error e => exact ⟨rfl, rfl⟩
      | ok outputs => exact ih (masked.record s.step.id outputs) t'

/-- Whatever the activities answer, a job does the same on two payloads that differ only under
`steps`: the same calls with the same inputs in the same order, the same outputs recorded, and
the same end. -/
theorem payloadStepsUnseen {a b : List (String × Json)} (alike : Entries.SameBut "steps" a b) (t : τ) :
    let left := execute j (recording call) (.obj a) (t, [])
    let right := execute j (recording call) (.obj b) (t, [])
    left.2.2 = right.2.2 ∧ left.2.1 = right.2.1 ∧
      left.1.map RunContext.recorded = right.1.map RunContext.recorded := by
  intro left right
  have start : RunContext.Masked (.start (.ofList a)) (.start (.ofList b)) :=
    ⟨OrderedMap.SameBut.insertAll alike ⟨rfl, fun _ _ => rfl⟩, rfl, rfl⟩
  obtain ⟨made, ended⟩ := runStepsMasked j (recording call) j.steps start (t, [])
  exact ⟨congrArg Prod.snd made, congrArg Prod.fst made, ended⟩

/-! A payload that pretends outputs of a step which no job has, and an innocent one. -/

def asking : CompiledJob Unit where
  name := "asking"
  queue := ""
  steps :=
    [⟨⟨"", "a", "test:create", none, some (.ofList [("of", .str "\x7b\x7b order \x7d\x7d")])⟩,
        ⟨"test", "create"⟩, .standard none⟩,
     ⟨⟨"", "b", "test:create", none, some (.ofList [("id", .str "\x7b\x7b steps.ghost.outputs.id \x7d\x7d")])⟩,
        ⟨"test", "create"⟩, .standard none⟩]
  actions := .ofIntegrations [probe]

def pretended : List (String × Json) :=
  [("order", .int 1), ("steps", .obj [("ghost", .obj [("outputs", .obj [("id", .int 7)])])])]

def innocent : List (String × Json) := [("order", .int 1), ("steps", .null)]

theorem payloadStepsUnseenPretended :
    Entries.SameBut "steps" pretended innocent ∧
      (let left := execute asking (recording counting) (.obj pretended) (0, [])
      let right := execute asking (recording counting) (.obj innocent) (0, [])
      left.2.2 = right.2.2 ∧
        left.2.2.map (fun e => e.call.input) =
          [.ofList [("order", .int 1), ("steps", .obj []), ("of", .int 1)]] ∧
        left.1 = .error (.stepExecutionFailed "asking" "b" ["a"]
          (.templateResolution "steps.ghost.outputs.id"))) := by
  have alike : Entries.SameBut "steps" pretended innocent :=
    .cons ⟨rfl, fun _ => rfl⟩ (.cons ⟨rfl, fun apart => absurd rfl apart⟩ .nil)
  have general := payloadStepsUnseen asking counting alike 0
  exact ⟨alike, general.1, rfl, rfl⟩

end CompiledJob
end Orchestration
