import Orchestration.Action.Registry
import Orchestration.Proofs.Collection.SortedMap

/-! Action identifiers read back as they were written, and registries filed by the text of
the action: what a look-up finds is bound to the action that was asked for, and performed by
the last integration that offers it. -/
namespace Orchestration

namespace Action

theorem cutColonJoin {cs before after : List Char} (cut : cutColon cs = some (before, after)) :
    cs = before ++ ':' :: after := by
  have joined := List.takeWhile_append_dropWhile (p := fun c : Char => decide (c ≠ ':')) (l := cs)
  simp only [cutColon] at cut
  split at cut
  · simp at cut
  · rename_i c rest found
    simp only [Option.some.injEq, Prod.mk.injEq] at cut
    have colon : c = ':' := by
      have stops := List.head_dropWhile_not (fun c : Char => decide (c ≠ ':')) (l := cs)
        (by rw [found]; exact List.cons_ne_nil c rest)
      simpa only [found, List.head_cons, decide_eq_false_iff_not, Decidable.not_not] using stops
    rw [← joined, found, cut.1, cut.2, colon]

theorem parseText {id : String} {action : Action} (ok : parse id = .ok action) : action.text = id := by
  simp only [parse] at ok
  split at ok
  · rename_i before after cut
    split at ok
    · simp at ok
    · simp only [Except.ok.injEq] at ok
      subst ok
      apply String.ext
      simp [text, cutColonJoin cut]
  · simp at ok

structure WellFormed (a : Action) : Prop where
  integration : a.integration ≠ ""
  verb : a.verb ≠ ""
  before : ':' ∉ a.integration.toList
  after : ':' ∉ a.verb.toList

theorem cutColonAt {before after : List Char} (none : ':' ∉ before) :
    cutColon (before ++ ':' :: after) = some (before, after) := by
  have kept : ∀ c ∈ before, decide (c ≠ ':') = true := by
    intro c inside
    exact decide_eq_true fun same => none (same ▸ inside)
  have left : (before ++ ':' :: after).takeWhile (· ≠ ':') = before := by
    rw [List.takeWhile_append_of_pos kept]
    simp
  have right : (before ++ ':' :: after).dropWhile (· ≠ ':') = ':' :: after := by
    rw [List.dropWhile_append_of_pos kept]
    simp
  rw [cutColon, right, left]

theorem cutColonNone {cs before after : List Char} (cut : cutColon cs = some (before, after)) :
    ':' ∉ before := by
  simp only [cutColon] at cut
  split at cut
  · cases cut
  · cases cut
    intro inside
    have kept := List.all_eq_true.1 List.all_takeWhile _ inside
    simp at kept

theorem parseFormed {id : String} {a : Action} (ok : parse id = .ok a) : a.WellFormed := by
  simp only [parse] at ok
  split at ok
  · rename_i before after cut
    split at ok
    · cases ok
    · rename_i fine
      cases ok
      simp only [Bool.or_eq_true, not_or, List.isEmpty_iff, List.contains_iff_mem] at fine
      obtain ⟨⟨first, second⟩, single⟩ := fine
      refine ⟨?_, ?_, ?_, ?_⟩
      · intro same
        exact first (by simpa using congrArg String.toList same)
      · intro same
        exact second (by simpa using congrArg String.toList same)
      · simpa using cutColonNone cut
      · simpa using single
  · cases ok

theorem parseOfText {a : Action} (formed : a.WellFormed) : parse a.text = .ok a := by
  have cut : cutColon a.text.toList = some (a.integration.toList, a.verb.toList) := by
    rw [show a.text.toList = a.integration.toList ++ ':' :: a.verb.toList by simp [text]]
    exact cutColonAt formed.before
  have first : a.integration.toList.isEmpty = false := by
    simpa using fun none => formed.integration (String.ext none)
  have second : a.verb.toList.isEmpty = false := by
    simpa using fun none => formed.verb (String.ext none)
  have single : a.verb.toList.contains ':' = false := by simpa using formed.after
  simp only [parse, cut, first, second, single]
  simp

theorem parseIff {id : String} {a : Action} : parse id = .ok a ↔ a.WellFormed ∧ a.text = id := by
  constructor
  · intro ok
    exact ⟨parseFormed ok, parseText ok⟩
  · rintro ⟨formed, rfl⟩
    exact parseOfText formed

theorem parseError {id : String} {e : Error} (failed : parse id = .error e) : e = .malformedActionId id := by
  simp only [parse] at failed
  split at failed
  · split at failed
    · cases failed
      rfl
    · cases failed
  · cases failed
    rfl

theorem textInj {a b : Action} (formed : a.WellFormed) (same : b.text = a.text) : b = a := by
  have chars : b.integration.toList ++ ':' :: b.verb.toList =
      a.integration.toList ++ ':' :: a.verb.toList := by
    simpa [text] using congrArg String.toList same
  by_cases inside : ':' ∈ b.integration.toList
  · -- then the text has two colons, and that of a well-formed action has one
    have count := congrArg (List.count ':') chars
    have one : List.count ':' (a.integration.toList ++ ':' :: a.verb.toList) = 1 := by
      simp [List.count_eq_zero.2 formed.before, List.count_eq_zero.2 formed.after]
    have more : 0 < List.count ':' b.integration.toList := List.count_pos_iff.2 inside
    rw [one] at count
    simp only [List.count_append, List.count_cons_self] at count
    omega
  · have left : cutColon (b.integration.toList ++ ':' :: b.verb.toList) = some (_, _) := cutColonAt inside
    have cut := left.symm.trans ((congrArg cutColon chars).trans (cutColonAt formed.before))
    simp only [Option.some.injEq, Prod.mk.injEq] at cut
    obtain ⟨first, second⟩ := cut
    cases a
    cases b
    simp only at first second
    rw [String.ext first, String.ext second]

end Action

def Integration.offers {σ : Type} (i : Integration σ) (a : Action) : Bool :=
  i.id = a.integration && i.verbs.contains a.verb

namespace ActionRegistry
variable {σ : Type}

def Keyed (r : ActionRegistry σ) : Prop :=
  ∀ key handler, r.handlers.get? key = some handler → handler.action.text = key

theorem registerVerbKeyed {r : ActionRegistry σ} (integration : Integration σ) (verb : String)
    (keyed : r.Keyed) : (registerVerb integration r verb).Keyed := by
  intro key handler found
  simp only [registerVerb, SortedMap.getInsert] at found
  split at found
  · rename_i same
    cases Option.some.inj found
    exact same
  · exact keyed key handler found

theorem registerKeyed {r : ActionRegistry σ} (integration : Integration σ) (keyed : r.Keyed) :
    (r.register integration).Keyed :=
  List.foldlRecOn _ _ keyed fun _ keyed verb _ => registerVerbKeyed integration verb keyed

theorem ofIntegrationsKeyed (integrations : List (Integration σ)) : (ofIntegrations integrations).Keyed := by
  refine List.foldlRecOn _ _ ?_ fun _ keyed integration _ => registerKeyed integration keyed
  intro key handler found
  simp [empty] at found

theorem Keyed.lookupText {r : ActionRegistry σ} (keyed : r.Keyed) {action : Action}
    {handler : ActionHandler σ} (found : r.lookup action = some handler) :
    handler.action.text = action.text := keyed _ _ found

theorem registerLookup (r : ActionRegistry σ) (i : Integration σ) {a : Action} (formed : a.WellFormed) :
    (r.register i).lookup a = if i.offers a then some ⟨a, i⟩ else r.lookup a := by
  have folded (verbs : List String) (r : ActionRegistry σ) :
      (verbs.foldl (registerVerb i) r).lookup a =
        if i.id = a.integration ∧ a.verb ∈ verbs then some ⟨a, i⟩ else r.lookup a := by
    induction verbs generalizing r with
    | nil => simp
    | cons verb rest ih =>
      have filed : (registerVerb i r verb).lookup a =
          if i.id = a.integration ∧ verb = a.verb then some ⟨a, i⟩ else r.lookup a := by
        simp only [lookup, registerVerb, SortedMap.getInsert]
        by_cases here : Action.text ⟨i.id, verb⟩ = a.text
        · have same := Action.textInj formed here
          subst same
          simp
        · rw [if_neg here, if_neg]
          rintro ⟨named, rfl⟩
          exact here (by simp only [Action.text, named])
      rw [List.foldl_cons, ih, filed]
      by_cases named : i.id = a.integration
      · by_cases later : a.verb ∈ rest
        · simp [named, later]
        · simp [named, later, eq_comm]
      · simp [named]
  rw [register, folded]
  simp [Integration.offers]

theorem ofIntegrationsLookup (integrations : List (Integration σ)) {a : Action} (formed : a.WellFormed) :
    (ofIntegrations integrations).lookup a =
      (integrations.reverse.find? (·.offers a)).map fun i => ⟨a, i⟩ := by
  have folded (r : ActionRegistry σ) : (integrations.foldl register r).lookup a =
      ((integrations.reverse.find? (·.offers a)).map fun i => ⟨a, i⟩).or (r.lookup a) := by
    induction integrations generalizing r with
    | nil => rfl
    | cons i rest ih =>
      rw [List.foldl_cons, ih, registerLookup r i formed, List.reverse_cons, List.find?_append]
      cases rest.reverse.find? (·.offers a) with
      | some last => rfl
      | none => by_cases here : i.offers a = true <;> simp [here]
  rw [ofIntegrations, folded]
  exact Option.or_none

theorem lookupNone {integrations : List (Integration σ)} {a : Action} (formed : a.WellFormed) :
    (ofIntegrations integrations).lookup a = none ↔ ∀ i ∈ integrations, i.offers a = false := by
  rw [ofIntegrationsLookup integrations formed]
  simp

end ActionRegistry
end Orchestration
