import Orchestration.Proofs.Action.Registry
import Orchestration.Proofs.Collection.FirstLast

/-! What an action id leads to. Handlers are filed by the text of their action, put together from
any two parts; yet a text that can be read leads to the last integration that offers just the
action it names, and names that are empty or have a colon in them make no difference to it. -/
namespace Orchestration

namespace Action

instance (a : Action) : Decidable a.WellFormed :=
  decidable_of_iff
    (a.integration ≠ "" ∧ a.verb ≠ "" ∧ ':' ∉ a.integration.toList ∧ ':' ∉ a.verb.toList)
    ⟨fun ⟨integration, verb, before, after⟩ => ⟨integration, verb, before, after⟩,
      fun formed => ⟨formed.integration, formed.verb, formed.before, formed.after⟩⟩

theorem parseUnread {id : String} {e : Error} :
    parse id = .error e ↔ (∀ a : Action, a.WellFormed → a.text ≠ id) ∧ e = .malformedActionId id := by
  constructor
  · intro failed
    refine ⟨fun a formed text => ?_, parseError failed⟩
    cases failed.symm.trans (parseIff.2 ⟨formed, text⟩)
  · intro found
    obtain ⟨unread, rfl⟩ := found
    cases parsed : parse id with
    | ok a =>
      obtain ⟨formed, text⟩ := parseIff.1 parsed
      exact absurd text (unread a formed)
    | error e => rw [parseError parsed]

end Action

namespace Integration
variable {σ : Type}

theorem offersIff {i : Integration σ} {a : Action} :
    i.offers a = true ↔ i.id = a.integration ∧ a.verb ∈ i.verbs := by
  simp [offers]

/-- An integration without the verbs that make no well-formed action with its id. -/
def wellNamed (i : Integration σ) : Integration σ :=
  { i with verbs := i.verbs.filter fun verb => decide (Action.WellFormed ⟨i.id, verb⟩) }

theorem wellNamedOffers (i : Integration σ) {a : Action} (formed : a.WellFormed) :
    i.wellNamed.offers a = i.offers a := by
  rw [Bool.eq_iff_iff, offersIff, offersIff]
  simp only [wellNamed, List.mem_filter, decide_eq_true_eq]
  constructor
  · intro found
    obtain ⟨named, offered, -⟩ := found
    exact ⟨named, offered⟩
  · intro found
    obtain ⟨named, offered⟩ := found
    exact ⟨named, offered, named ▸ formed⟩

end Integration

namespace ActionRegistry
variable {σ : Type}

def LastOffering (integrations : List (Integration σ)) (a : Action) (i : Integration σ) : Prop :=
  ∃ before after, integrations = before ++ i :: after ∧ (i.id = a.integration ∧ a.verb ∈ i.verbs) ∧
    ∀ later ∈ after, ¬ (later.id = a.integration ∧ a.verb ∈ later.verbs)

theorem lastOfferingIff {integrations : List (Integration σ)} {a : Action} {i : Integration σ} :
    integrations.reverse.find? (·.offers a) = some i ↔ LastOffering integrations a i := by
  have lacks {later : Integration σ} :
      later.offers a = false ↔ ¬ (later.id = a.integration ∧ a.verb ∈ later.verbs) := by
    rw [← Integration.offersIff, Bool.not_eq_true]
  rw [findLast]
  simp only [Integration.offersIff, lacks, LastOffering]

theorem lookupLast {integrations : List (Integration σ)} {a : Action} (formed : a.WellFormed)
    {handler : ActionHandler σ} :
    (ofIntegrations integrations).lookup a = some handler ↔
      handler.action = a ∧ LastOffering integrations a handler.integration := by
  rw [ofIntegrationsLookup integrations formed, Option.map_eq_some_iff]
  constructor
  · intro found
    obtain ⟨i, found, rfl⟩ := found
    exact ⟨rfl, lastOfferingIff.1 found⟩
  · intro found
    obtain ⟨rfl, last⟩ := found
    exact ⟨handler.integration, lastOfferingIff.2 last, rfl⟩

theorem lookupWellNamed (integrations : List (Integration σ)) {a : Action} (formed : a.WellFormed) :
    (ofIntegrations (integrations.map Integration.wellNamed)).lookup a =
      ((ofIntegrations integrations).lookup a).map fun h => ⟨h.action, h.integration.wellNamed⟩ := by
  have same : (fun i : Integration σ => i.offers a) ∘ Integration.wellNamed = fun i => i.offers a :=
    funext fun i => i.wellNamedOffers formed
  rw [ofIntegrationsLookup _ formed, ofIntegrationsLookup _ formed, ← List.map_reverse, List.find?_map,
    same, Option.map_map, Option.map_map]
  rfl

theorem resolveOk {r : ActionRegistry σ} {id : String} {handler : ActionHandler σ} :
    r.resolve id = .ok handler ↔ ∃ a, Action.parse id = .ok a ∧ r.lookup a = some handler := by
  simp only [resolve]
  split
  · rename_i e failed
    simp [failed]
  · rename_i a parsed
    split
    · rename_i found looked
      simp [parsed, looked]
    · rename_i looked
      simp [parsed, looked]

theorem resolveError {r : ActionRegistry σ} {id : String} {e : Error} :
    r.resolve id = .error e ↔ Action.parse id = .error e ∨
      ∃ a, Action.parse id = .ok a ∧ r.lookup a = none ∧ e = .actionNotRegistered id := by
  simp only [resolve]
  split
  · rename_i fault failed
    simp [failed]
  · rename_i a parsed
    have text : a.text = id := Action.parseText parsed
    split
    · rename_i found looked
      simp [parsed, looked]
    · rename_i looked
      simp [parsed, looked, text, eq_comm]

theorem lookupAbsent {integrations : List (Integration σ)} {a : Action} (formed : a.WellFormed) :
    (ofIntegrations integrations).lookup a = none ↔
      ∀ i ∈ integrations, ¬ (i.id = a.integration ∧ a.verb ∈ i.verbs) := by
  simp only [lookupNone formed, ← Integration.offersIff, Bool.not_eq_true]

variable {integrations : List (Integration σ)} {id : String}

theorem resolveSucceeds : (∃ handler, (ofIntegrations integrations).resolve id = .ok handler) ↔
    ∃ a : Action, a.WellFormed ∧ a.text = id ∧
      ∃ i ∈ integrations, i.id = a.integration ∧ a.verb ∈ i.verbs := by
  constructor
  · intro found
    obtain ⟨handler, found⟩ := found
    obtain ⟨a, parsed, looked⟩ := resolveOk.1 found
    obtain ⟨formed, text⟩ := Action.parseIff.1 parsed
    obtain ⟨-, before, after, cut, offers, -⟩ := (lookupLast formed).1 looked
    exact ⟨a, formed, text, handler.integration, by simp [cut], offers⟩
  · intro found
    obtain ⟨a, formed, text, i, inside, offers⟩ := found
    have there : (ofIntegrations integrations).lookup a ≠ none := fun none =>
      (lookupAbsent formed).1 none i inside offers
    obtain ⟨handler, looked⟩ := Option.ne_none_iff_exists'.1 there
    exact ⟨handler, resolveOk.2 ⟨a, Action.parseIff.2 ⟨formed, text⟩, looked⟩⟩

theorem resolveLast {handler : ActionHandler σ}
    (found : (ofIntegrations integrations).resolve id = .ok handler) :
    Action.parse id = .ok handler.action ∧
      LastOffering integrations handler.action handler.integration := by
  obtain ⟨a, parsed, looked⟩ := resolveOk.1 found
  obtain ⟨rfl, last⟩ := (lookupLast (Action.parseFormed parsed)).1 looked
  exact ⟨parsed, last⟩

theorem resolveFails {e : Error} : (ofIntegrations integrations).resolve id = .error e ↔
    (∀ a : Action, a.WellFormed → a.text ≠ id) ∧ e = .malformedActionId id ∨
      ∃ a : Action, a.WellFormed ∧ a.text = id ∧
        (∀ i ∈ integrations, ¬ (i.id = a.integration ∧ a.verb ∈ i.verbs)) ∧
        e = .actionNotRegistered id := by
  rw [resolveError, Action.parseUnread]
  refine or_congr Iff.rfl (exists_congr fun a => ?_)
  rw [Action.parseIff, and_assoc]
  exact and_congr_right fun formed => by rw [lookupAbsent formed]

theorem resolveWellNamed (integrations : List (Integration σ)) (id : String) :
    (ofIntegrations (integrations.map Integration.wellNamed)).resolve id =
      ((ofIntegrations integrations).resolve id).map fun h => ⟨h.action, h.integration.wellNamed⟩ := by
  cases parsed : Action.parse id with
  | error e =>
    simp only [resolve, parsed]
    rfl
  | ok a =>
    simp only [resolve, parsed, lookupWellNamed integrations (Action.parseFormed parsed)]
    cases (ofIntegrations integrations).lookup a <;> rfl

/-- An action id is read exactly when it is two parts around a colon with something in each and a
colon in neither. It leads to the last integration with that id and that verb, which is the one that
performs; without such an integration the action is not registered. What is offered under other
names changes nothing of this. -/
theorem resolvedByLast (integrations : List (Integration σ)) (id : String) :
    let registry := ofIntegrations integrations
    ((∀ a, Action.parse id = .ok a ↔ a.WellFormed ∧ a.text = id) ∧
      ∀ e, Action.parse id = .error e ↔
        (∀ a : Action, a.WellFormed → a.text ≠ id) ∧ e = .malformedActionId id) ∧
    ((∃ handler, registry.resolve id = .ok handler) ↔ ∃ a : Action, a.WellFormed ∧ a.text = id ∧
        ∃ i ∈ integrations, i.id = a.integration ∧ a.verb ∈ i.verbs) ∧
    (∀ handler, registry.resolve id = .ok handler → Action.parse id = .ok handler.action ∧
        ∃ last, LastOffering integrations handler.action last ∧
          ∀ input s, handler.call input s = last.perform handler.action input s) ∧
    (∀ e, registry.resolve id = .error e ↔
        (∀ a : Action, a.WellFormed → a.text ≠ id) ∧ e = .malformedActionId id ∨
        ∃ a : Action, a.WellFormed ∧ a.text = id ∧
          (∀ i ∈ integrations, ¬ (i.id = a.integration ∧ a.verb ∈ i.verbs)) ∧
          e = .actionNotRegistered id) ∧
    ((ofIntegrations (integrations.map Integration.wellNamed)).resolve id).map
        (fun handler => (handler.action, handler.call)) =
      (registry.resolve id).map fun handler => (handler.action, handler.call) := by
  intro registry
  refine ⟨⟨fun a => Action.parseIff, fun e => Action.parseUnread⟩, resolveSucceeds,
    fun handler found => ?_, fun e => resolveFails, ?_⟩
  · obtain ⟨parsed, last⟩ := resolveLast found
    exact ⟨parsed, handler.integration, last, fun input s => rfl⟩
  · rw [resolveWellNamed]
    cases registry.resolve id <;> rfl

end ActionRegistry
end Orchestration
