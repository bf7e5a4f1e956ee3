import Orchestration.Proofs.Dispatch.Noted
import Orchestration.Proofs.Worker.Pass

/-! Registering jobs on a platform that writes down what it is asked for: the worker comes to
the same answers, and to the same fleet but for what is written. -/
namespace Orchestration

variable {σ η κ ν : Type}

namespace Registration

section
variable (p : Platform σ η κ) (write : Platform.Call σ η → List ν) (plan : WorkerPlan σ)
  (actions : ActionRegistry σ)

def plain (r : Registration η (κ × List ν)) : Registration η κ :=
  ⟨r.fleet.plain, r.served, r.registered, r.rejected⟩

theorem registerActivitiesPlain (client : η) (queue : String) (names : List String)
    (r : Registration η (κ × List ν)) :
    (registerActivities (p.recorded write) actions client queue names r).1 =
        (registerActivities p actions client queue names r.plain).1 ∧
      (registerActivities (p.recorded write) actions client queue names r).2.plain =
        (registerActivities p actions client queue names r.plain).2 := by
  induction names generalizing r with
  | nil => exact ⟨rfl, rfl⟩
  | cons name rest ih =>
    rw [registerActivities, registerActivities, show r.plain.served = r.served from rfl]
    by_cases known : ((r.served.get? queue).getD []).contains name = true
    · rw [if_pos known, if_pos known]
      exact ih r
    · rw [if_neg known, if_neg known]
      cases actions.resolve name with
      | error e => exact ⟨rfl, rfl⟩
      | ok handler => exact ih _

theorem registerJobPlain (name : String) (job : Job) (queue : String) (r : Registration η (κ × List ν)) :
    (registerJob (p.recorded write) plan actions name job queue r).1 =
        (registerJob p plan actions name job queue r.plain).1 ∧
      (registerJob (p.recorded write) plan actions name job queue r).2.plain =
        (registerJob p plan actions name job queue r.plain).2 := by
  obtain ⟨connected, g, noted, plainly⟩ := (Fleet.getOrCreatePlainly p write r.fleet queue).result
  simp only [registerJob, show r.plain.fleet = r.fleet.plain from rfl, noted, plainly]
  cases compile plan actions name job with
  | error e => exact ⟨rfl, rfl⟩
  | ok j =>
    cases connected with
    | error e => exact ⟨rfl, rfl⟩
    | ok client =>
      obtain ⟨answer, left⟩ :=
        registerActivitiesPlain p write actions client queue j.activityNames { r with fleet := g }
      have same : plain { r with fleet := g } = { r.plain with fleet := g.plain } := rfl
      rw [same] at answer left
      simp only
      rcases noted : registerActivities (p.recorded write) actions client queue j.activityNames
        { r with fleet := g } with ⟨result, s⟩
      rcases plainly : registerActivities p actions client queue j.activityNames
        { r.plain with fleet := g.plain } with ⟨result', s'⟩
      rw [noted, plainly] at answer left
      subst answer left
      cases result with
      | error e => exact ⟨rfl, rfl⟩
      | ok u => exact ⟨rfl, rfl⟩

theorem takePlain (own workflow : String) (r : Registration η (κ × List ν)) (entry : String × Job) :
    (take (p.recorded write) plan actions own workflow r entry).plain =
      take p plan actions own workflow r.plain entry := by
  simp only [take]
  generalize (if Text.isBlankText entry.2.queue then own else entry.2.queue) = queue
  obtain ⟨answer, left⟩ := registerJobPlain p write plan actions entry.1 entry.2 queue r
  rcases noted : registerJob (p.recorded write) plan actions entry.1 entry.2 queue r with ⟨result, s⟩
  rcases plainly : registerJob p plan actions entry.1 entry.2 queue r.plain with ⟨result', s'⟩
  rw [noted, plainly] at answer left
  subst answer left
  cases result <;> rfl

theorem takeAllPlain (own : String) (r : Registration η (κ × List ν)) :
    (takeAll (p.recorded write) plan actions own r).plain = takeAll p plan actions own r.plain := by
  rw [takeAll, takeAll]
  refine (List.foldl_hom plain fun s d => ?_).symm
  exact List.foldl_hom plain fun t entry => (takePlain p write plan actions own d.name t entry).symm

end

end Registration

theorem WorkerPlan.buildPlainly (p : Platform σ η κ) (write : Platform.Call σ η → List ν)
    (plan : WorkerPlan σ) (f : Fleet η κ) :
    Plainly (plan.build (p.recorded write) f.noted) (plan.build p f) := by
  have taken : Registration.takeAll p plan (.ofIntegrations plan.integrations)
        (plan.queueOn f.clients) ⟨f, .empty, [], []⟩ =
      (Registration.takeAll (p.recorded write) plan (.ofIntegrations plan.integrations)
        (plan.queueOn f.clients) ⟨f.noted, .empty, [], []⟩).plain :=
    (Registration.takeAllPlain p write plan (.ofIntegrations plan.integrations)
      (plan.queueOn f.clients) ⟨f.noted, .empty, [], []⟩).symm
  simp only [build, taken]
  rw [show (f.noted : Fleet η (κ × List ν)).clients = f.clients from rfl]
  generalize Registration.takeAll (p.recorded write) plan (.ofIntegrations plan.integrations)
    (plan.queueOn f.clients) ⟨f.noted, .empty, [], []⟩ = r
  cases failed : r.registered.isEmpty && !r.rejected.isEmpty with
  | true =>
    simp only [Registration.plain, failed, if_true]
    exact ⟨rfl, rfl⟩
  | false =>
    simp only [Registration.plain, failed, Bool.false_eq_true, if_false]
    exact ⟨rfl, rfl⟩

end Orchestration
