import Mathlib.Data.List.Induction

/-! What comes first in a row, and what comes last. Names are kept once each, in the order in which
they first come; that fixes what is kept, and it may be done in stages, part by part. The last
entry of a kind is the one with none of that kind behind it. -/
namespace Orchestration

section
variable {α β : Type*}

theorem findLastSome {f : α → Option β} {row : List α} {b : β} :
    row.reverse.findSome? f = some b ↔
      ∃ before a after, row = before ++ a :: after ∧ f a = some b ∧ ∀ c ∈ after, f c = none := by
  rw [List.findSome?_eq_some_iff]
  constructor
  · intro found
    obtain ⟨after, a, before, cut, here, none⟩ := found
    refine ⟨before.reverse, a, after.reverse, by simpa using congrArg List.reverse cut, here, ?_⟩
    exact fun c inside => none c (List.mem_reverse.1 inside)
  · intro found
    obtain ⟨before, a, after, rfl, here, none⟩ := found
    refine ⟨after.reverse, a, before.reverse, by simp, here, ?_⟩
    exact fun c inside => none c (List.mem_reverse.1 inside)

theorem findLast {p : α → Bool} {row : List α} {a : α} : row.reverse.find? p = some a ↔
    ∃ before after, row = before ++ a :: after ∧ p a = true ∧ ∀ c ∈ after, p c = false := by
  have guarded {c : α} : Option.guard p c = none ↔ p c = false := by simp
  rw [← List.findSome?_guard, findLastSome]
  simp only [guarded, Option.guard_eq_some_iff]
  constructor
  · intro found
    obtain ⟨before, _, after, cut, ⟨rfl, here⟩, none⟩ := found
    exact ⟨before, after, cut, here, none⟩
  · intro found
    obtain ⟨before, after, cut, here, none⟩ := found
    exact ⟨before, a, after, cut, ⟨rfl, here⟩, none⟩

end

/-- Every one of the names is kept, in the order of the places where they first stand. -/
structure FirstCome (names kept : List String) : Prop where
  same : ∀ name, name ∈ kept ↔ name ∈ names
  ordered : kept.Pairwise fun a b => names.idxOf a < names.idxOf b

theorem FirstCome.nodup {names kept : List String} (first : FirstCome names kept) : kept.Nodup :=
  first.ordered.imp fun less same => by simp [same] at less

theorem FirstCome.unique {names kept other : List String} (first : FirstCome names kept)
    (second : FirstCome names other) : kept = other := by
  refine List.Perm.eq_of_pairwise (fun a b _ _ less more => absurd less (Nat.lt_asymm more))
    first.ordered second.ordered ?_
  refine (List.perm_ext_iff_of_nodup first.nodup second.nodup).2 fun name => ?_
  exact (first.same name).trans (second.same name).symm

theorem eraseDupsSnoc (names : List String) (name : String) :
    (names ++ [name]).eraseDups =
      if name ∈ names then names.eraseDups else names.eraseDups ++ [name] := by
  rw [List.eraseDups_append]
  by_cases seen : name ∈ names <;> simp [List.removeAll, List.eraseDups_cons, seen]

theorem eraseDupsFirstCome (names : List String) : FirstCome names names.eraseDups := by
  refine ⟨fun name => List.mem_eraseDups, ?_⟩
  induction names using List.reverseRecOn with
  | nil => simp
  | append_singleton names name ih =>
    have before {a : String} (seen : a ∈ names) : (names ++ [name]).idxOf a = names.idxOf a := by
      rw [List.idxOf_append, if_pos seen]
    have earlier : names.eraseDups.Pairwise fun a b =>
        (names ++ [name]).idxOf a < (names ++ [name]).idxOf b := by
      refine ih.imp_of_mem fun left right less => ?_
      rwa [before (List.mem_eraseDups.1 left), before (List.mem_eraseDups.1 right)]
    rw [eraseDupsSnoc]
    by_cases seen : name ∈ names
    · rwa [if_pos seen]
    · rw [if_neg seen]
      refine List.pairwise_append.2 ⟨earlier, List.pairwise_singleton .., fun a left b right => ?_⟩
      cases List.mem_singleton.1 right
      have inside := List.mem_eraseDups.1 left
      rw [before inside, List.idxOf_append, if_neg seen]
      exact Nat.lt_add_left _ (List.idxOf_lt_length_of_mem inside)

theorem firstComeIff {names kept : List String} : FirstCome names kept ↔ kept = names.eraseDups :=
  ⟨fun first => first.unique (eraseDupsFirstCome names), fun same => same ▸ eraseDupsFirstCome names⟩

theorem eraseDupsNodup (names : List String) : names.eraseDups.Nodup := (eraseDupsFirstCome names).nodup

theorem eraseDupsDistinct {names : List String} (distinct : names.Nodup) : names.eraseDups = names := by
  induction names using List.reverseRecOn with
  | nil => rfl
  | append_singleton names name ih =>
    obtain ⟨others, -, apart⟩ := List.nodup_append.1 distinct
    have fresh : name ∉ names := fun seen => apart name seen name (by simp) rfl
    rw [eraseDupsSnoc, if_neg fresh, ih others]

theorem eraseDupsStages (names more : List String) :
    (names.eraseDups ++ more.eraseDups).eraseDups = (names ++ more).eraseDups := by
  -- From the right: whether the last name is new is the same question on both sides.
  induction more using List.reverseRecOn with
  | nil => simpa using eraseDupsDistinct (eraseDupsNodup names)
  | append_singleton more name ih =>
    rw [eraseDupsSnoc, ← List.append_assoc, eraseDupsSnoc]
    by_cases late : name ∈ more
    · rw [if_pos late, if_pos (List.mem_append_right _ late), ih]
    · rw [if_neg late, ← List.append_assoc, eraseDupsSnoc, ih]
      simp only [List.mem_append, List.mem_eraseDups]

theorem eraseDupsTwice {names : List String} (distinct : names.Nodup) :
    (names ++ names).eraseDups = names := by
  have nothing : names.removeAll names = [] := by simp [List.removeAll]
  rw [List.eraseDups_append, nothing, eraseDupsDistinct distinct]
  exact List.append_nil names

end Orchestration
