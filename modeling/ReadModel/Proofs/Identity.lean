import ReadModel.Proofs.Awaited
import ReadModel.Projections.Orgs
import ReadModel.Projections.Raw

/-!
Read models leave events their place in the log.
-/

namespace ReadModel

/-- A reducer makes statements of an event only, not of others. -/
def Reducer.KeepsIdentity (f : Reducer) : Prop :=
  ∀ e st, f e = .ok st → ∃ op, st = e.statement op

namespace Reducer

/-- What is read of an event only decides on the operation. -/
theorem keepsIdentity_of_read {α : Type} (read : Event → Except ReduceError α)
    (operation : Event → α → Operation) :
    KeepsIdentity fun e => (do
      let a ← read e
      .ok (e.statement (operation e a))) := by
  intro e st reduced
  dsimp only at reduced
  cases step : read e with
  | error cause =>
    rw [step] at reduced
    cases reduced
  | ok a =>
    rw [step] at reduced
    cases reduced
    exact ⟨_, rfl⟩

theorem keepsIdentity_of_event (operation : Event → Operation) :
    KeepsIdentity fun e => .ok (e.statement (operation e)) := by
  intro e st reduced
  cases reduced
  exact ⟨_, rfl⟩

end Reducer

/-- A registry keeps the identity of events if its reducers do. -/
theorem Registry.keepsIdentity {r : Registry}
    (all : ∀ a ∈ r.aggregates, ∀ f ∈ a.reducers.map Prod.snd, Reducer.KeepsIdentity f) :
    r.KeepsIdentity := by
  intro e st reduced
  unfold reduce at reduced
  split at reduced
  next reducer found =>
    unfold reducer? at found
    obtain ⟨entry, last, rfl⟩ := Option.map_eq_some_iff.mp found
    obtain ⟨a, member, inside⟩ := List.mem_flatMap.mp (List.mem_of_getLast? last)
    split at inside
    · exact all a member _ (List.mem_map_of_mem (List.mem_filter.mp inside).1) e st reduced
    · cases inside
  next =>
    cases reduced
    exact ⟨_, rfl⟩

theorem Raw.keepsIdentity : rawProjection.registry.KeepsIdentity := by
  have operation : Reducer.KeepsIdentity Raw.reduceOperation :=
    Reducer.keepsIdentity_of_read _ fun _ operation => operation
  have refuse : Reducer.KeepsIdentity Raw.refuse := fun e st reduced => by cases reduced
  refine Registry.keepsIdentity ?_
  simp only [rawProjection, List.map_cons, List.map_nil, List.forall_mem_cons,
    List.not_mem_nil, false_implies, implies_true, and_true]
  exact ⟨⟨operation, refuse⟩, operation⟩

theorem Users.keepsIdentity : usersProjection.registry.KeepsIdentity := by
  have added : Reducer.KeepsIdentity Users.reduceAdded := by
    intro e st reduced
    unfold Users.reduceAdded at reduced
    cases read : e.decodePayload Users.readAdded with
    | error cause =>
      rw [read] at reduced
      cases reduced
    | ok added =>
      rw [read] at reduced
      by_cases blank : isBlankText added.username = true
      · simp [bind, Except.bind, blank] at reduced
      · simp [bind, Except.bind, blank] at reduced
        exact ⟨_, reduced.symm⟩
  have changed : Reducer.KeepsIdentity Users.reduceChanged :=
    Reducer.keepsIdentity_of_read _ _
  have state : ∀ text, Reducer.KeepsIdentity (Users.reduceState text) := fun text =>
    Reducer.keepsIdentity_of_event _
  have removed : Reducer.KeepsIdentity Users.reduceRemoved := Reducer.keepsIdentity_of_event _
  refine Registry.keepsIdentity ?_
  simp only [usersProjection, List.map_cons, List.map_nil, List.forall_mem_cons,
    List.not_mem_nil, false_implies, implies_true, and_true]
  exact ⟨added, changed, state _, state _, removed⟩

theorem Orgs.keepsIdentity : orgsProjection.registry.KeepsIdentity := by
  have added : Reducer.KeepsIdentity Orgs.reduceAdded := Reducer.keepsIdentity_of_read _ _
  have changed : Reducer.KeepsIdentity Orgs.reduceChanged := Reducer.keepsIdentity_of_read _ _
  have removed : Reducer.KeepsIdentity Orgs.reduceRemoved := Reducer.keepsIdentity_of_event _
  have domainAdded : Reducer.KeepsIdentity Orgs.reduceDomainAdded :=
    Reducer.keepsIdentity_of_read _ _
  have primarySet : Reducer.KeepsIdentity Orgs.reducePrimaryDomainSet :=
    Reducer.keepsIdentity_of_read _ _
  refine Registry.keepsIdentity ?_
  simp only [orgsProjection, List.map_cons, List.map_nil, List.forall_mem_cons,
    List.not_mem_nil, false_implies, implies_true, and_true]
  exact ⟨added, changed, removed, domainAdded, primarySet⟩

end ReadModel
