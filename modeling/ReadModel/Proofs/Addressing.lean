import ReadModel.Proofs.Identity
import ReadModel.Proofs.OrgDomains
import ReadModel.Proofs.Rendering
import ReadModel.Proofs.UserHistory

/-!
What users and organizations ask for is for the right rows.

A statement suits an event (`Statement.Suits`) if it has the event's place in the log, passes the checks
that the storages make before they run it, and has nothing to do with other aggregates. All statements
of the two read models suit their events.
-/

namespace ReadModel

/-- The names of the tables of users and organizations, and of their columns. -/
def builtInNames : List String :=
  [usersTable, orgsTable, orgDomainsTable, "instance_id", "id", "org_id", "username", "email",
    "display_name", "name", "state", "domain", "primary_domain", "is_primary", "creation_date",
    "change_date", "sequence"]

theorem isName_of_builtIn {name : String} (known : name ∈ builtInNames) : IsName name := by
  have plain : ∀ name ∈ builtInNames, isPlainName name.toList = true := by decide +kernel
  exact (isPlainName_iff name).mp (plain name known)

/-- A statement has the place of an event in the log, can run and be rendered, and each part of it is
for the rows of the event's aggregate. -/
structure Statement.Suits (st : Statement) (e : Event) : Prop where
  aggregateType : st.aggregateType = e.aggregateType
  aggregateId : st.aggregateId = e.aggregateId
  instanceId : st.instanceId = e.instanceId
  sequence : st.sequence = e.sequence
  previousSequence : st.previousSequence = e.previousOfType
  creationDate : st.creationDate = e.creationDate
  valid : st.operation.validate = .ok ()
  renders : ∀ leaf ∈ st.operation.leaves, ∃ fragments, leaf.render = .ok fragments
  addressed : ∀ leaf ∈ st.operation.leaves, leaf.AddressedTo e

variable {e : Event} {st : Statement} {op : Operation}

theorem Operation.exists_render (known : op.names ⊆ builtInNames) :
    ∃ fragments, op.render = .ok fragments :=
  ⟨_, (op.render_eq_ok_iff _).mpr ⟨fun _ among => isName_of_builtIn (known among), rfl⟩⟩

theorem Registry.KeepsIdentity.suits {r : Registry} (keeps : r.KeepsIdentity)
    (reduced : r.reduce e = .ok st) (valid : st.operation.validate = .ok ())
    (names : ∀ leaf ∈ st.operation.leaves, leaf.names ⊆ builtInNames)
    (addressed : ∀ leaf ∈ st.operation.leaves, leaf.AddressedTo e) : st.Suits e := by
  have renders : ∀ leaf ∈ st.operation.leaves, ∃ fragments, leaf.render = .ok fragments :=
    fun leaf among => Operation.exists_render (names leaf among)
  obtain ⟨op, rfl⟩ := keeps e st reduced
  exact ⟨rfl, rfl, rfl, rfl, rfl, rfl, valid, renders, addressed⟩

namespace Users

theorem Asks.table (asks : Asks e op) : ∀ leaf ∈ op.leaves, leaf.table? = some usersTable := by
  cases asks with
  | added | changed | locked | unlocked | removed => exact List.forall_mem_singleton.mpr rfl
  | nothing => exact fun leaf among => by cases among

theorem Asks.names (asks : Asks e op) : ∀ leaf ∈ op.leaves, leaf.names ⊆ builtInNames := by
  cases asks with
  | @changed change =>
    refine List.forall_mem_singleton.mpr ?_
    have told : ∀ name value, name ∈ builtInNames →
        ∀ c ∈ changedColumn name value, c.name ∈ builtInNames := by
      intro name value known c among
      rwa [name_of_mem_changedColumn among]
    intro name among
    simp only [Operation.names, List.map_append, List.cons_append, List.mem_cons, List.mem_append,
      List.mem_map] at among
    rcases among with rfl | ((((⟨c, among, rfl⟩ | ⟨c, among, rfl⟩) | ⟨c, among, rfl⟩) | among) | among)
    · simp [builtInNames]
    · exact told "username" _ (by simp [builtInNames]) c among
    · exact told "email" _ (by simp [builtInNames]) c among
    · exact told "display_name" _ (by simp [builtInNames]) c among
    · simp [Event.changeColumns] at among
      rcases among with rfl | rfl <;> simp [builtInNames]
    · simp [Event.keyConditions] at among
      rcases among with rfl | rfl <;> simp [builtInNames]
  | added | locked | unlocked | removed =>
    refine List.forall_mem_singleton.mpr ?_
    simp [Operation.names, insertion, Event.changeColumns, Event.keyConditions, builtInNames]
  | nothing => exact fun leaf among => by cases among

theorem suits_of_reduce (reduced : usersProjection.registry.reduce e = .ok st) : st.Suits e := by
  have asks := asks_of_reduce reduced
  refine keepsIdentity.suits reduced asks.valid asks.names fun leaf among => ?_
  exact ⟨usersTable, asks.table leaf among, asks.confined leaf among⟩

end Users

namespace Orgs

theorem Asks.names (asks : Asks e op) : ∀ leaf ∈ op.leaves, leaf.names ⊆ builtInNames := by
  cases asks with
  | added | changed | removed | domainAdded | primaryDomainSet =>
    simp [Operation.leaves, Operation.leavesOf, Operation.names, Event.changeColumns,
      Event.keyConditions, builtInNames]
  | nothing => exact fun leaf among => by cases among

theorem suits_of_reduce (reduced : orgsProjection.registry.reduce e = .ok st) : st.Suits e := by
  have asks := asks_of_reduce reduced
  exact keepsIdentity.suits reduced asks.valid asks.names asks.addressed

end Orgs

end ReadModel
