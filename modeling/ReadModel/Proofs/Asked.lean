import ReadModel.Projections.Orgs
import ReadModel.Proofs.Rows

/-!
What the events of users and organizations ask for.

`Users.Asks` and `Orgs.Asks` list the operations that an event can become, each with its type of event
and with what is read of the payload. `Event.told` says what a payload tells, in either of the forms
that a record can have.
-/

namespace ReadModel

theorem exists_of_bind {ε α β : Type} {x : Except ε α} {f : α → Except ε β} {b : β}
    (success : x >>= f = .ok b) : ∃ a, x = .ok a ∧ f a = .ok b := by
  cases x with
  | error cause => cases success
  | ok a => exact ⟨a, rfl, success⟩

variable {e : Event} {st : Statement}

/-- An event becomes what a reducer for it says, or nothing is to be done. -/
theorem Registry.reduce_cases {r : Registry} (reduced : r.reduce e = .ok st) :
    (∃ a ∈ r.aggregates, a.aggregateType = e.aggregateType ∧
        ∃ entry ∈ a.reducers, entry.1 = e.eventType ∧ entry.2 e = .ok st) ∨
      (∀ a ∈ r.aggregates, a.aggregateType = e.aggregateType →
        ∀ entry ∈ a.reducers, entry.1 ≠ e.eventType) ∧ st = e.statement .noOp := by
  unfold reduce at reduced
  split at reduced
  next reducer found =>
    obtain ⟨entry, last, rfl⟩ := Option.map_eq_some_iff.mp found
    obtain ⟨a, member, inside⟩ := List.mem_flatMap.mp (List.mem_of_getLast? last)
    split at inside
    next type =>
      obtain ⟨among, named⟩ := List.mem_filter.mp inside
      exact .inl ⟨a, member, type, entry, among, of_decide_eq_true named, reduced⟩
    next => cases inside
  next none =>
    refine .inr ⟨fun a member type entry among named => ?_, (Except.ok.inj reduced).symm⟩
    rw [reducer?, Option.map_eq_none_iff, List.getLast?_eq_none_iff, List.flatMap_eq_nil_iff] at none
    have empty := none a member
    rw [if_pos type, List.filter_eq_nil_iff] at empty
    exact empty entry among (decide_eq_true named)

theorem Event.decodePayload_eq_ok {α : Type} {read : Decoder α} {a : α}
    (decoded : e.decodePayload read = .ok a) : read e.payload = .ok a := by
  unfold decodePayload at decoded
  split at decoded
  next value same => rw [same, Except.ok.inj decoded]
  next => cases decoded

/-- A reducer that reads something of an event, and makes an operation of what it has read. -/
theorem Reducer.exists_read {α : Type} {f : Reducer} {read : Event → Except ReduceError α}
    {operation : Event → α → Operation} (made : f e = .ok st)
    (reads : f = fun e => do
      let a ← read e
      .ok (e.statement (operation e a))) :
    ∃ a, read e = .ok a ∧ st = e.statement (operation e a) := by
  subst reads
  obtain ⟨a, step, made⟩ := exists_of_bind made
  exact ⟨a, step, (Except.ok.inj made).symm⟩

/-- A text, if it is one. -/
def Json.text? : Json → Option String
  | .text s => some s
  | _ => none

/-- The text that a payload tells under a name, or at a position where it is a list. -/
def Event.told (event : Event) (position : Nat) (name : String) : Option String :=
  match event.payload with
  | .object fields => (lookup name fields).bind Json.text?
  | .list items => items[position]?.bind Json.text?
  | _ => none

/-- The rows of an event's aggregate, which a column names. -/
def Event.scope (e : Event) (idColumn : String) : Scope :=
  [("instance_id", e.instanceId.text), (idColumn, e.aggregateId.text)]

theorem Event.confined_delete (e : Event) (table idColumn : String) :
    (Operation.delete table (e.keyConditions idColumn)).Confined (e.scope idColumn) :=
  .delete (List.Subset.refl _)

theorem Event.confined_update (e : Event) {table idColumn : String} {columns : List Column}
    {conditions : List Condition} (asked : e.keyConditions idColumn ⊆ conditions)
    (kept : ∀ c ∈ columns, c.name ≠ "instance_id" ∧ c.name ≠ idColumn) :
    (Operation.update table columns conditions).Confined (e.scope idColumn) := by
  refine .update ?_ asked
  simp only [Event.scope, List.forall_mem_cons, List.not_mem_nil, false_implies, implies_true, and_true]
  exact ⟨fun c among => (kept c among).1, fun c among => (kept c among).2⟩

/-- The column that names the aggregate in a table of users, organizations or domains. -/
def aggregateColumn (table : String) : String := if table = orgDomainsTable then "org_id" else "id"

@[simp]
theorem aggregateColumn_users : aggregateColumn usersTable = "id" := rfl

@[simp]
theorem aggregateColumn_orgs : aggregateColumn orgsTable = "id" := rfl

@[simp]
theorem aggregateColumn_orgDomains : aggregateColumn orgDomainsTable = "org_id" := rfl

/-- An operation on a single table reaches the rows of an event's aggregate only, and writes no others. -/
def Operation.AddressedTo (e : Event) (op : Operation) : Prop :=
  ∃ table, op.table? = some table ∧ op.Confined (e.scope (aggregateColumn table))

namespace Users

/-- The types of the events that users are changed by. -/
def eventTypes : List EventType :=
  [⟨"user.added"⟩, ⟨"user.changed"⟩, ⟨"user.locked"⟩, ⟨"user.unlocked"⟩, ⟨"user.removed"⟩]

/-- The operations that an event can become in the read model of users. -/
inductive Asks (e : Event) : Operation → Prop
  | added {added : Added} (type : e.eventType = ⟨"user.added"⟩)
      (read : readAdded e.payload = .ok added) : Asks e (insertion e added)
  | changed {change : Changed} (type : e.eventType = ⟨"user.changed"⟩)
      (read : readChanged e.payload = .ok change) :
      Asks e (.update usersTable
        (changedColumn "username" change.username ++ changedColumn "email" change.email ++
          changedColumn "display_name" change.displayName ++ e.changeColumns)
        (e.keyConditions "id"))
  | locked (type : e.eventType = ⟨"user.locked"⟩) :
      Asks e (.update usersTable (⟨"state", .text "locked"⟩ :: e.changeColumns)
        (e.keyConditions "id"))
  | unlocked (type : e.eventType = ⟨"user.unlocked"⟩) :
      Asks e (.update usersTable (⟨"state", .text "active"⟩ :: e.changeColumns)
        (e.keyConditions "id"))
  | removed (type : e.eventType = ⟨"user.removed"⟩) :
      Asks e (.delete usersTable (e.keyConditions "id"))
  | nothing (other : e.aggregateType = ⟨"user"⟩ → e.eventType ∉ eventTypes) : Asks e .noOp

theorem asks_of_reduceAdded (type : e.eventType = ⟨"user.added"⟩) (made : reduceAdded e = .ok st) :
    Asks e st.operation := by
  obtain ⟨added, read, made⟩ := exists_of_bind made
  split at made
  next => cases made
  next =>
    rw [← Except.ok.inj made]
    exact .added type (Event.decodePayload_eq_ok read)

theorem asks_of_reduce (reduced : usersProjection.registry.reduce e = .ok st) :
    Asks e st.operation := by
  rcases Registry.reduce_cases reduced with ⟨a, member, _, entry, among, type, made⟩ | ⟨other, rfl⟩
  · obtain rfl := List.mem_singleton.mp member
    simp only [List.mem_cons, List.not_mem_nil, or_false] at among
    rcases among with rfl | rfl | rfl | rfl | rfl
    · exact asks_of_reduceAdded type.symm made
    · obtain ⟨change, read, rfl⟩ := Reducer.exists_read made rfl
      exact .changed type.symm (Event.decodePayload_eq_ok read)
    · cases made
      exact .locked type.symm
    · cases made
      exact .unlocked type.symm
    · cases made
      exact .removed type.symm
  · refine .nothing fun type known => ?_
    have apart := other _ (List.mem_singleton_self _) type.symm
    simp only [eventTypes, List.mem_cons, List.not_mem_nil, or_false] at known
    simp only [List.forall_mem_cons, List.not_mem_nil, false_implies, implies_true, and_true] at apart
    grind

theorem name_of_mem_changedColumn {name : String} {value : Option String} {c : Column}
    (among : c ∈ changedColumn name value) : c.name = name := by
  cases value with
  | none => cases among
  | some text => rw [List.mem_singleton.mp among]

theorem Asks.confined {op : Operation} (asks : Asks e op) :
    ∀ leaf ∈ op.leaves, leaf.Confined (e.scope "id") := by
  cases asks with
  | @added added =>
    refine List.forall_mem_singleton.mpr (.create ?_ (.inr ?_))
    · simp [Event.scope, Event.changeColumns]
    · simp [Event.scope]
  | @changed change =>
    refine List.forall_mem_singleton.mpr (e.confined_update (List.Subset.refl _) ?_)
    intro c among
    simp only [List.mem_append, Event.changeColumns, List.mem_cons, List.not_mem_nil, or_false] at among
    rcases among with ((among | among) | among) | rfl | rfl
    · rw [name_of_mem_changedColumn among]
      decide
    · rw [name_of_mem_changedColumn among]
      decide
    · rw [name_of_mem_changedColumn among]
      decide
    · simp
    · simp
  | locked | unlocked =>
    refine List.forall_mem_singleton.mpr (e.confined_update (List.Subset.refl _) ?_)
    simp [Event.changeColumns]
  | removed => exact List.forall_mem_singleton.mpr (e.confined_delete ..)
  | nothing => exact fun leaf among => by cases among

end Users

namespace Orgs

/-- The operations that an event can become in the read model of organizations. -/
inductive Asks (e : Event) : Operation → Prop
  | added {name : String} (type : e.eventType = ⟨"org.added"⟩) (read : readName e = .ok name) :
      Asks e (.create orgsTable
        ([⟨"instance_id", .text e.instanceId.text⟩,
          ⟨"id", .text e.aggregateId.text⟩,
          ⟨"name", .text name⟩,
          ⟨"state", .text "active"⟩,
          ⟨"creation_date", .timestamp e.creationDate⟩] ++ e.changeColumns)
        [])
  | changed {name : String} (type : e.eventType = ⟨"org.changed"⟩) (read : readName e = .ok name) :
      Asks e (.update orgsTable (⟨"name", .text name⟩ :: e.changeColumns) (e.keyConditions "id"))
  | removed (type : e.eventType = ⟨"org.removed"⟩) :
      Asks e (.multi
        [.delete orgDomainsTable (e.keyConditions "org_id"),
          .delete orgsTable (e.keyConditions "id")])
  | domainAdded {domain : String} (type : e.eventType = ⟨"org.domain.added"⟩)
      (read : readDomain e = .ok domain) :
      Asks e (.create orgDomainsTable
        [⟨"instance_id", .text e.instanceId.text⟩,
          ⟨"org_id", .text e.aggregateId.text⟩,
          ⟨"domain", .text domain⟩,
          ⟨"is_primary", .bool false⟩,
          ⟨"creation_date", .timestamp e.creationDate⟩,
          ⟨"sequence", .ofSequence e.sequence⟩]
        ["instance_id", "org_id", "domain"])
  | primaryDomainSet {domain : String} (type : e.eventType = ⟨"org.domain.primary.set"⟩)
      (read : readDomain e = .ok domain) :
      Asks e (.multi
        [.update orgDomainsTable [⟨"is_primary", .bool false⟩] (e.keyConditions "org_id"),
          .update orgDomainsTable [⟨"is_primary", .bool true⟩]
            (e.keyConditions "org_id" ++ [⟨"domain", .text domain⟩]),
          .update orgsTable (⟨"primary_domain", .text domain⟩ :: e.changeColumns)
            (e.keyConditions "id")])
  | nothing (other : e.aggregateType = ⟨"org"⟩ → e.eventType ≠ ⟨"org.removed"⟩) : Asks e .noOp

theorem asks_of_reduce (reduced : orgsProjection.registry.reduce e = .ok st) :
    Asks e st.operation := by
  rcases Registry.reduce_cases reduced with ⟨a, member, _, entry, among, type, made⟩ | ⟨other, rfl⟩
  · obtain rfl := List.mem_singleton.mp member
    simp only [List.mem_cons, List.not_mem_nil, or_false] at among
    rcases among with rfl | rfl | rfl | rfl | rfl
    · obtain ⟨name, read, rfl⟩ := Reducer.exists_read made rfl
      exact .added type.symm read
    · obtain ⟨name, read, rfl⟩ := Reducer.exists_read made rfl
      exact .changed type.symm read
    · cases made
      exact .removed type.symm
    · obtain ⟨domain, read, rfl⟩ := Reducer.exists_read made rfl
      exact .domainAdded type.symm read
    · obtain ⟨domain, read, rfl⟩ := Reducer.exists_read made rfl
      exact .primaryDomainSet type.symm read
  · refine .nothing fun type removed => ?_
    have apart := other _ (List.mem_singleton_self _) type.symm
    exact apart (⟨"org.removed"⟩, reduceRemoved) (by simp) removed.symm

theorem Asks.addressed {op : Operation} (asks : Asks e op) :
    ∀ leaf ∈ op.leaves, leaf.AddressedTo e := by
  cases asks with
  | @added name =>
    refine List.forall_mem_singleton.mpr ⟨orgsTable, rfl, .create ?_ (.inl rfl)⟩
    simp [Event.scope, Event.changeColumns]
  | @changed name =>
    refine List.forall_mem_singleton.mpr
      ⟨orgsTable, rfl, e.confined_update (List.Subset.refl _) ?_⟩
    simp [Event.changeColumns]
  | removed =>
    simp only [Operation.leaves, Operation.leavesOf, List.append_nil, List.singleton_append,
      List.forall_mem_cons, List.not_mem_nil, false_implies, implies_true, and_true]
    exact ⟨⟨orgDomainsTable, rfl, e.confined_delete ..⟩, ⟨orgsTable, rfl, e.confined_delete ..⟩⟩
  | @domainAdded domain =>
    refine List.forall_mem_singleton.mpr ⟨orgDomainsTable, rfl, .create ?_ (.inr ?_)⟩
    · simp [Event.scope]
    · simp [Event.scope]
  | @primaryDomainSet domain =>
    simp only [Operation.leaves, Operation.leavesOf, List.append_nil, List.singleton_append,
      List.forall_mem_cons, List.not_mem_nil, false_implies, implies_true, and_true]
    refine ⟨⟨orgDomainsTable, rfl, e.confined_update (List.Subset.refl _) ?_⟩,
      ⟨orgDomainsTable, rfl, e.confined_update (List.subset_append_left ..) ?_⟩,
      ⟨orgsTable, rfl, e.confined_update (List.Subset.refl _) ?_⟩⟩
    · simp
    · simp
    · simp [Event.changeColumns]
  | nothing => exact fun leaf among => by cases among

theorem Asks.confined {op : Operation} (asks : Asks e op) :
    ∀ leaf ∈ op.leaves, leaf.Confined (e.scope "id") ∨ leaf.Confined (e.scope "org_id") := by
  intro leaf among
  obtain ⟨table, -, confined⟩ := asks.addressed leaf among
  unfold aggregateColumn at confined
  split at confined
  next => exact .inr confined
  next => exact .inl confined

end Orgs

end ReadModel
