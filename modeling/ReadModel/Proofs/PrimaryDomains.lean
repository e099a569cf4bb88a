import Mathlib.Data.List.DropRight
import ReadModel.Proofs.OrgDomains

/-!
The primary domains of organizations.

The row of an organization names its primary domain, and the row of this domain has the mark. Both are
set together, and both go when the organization is removed. But a domain that is added gets a row
without the mark, also where this takes the place of one that has it, and the row of the organization
goes on naming the domain. So the two agree exactly as long as the primary domain is not added again
(`Orgs.AddedSince`).
-/

namespace ReadModel

namespace Orgs

/-- The row of an organization. -/
def ownScope (instanceId : InstanceId) (id : AggregateId) : Scope :=
  [("instance_id", instanceId.text), ("id", id.text)]

/-- Whether an event sets the primary domain of an organization. -/
def Sets (instanceId : InstanceId) (id : AggregateId) (e : Event) : Prop :=
  e.instanceId = instanceId ∧ e.aggregateId = id ∧ e.eventType = ⟨"org.domain.primary.set"⟩
  deriving Decidable

/-- Whether an event adds a domain to an organization. -/
def Adds (instanceId : InstanceId) (id : AggregateId) (domain : String) (e : Event) : Prop :=
  e.instanceId = instanceId ∧ e.aggregateId = id ∧ e.eventType = ⟨"org.domain.added"⟩ ∧
    (readDomain e).toOption = some domain
  deriving Decidable

/-- Whether a domain was added to an organization since its primary domain was set. -/
def AddedSince (instanceId : InstanceId) (id : AggregateId) (domain : String) (events : List Event) :
    Prop :=
  ∃ e ∈ events.rtakeWhile fun e => !decide (Sets instanceId id e), Adds instanceId id domain e
  deriving Decidable

/-- Whether a domain of an organization is there with the mark. -/
def Marked (domains : List Row) (instanceId : InstanceId) (id : AggregateId) (domain : String) : Prop :=
  ∃ row ∈ domains, (domainScope instanceId id domain).has row = true ∧ isPrimary row = true
  deriving Decidable

/-- Whether the row of an organization names a domain as the primary one. -/
def Names (row : Row) (domain : String) : Prop := row.find? "primary_domain" = some (.text domain)

/-- Organizations are added only where there is none, and only a domain that is there becomes the
primary one, of an organization that is there. -/
def Allowed (t : Tables) (e : Event) : Prop :=
  (e.eventType = ⟨"org.added"⟩ →
    ∀ row ∈ t.rows orgsTable, (ownScope e.instanceId e.aggregateId).has row = false) ∧
  (e.eventType = ⟨"org.domain.primary.set"⟩ →
    (∃ row ∈ t.rows orgsTable, (ownScope e.instanceId e.aggregateId).has row = true) ∧
    ∃ domain ∈ (readDomain e).toOption, ∃ row ∈ t.rows orgDomainsTable,
      (domainScope e.instanceId e.aggregateId domain).has row = true)
  deriving Decidable

variable {e : Event} {st : Statement} {past : List Event} {orgs domains : List Row}
  {instanceId : InstanceId} {id : AggregateId} {domain : String}

theorem addedSince_concat :
    AddedSince instanceId id domain (past ++ [e]) ↔
      ¬Sets instanceId id e ∧ (AddedSince instanceId id domain past ∨ Adds instanceId id domain e) := by
  unfold AddedSince
  rw [List.rtakeWhile_concat]
  by_cases sets : Sets instanceId id e
  · simp [sets]
  · simp [sets, or_and_right, exists_or]

/-- An event of another type neither sets a primary domain nor adds a domain. -/
theorem addedSince_concat_of_other (added : e.eventType ≠ ⟨"org.domain.added"⟩)
    (set : e.eventType ≠ ⟨"org.domain.primary.set"⟩) :
    AddedSince instanceId id domain (past ++ [e]) ↔ AddedSince instanceId id domain past := by
  simp [addedSince_concat, Sets, Adds, added, set]

theorem domainScope_inj {instanceId' : InstanceId} {id' : AggregateId} {domain' : String} :
    domainScope instanceId id domain = domainScope instanceId' id' domain' ↔
      instanceId = instanceId' ∧ id = id' ∧ domain = domain' := by
  refine ⟨fun same => ?_, by rintro ⟨rfl, rfl, rfl⟩; rfl⟩
  simp only [domainScope, List.cons.injEq, Prod.mk.injEq, true_and, and_true] at same
  exact ⟨Identifier.eq_of_text same.1, Identifier.eq_of_text same.2.1, same.2.2⟩

theorem ownScope_inj {instanceId' : InstanceId} {id' : AggregateId} :
    ownScope instanceId id = ownScope instanceId' id' ↔ instanceId = instanceId' ∧ id = id' := by
  refine ⟨fun same => ?_, by rintro ⟨rfl, rfl⟩; rfl⟩
  simp only [ownScope, List.cons.injEq, Prod.mk.injEq, true_and, and_true] at same
  exact ⟨Identifier.eq_of_text same.1, Identifier.eq_of_text same.2⟩

theorem eq_of_ownScope_has {row : Row} {instanceId' : InstanceId} {id' : AggregateId}
    (has : (ownScope instanceId id).has row = true) (has' : (ownScope instanceId' id').has row = true) :
    instanceId = instanceId' ∧ id = id' :=
  ownScope_inj.mp (Scope.eq_of_has (by rfl) has has')

theorem scope_inj {instanceId' : InstanceId} {id' : AggregateId} :
    scope instanceId id = scope instanceId' id' ↔ instanceId = instanceId' ∧ id = id' := by
  refine ⟨fun same => ?_, by rintro ⟨rfl, rfl⟩; rfl⟩
  simp only [scope, List.cons.injEq, Prod.mk.injEq, true_and, and_true] at same
  exact ⟨Identifier.eq_of_text same.1, Identifier.eq_of_text same.2⟩

section Domains

theorem marked_iff_filter :
    Marked domains instanceId id domain ↔
      ∃ row ∈ domains.filter (domainScope instanceId id domain).has, isPrimary row = true := by
  simp [Marked, List.mem_filter, and_assoc]

/-- A domain that is added has no mark, and the marks of all others stay. -/
theorem marked_domainAdded (tidy : Tidy domains) (e : Event) (added : String) :
    Marked ((Operation.create orgDomainsTable (domainColumns e added)
        ["instance_id", "org_id", "domain"]).effect orgDomainsTable domains) instanceId id domain ↔
      Marked domains instanceId id domain ∧
        ¬(instanceId = e.instanceId ∧ id = e.aggregateId ∧ domain = added) := by
  have confined : (Operation.create orgDomainsTable (domainColumns e added)
      ["instance_id", "org_id", "domain"]).Confined (domainScope e.instanceId e.aggregateId added) := by
    refine .create ?_ (.inr ?_)
    · simp [domainScope, domainColumns]
    · simp [domainScope]
  rw [marked_iff_filter, marked_iff_filter, ← domainScope_inj]
  by_cases same : domainScope instanceId id domain = domainScope e.instanceId e.aggregateId added
  · have once := tidy.once e.instanceId e.aggregateId added
    rw [List.countP_eq_length_filter] at once
    have hit : ∀ row ∈ domains.filter (domainScope e.instanceId e.aggregateId added).has,
        (domainScope e.instanceId e.aggregateId added).has row = true :=
      fun row among => (List.mem_filter.mp among).2
    rw [same, confined.filter_effect, Operation.effect, if_pos rfl]
    -- there is one row of the domain at most, so that the new one replaces all of them
    generalize domains.filter (domainScope e.instanceId e.aggregateId added).has = own at once hit
    have fresh : ∀ row ∈ Tables.upsertRow (fun row => !List.isEmpty ["instance_id", "org_id", "domain"] &&
        Row.conflicts row (domainColumns e added) ["instance_id", "org_id", "domain"])
          (domainColumns e added) own, isPrimary row = false := by
      rcases Nat.le_one_iff_eq_zero_or_eq_one.mp once with none | one
      · rw [List.length_eq_zero_iff.mp none]
        exact List.forall_mem_singleton.mpr (not_isPrimary_assign_domainColumns ..)
      · obtain ⟨row, rfl⟩ := List.length_eq_one_iff.mp one
        rw [Tables.upsertRow, if_pos]
        · exact List.forall_mem_singleton.mpr (not_isPrimary_assign_domainColumns ..)
        · rw [test_domainColumns]
          exact hit row (List.mem_singleton_self row)
    simp only [not_true_eq_false, and_false, iff_false, not_exists, not_and]
    intro row among
    rw [fresh row among]
    exact Bool.false_ne_true
  · rw [confined.filter_effect_of_disjoint fun row => Scope.not_has_of_ne (by rfl) same]
    exact (and_iff_left same).symm

/-- Where the primary domain is set, it alone has the mark, if it is there. -/
theorem marked_primaryDomainSet (e : Event) (set : String) :
    Marked ((domains.map (mark false (scope e.instanceId e.aggregateId))).map
        (mark true (domainScope e.instanceId e.aggregateId set))) instanceId id domain ↔
      if instanceId = e.instanceId ∧ id = e.aggregateId then
        domain = set ∧ ∃ row ∈ domains, (domainScope e.instanceId e.aggregateId set).has row = true
      else Marked domains instanceId id domain := by
  simp only [Marked, List.mem_map, exists_exists_and_eq_and, domainScope_has_mark, isPrimary_mark]
  split
  next same =>
    obtain ⟨rfl, rfl⟩ := same
    constructor
    · rintro ⟨row, among, has, marked⟩
      rw [if_pos (scope_has_of_domainScope has)] at marked
      have hit : (domainScope e.instanceId e.aggregateId set).has row = true := by
        by_contra miss
        rw [if_neg miss] at marked
        cases marked
      exact ⟨(domainScope_inj.mp (Scope.eq_of_has (by rfl) has hit)).2.2, row, among, hit⟩
    · rintro ⟨rfl, row, among, has⟩
      exact ⟨row, among, has, by rw [if_pos has]⟩
  next other =>
    refine exists_congr fun row => and_congr_right fun _ => and_congr_right fun has => ?_
    have apart : ¬(scope e.instanceId e.aggregateId).has row = true :=
      fun also => other (scope_inj.mp (Scope.eq_of_has (by rfl) (scope_has_of_domainScope has) also))
    rw [if_neg (mt scope_has_of_domainScope apart), if_neg apart]

/-- Where an organization is removed, no domain of it is left. -/
theorem marked_removed (e : Event) :
    Marked ((Operation.delete orgDomainsTable (e.keyConditions "org_id")).effect orgDomainsTable domains)
        instanceId id domain ↔
      Marked domains instanceId id domain ∧ ¬(instanceId = e.instanceId ∧ id = e.aggregateId) := by
  have left (row : Row) : row ∈ (Operation.delete orgDomainsTable
      (e.keyConditions "org_id")).effect orgDomainsTable domains ↔
        row ∈ domains ∧ ¬(scope e.instanceId e.aggregateId).has row = true := by
    rw [Operation.effect, if_pos rfl, List.mem_filter, Bool.not_eq_true', ← Bool.not_eq_true]
    rfl
  simp only [Marked, left, ← scope_inj]
  constructor
  · rintro ⟨row, ⟨among, out⟩, has, marked⟩
    exact ⟨⟨row, among, has, marked⟩, fun same => out (same ▸ scope_has_of_domainScope has)⟩
  · rintro ⟨⟨row, among, has, marked⟩, other⟩
    refine ⟨row, ⟨among, fun also => other ?_⟩, has, marked⟩
    exact Scope.eq_of_has (by rfl) (scope_has_of_domainScope has) also

end Domains

/-- The types of the events that the read model of organizations is changed by. -/
def eventTypes : List EventType :=
  [⟨"org.added"⟩, ⟨"org.changed"⟩, ⟨"org.removed"⟩, ⟨"org.domain.added"⟩, ⟨"org.domain.primary.set"⟩]

/-- An event of such a type asks for something. -/
theorem not_known_of_noOp (reduced : orgsProjection.registry.reduce e = .ok st)
    (about : e.aggregateType = ⟨"org"⟩) (idle : st.operation = .noOp) : e.eventType ∉ eventTypes := by
  rcases Registry.reduce_cases reduced with ⟨a, member, _, entry, among, _, made⟩ | ⟨other, _⟩
  · obtain rfl := List.mem_singleton.mp member
    simp only [List.mem_cons, List.not_mem_nil, or_false] at among
    rcases among with rfl | rfl | rfl | rfl | rfl
    · obtain ⟨_, _, rfl⟩ := Reducer.exists_read made rfl
      cases idle
    · obtain ⟨_, _, rfl⟩ := Reducer.exists_read made rfl
      cases idle
    · cases made
      cases idle
    · obtain ⟨_, _, rfl⟩ := Reducer.exists_read made rfl
      cases idle
    · obtain ⟨_, _, rfl⟩ := Reducer.exists_read made rfl
      cases idle
  · have apart := other _ (List.mem_singleton_self _) about.symm
    simp only [eventTypes, List.mem_cons, List.not_mem_nil, or_false]
    simp only [List.forall_mem_cons, List.not_mem_nil, false_implies, implies_true, and_true] at apart
    grind

/-- What the two tables say of primary domains after some events. -/
structure Agreed (past : List Event) (orgs domains : List Row) : Prop where
  tidy : Tidy domains
  /-- All rows are those of organizations. -/
  named : ∀ row ∈ orgs, ∃ instanceId id, (ownScope instanceId id).has row = true
  agrees (instanceId : InstanceId) (id : AggregateId) :
    ∀ row ∈ orgs, (ownScope instanceId id).has row = true → ∀ domain,
      (Marked domains instanceId id domain ↔
        Names row domain ∧ ¬AddedSince instanceId id domain past)
  /-- Where there is no organization, there is no mark. -/
  vacant (instanceId : InstanceId) (id : AggregateId) :
    (∀ row ∈ orgs, (ownScope instanceId id).has row = false) → ∀ domain,
      ¬Marked domains instanceId id domain

namespace Agreed

theorem nil : Agreed [] [] [] where
  tidy := .nil
  named _ among := nomatch among
  agrees _ _ _ among := nomatch among
  vacant _ _ _ _ marked := by
    obtain ⟨_, among, _⟩ := marked
    cases among

theorem nothing (agreed : Agreed past orgs domains) (added : e.eventType ≠ ⟨"org.domain.added"⟩)
    (set : e.eventType ≠ ⟨"org.domain.primary.set"⟩) : Agreed (past ++ [e]) orgs domains where
  tidy := agreed.tidy
  named := agreed.named
  agrees instanceId id row among has domain := by
    rw [addedSince_concat_of_other added set]
    exact agreed.agrees instanceId id row among has domain
  vacant := agreed.vacant

/-- An organization that is added has no primary domain yet. -/
theorem added (agreed : Agreed past orgs domains) {columns : List Column}
    (own : ∀ entry ∈ ownScope instanceId id, (∃ c ∈ columns, c.name = entry.1) ∧
      ∀ c ∈ columns, c.name = entry.1 → c.value = .text entry.2)
    (unnamed : ∀ c ∈ columns, c.name ≠ "primary_domain")
    (new : ∀ row ∈ orgs, (ownScope instanceId id).has row = false) :
    Agreed past ((Operation.create orgsTable columns []).effect orgsTable orgs) domains := by
  have inside (row : Row) :
      row ∈ (Operation.create orgsTable columns []).effect orgsTable orgs ↔
        row ∈ orgs ∨ row = Row.assign ∅ columns := by
    rw [Operation.effect, if_pos rfl]
    clear new agreed
    induction orgs with
    | nil => simp [Tables.upsertRow]
    | cons first rest ih => simpa [Tables.upsertRow, or_assoc] using or_congr_right ih
  have has := Operation.Confined.has_assign own ∅
  refine ⟨agreed.tidy, fun row among => ?_, fun instanceId' id' row among has' domain => ?_,
    fun instanceId' id' none => ?_⟩
  · rcases (inside row).mp among with old | rfl
    · exact agreed.named row old
    · exact ⟨instanceId, id, has⟩
  · rcases (inside row).mp among with old | rfl
    · exact agreed.agrees instanceId' id' row old has' domain
    · obtain ⟨rfl, rfl⟩ := eq_of_ownScope_has has' has
      have none : ¬Names (Row.assign ∅ columns) domain := by
        rw [Names, Row.find?_assign_of_not_mem unnamed, Dict.find?_empty]
        exact (Option.some_ne_none _).symm
      exact iff_of_false (agreed.vacant _ _ new domain) fun both => none both.1
  · exact agreed.vacant instanceId' id' fun row old => none row ((inside row).mpr (.inl old))

/-- The rows of organizations change, but not which they are, nor which domains they name. -/
theorem map (agreed : Agreed past orgs domains) {change : Row → Row}
    (kept : ∀ instanceId id row,
      (ownScope instanceId id).has (change row) = (ownScope instanceId id).has row)
    (same : ∀ row, (change row).find? "primary_domain" = row.find? "primary_domain") :
    Agreed past (orgs.map change) domains where
  tidy := agreed.tidy
  named := by
    refine List.forall_mem_map.mpr fun row among => ?_
    obtain ⟨instanceId, id, has⟩ := agreed.named row among
    exact ⟨instanceId, id, by rw [kept, has]⟩
  agrees instanceId id := by
    refine List.forall_mem_map.mpr fun row among has domain => ?_
    rw [kept] at has
    rw [Names, same]
    exact agreed.agrees instanceId id row among has domain
  vacant instanceId id none :=
    agreed.vacant instanceId id fun row among =>
      kept instanceId id row ▸ none (change row) (List.mem_map_of_mem among)

/-- A domain that is added, maybe again, loses its mark. -/
theorem domainAdded (agreed : Agreed past orgs domains) {added : String}
    (type : e.eventType = ⟨"org.domain.added"⟩) (read : readDomain e = .ok added) :
    Agreed (past ++ [e]) orgs ((Operation.create orgDomainsTable (domainColumns e added)
      ["instance_id", "org_id", "domain"]).effect orgDomainsTable domains) where
  tidy := agreed.tidy.domainAdded e added
  named := agreed.named
  agrees instanceId id row among has domain := by
    have sets : ¬Sets instanceId id e := by simp [Sets, type]
    have adds : Adds instanceId id domain e ↔
        instanceId = e.instanceId ∧ id = e.aggregateId ∧ domain = added := by
      simp [Adds, type, read, Except.toOption, eq_comm]
    rw [marked_domainAdded agreed.tidy, agreed.agrees instanceId id row among has, addedSince_concat,
      adds]
    tauto
  vacant instanceId id none domain marked :=
    agreed.vacant instanceId id none domain ((marked_domainAdded agreed.tidy e added).mp marked).1

/-- The domain that becomes the primary one gets the mark, and the organization names it. -/
theorem primaryDomainSet (agreed : Agreed past orgs domains) {set : String} {columns : List Column}
    (type : e.eventType = ⟨"org.domain.primary.set"⟩) (kept : ∀ c ∈ columns,
      c.name ≠ "instance_id" ∧ c.name ≠ "id" ∧ c.name ≠ "primary_domain")
    (org : ∃ row ∈ orgs, (ownScope e.instanceId e.aggregateId).has row = true)
    (there : ∃ row ∈ domains, (domainScope e.instanceId e.aggregateId set).has row = true) :
    Agreed (past ++ [e])
      ((Operation.update orgsTable (⟨"primary_domain", .text set⟩ :: columns)
        (e.keyConditions "id")).effect orgsTable orgs)
      ((domains.map (mark false (scope e.instanceId e.aggregateId))).map
        (mark true (domainScope e.instanceId e.aggregateId set))) := by
  rw [Operation.effect, if_pos rfl]
  have own (instanceId : InstanceId) (id : AggregateId) (row : Row) :
      (ownScope instanceId id).has (if Row.meets row (e.keyConditions "id") then
        Row.assign row (⟨"primary_domain", .text set⟩ :: columns) else row) =
          (ownScope instanceId id).has row := by
    refine Operation.Confined.has_update ?_ row
    simp only [ownScope, List.forall_mem_cons, List.not_mem_nil, false_implies, implies_true, and_true]
    exact ⟨⟨by decide, fun c among => (kept c among).1⟩, by decide, fun c among => (kept c among).2.1⟩
  refine ⟨agreed.tidy.primaryDomainSet e set, ?_, fun instanceId id => ?_, fun instanceId id none => ?_⟩
  · refine List.forall_mem_map.mpr fun row among => ?_
    obtain ⟨instanceId, id, has⟩ := agreed.named row among
    exact ⟨instanceId, id, by rw [own, has]⟩
  · refine List.forall_mem_map.mpr fun row among has domain => ?_
    rw [own] at has
    rw [marked_primaryDomainSet, addedSince_concat]
    by_cases ours : instanceId = e.instanceId ∧ id = e.aggregateId
    · obtain ⟨rfl, rfl⟩ := ours
      have meets : Row.meets row (e.keyConditions "id") = true := has
      have names : Names (Row.assign row (⟨"primary_domain", .text set⟩ :: columns)) domain ↔
          domain = set := by
        rw [Names, ← List.singleton_append, Row.assign_append,
          Row.find?_assign_of_not_mem fun c among => (kept c among).2.2]
        simp [Row.assign, eq_comm]
      have sets : Sets e.instanceId e.aggregateId e := ⟨rfl, rfl, type⟩
      rw [if_pos ⟨rfl, rfl⟩, if_pos meets, names]
      simp [sets, there]
    · have misses : ¬Row.meets row (e.keyConditions "id") = true :=
        fun meets => ours (eq_of_ownScope_has has meets)
      have sets : ¬Sets instanceId id e := fun sets => ours ⟨sets.1.symm, sets.2.1.symm⟩
      have adds : ¬Adds instanceId id domain e := fun adds => ours ⟨adds.1.symm, adds.2.1.symm⟩
      rw [if_neg ours, if_neg misses, agreed.agrees instanceId id row among has]
      simp [sets, adds]
  · have none (row : Row) (among : row ∈ orgs) : (ownScope instanceId id).has row = false :=
      own instanceId id row ▸ none _ (List.mem_map_of_mem among)
    intro domain marked
    rw [marked_primaryDomainSet, if_neg] at marked
    · exact agreed.vacant instanceId id none domain marked
    · rintro ⟨rfl, rfl⟩
      obtain ⟨row, among, has⟩ := org
      exact Bool.false_ne_true ((none row among).symm.trans has)

/-- With the organization, the marks of its domains go. -/
theorem removed (agreed : Agreed past orgs domains) (e : Event) :
    Agreed past ((Operation.delete orgsTable (e.keyConditions "id")).effect orgsTable orgs)
      ((Operation.delete orgDomainsTable (e.keyConditions "org_id")).effect orgDomainsTable domains) := by
  have left (row : Row) :
      row ∈ (Operation.delete orgsTable (e.keyConditions "id")).effect orgsTable orgs ↔
        row ∈ orgs ∧ ¬(ownScope e.instanceId e.aggregateId).has row = true := by
    rw [Operation.effect, if_pos rfl, List.mem_filter, Bool.not_eq_true', ← Bool.not_eq_true]
    rfl
  refine ⟨agreed.tidy.sublist List.filter_sublist, fun row among => ?_,
    fun instanceId id row among has domain => ?_, fun instanceId id none domain marked => ?_⟩
  · exact agreed.named row ((left row).mp among).1
  · obtain ⟨old, out⟩ := (left row).mp among
    rw [marked_removed, agreed.agrees instanceId id row old has]
    refine and_iff_left ?_
    rintro ⟨rfl, rfl⟩
    exact out has
  · obtain ⟨before, other⟩ := marked_removed e |>.mp marked
    refine agreed.vacant instanceId id (fun row old => ?_) domain before
    by_contra some
    rw [Bool.not_eq_false] at some
    have gone := none row ((left row).mpr ⟨old, fun also => other (eq_of_ownScope_has some also)⟩)
    exact Bool.false_ne_true (gone.symm.trans some)

theorem step {op : Operation} {t : Tables}
    (agreed : Agreed past (t.rows orgsTable) (t.rows orgDomainsTable)) (asks : Asks e op)
    (known : op = .noOp → e.eventType ∉ eventTypes) (allowed : Allowed t e) :
    Agreed (past ++ [e]) ((op.run {} t).tables.rows orgsTable)
      ((op.run {} t).tables.rows orgDomainsTable) := by
  rw [Operation.rows_run_unhindered asks.valid, Operation.rows_run_unhindered asks.valid]
  cases asks with
  | added type =>
    refine nothing ?_ (by simp [type]) (by simp [type])
    refine agreed.added ?_ ?_ (allowed.1 type)
    · simp [ownScope, Event.changeColumns]
    · simp [Event.changeColumns]
  | changed type =>
    refine nothing ?_ (by simp [type]) (by simp [type])
    refine agreed.map (fun instanceId id row => ?_) fun row => ?_
    · exact Operation.Confined.has_update (by simp [ownScope, Event.changeColumns]) row
    · split
      · exact Row.find?_assign_of_not_mem (by simp [Event.changeColumns])
      · rfl
  | removed type => exact nothing (agreed.removed e) (by simp [type]) (by simp [type])
  | domainAdded type read => exact agreed.domainAdded type read
  | primaryDomainSet type read =>
    obtain ⟨org, domain', named, there⟩ := allowed.2 type
    rw [read] at named
    obtain rfl := Option.some_inj.mp named
    exact agreed.primaryDomainSet type (by simp [Event.changeColumns]) org there
  | nothing =>
    have other := known rfl
    simp only [eventTypes, List.mem_cons, List.not_mem_nil, or_false, not_or] at other
    exact agreed.nothing other.2.2.2.1 other.2.2.2.2

theorem replay {events : List Event} {statements : List Statement} {t : Tables}
    (agreed : Agreed [] (t.rows orgsTable) (t.rows orgDomainsTable))
    (about : ∀ e ∈ events, e.aggregateType = ⟨"org"⟩)
    (reduced : orgsProjection.registry.reduceAll events = .ok statements)
    (allowed : ∀ i, (h : i < events.length) →
      Allowed (t.replay ((statements.take i).map (·.operation))) events[i]) (n : Nat) :
    Agreed (events.take n)
      ((t.replay ((statements.take n).map (·.operation))).rows orgsTable)
      ((t.replay ((statements.take n).map (·.operation))).rows orgDomainsTable) := by
  obtain ⟨same, reduced⟩ := List.forall₂_iff_get.mp (Registry.reduceAll_eq_ok_iff.mp reduced)
  induction n with
  | zero => exact agreed
  | succ n ih =>
    by_cases more : n < events.length
    · have here := reduced n more (same ▸ more)
      have among := List.getElem_mem more
      have next := ih.step (asks_of_reduce here) (not_known_of_noOp here (about _ among)) (allowed n more)
      rw [List.take_succ_eq_append_getElem more, List.take_succ_eq_append_getElem (same ▸ more),
        List.map_append, Tables.replay_append]
      exact next
    · rw [List.take_of_length_le (by omega), List.take_of_length_le (by omega)] at ih ⊢
      exact ih

end Agreed

end Orgs

/-- From empty tables on, and after each of the events, an organization's row names just the domain that
has the mark, if this was not added again since it became the primary one; if it was, none has. -/
theorem primary_domains_agree {events : List Event} {statements : List Statement} {t : Tables}
    (about : ∀ e ∈ events, e.aggregateType = ⟨"org"⟩)
    (reduced : orgsProjection.registry.reduceAll events = .ok statements)
    (noOrgs : t.rows orgsTable = []) (noDomains : t.rows orgDomainsTable = [])
    (allowed : ∀ i, (h : i < events.length) →
      Orgs.Allowed (t.replay ((statements.take i).map (·.operation))) events[i]) (n : Nat) :
    ∀ row ∈ (t.replay ((statements.take n).map (·.operation))).rows orgsTable, ∃ instanceId id,
      (Orgs.ownScope instanceId id).has row = true ∧
      ∀ domain, Orgs.Marked ((t.replay ((statements.take n).map (·.operation))).rows orgDomainsTable)
          instanceId id domain ↔
        Orgs.Names row domain ∧ ¬Orgs.AddedSince instanceId id domain (events.take n) := by
  have begins : Orgs.Agreed [] (t.rows orgsTable) (t.rows orgDomainsTable) := by
    rw [noOrgs, noDomains]
    exact .nil
  have agreed := begins.replay about reduced allowed n
  intro row among
  obtain ⟨instanceId, id, has⟩ := agreed.named row among
  exact ⟨instanceId, id, has, agreed.agrees instanceId id row among has⟩

/-- The primary domain of an organization is added again. -/
def Orgs.twice : List Event :=
  let event (type : String) (sequence : Nat) (payload : Json) : Event :=
    ⟨⟨"org"⟩, ⟨"7"⟩, ⟨"a"⟩, ⟨type⟩, sequence, sequence - 1, sequence - 1, ⟨sequence, 0⟩, payload⟩
  let domain (name : String) : Json := .object [("domain", .text name)]
  [event "org.added" 1 (.object [("name", .text "Acme")]),
    event "org.domain.added" 2 (domain "acme.test"),
    event "org.domain.primary.set" 3 (domain "acme.test"),
    event "org.domain.added" 4 (domain "acme.test")]

theorem primary_domains_agree_of_twice :
    ∃ statements, orgsProjection.registry.reduceAll Orgs.twice = .ok statements ∧
      (∀ i, (h : i < Orgs.twice.length) → Orgs.Allowed
        ((∅ : Tables).replay ((statements.take i).map (·.operation))) Orgs.twice[i]) ∧
      Orgs.Marked (((∅ : Tables).replay ((statements.take 3).map (·.operation))).rows orgDomainsTable)
        ⟨"a"⟩ ⟨"7"⟩ "acme.test" ∧
      Orgs.AddedSince ⟨"a"⟩ ⟨"7"⟩ "acme.test" (Orgs.twice.take 4) ∧
      ∀ row ∈ ((∅ : Tables).replay ((statements.take 4).map (·.operation))).rows orgsTable,
        ∃ instanceId id, (Orgs.ownScope instanceId id).has row = true ∧
        ∀ domain, Orgs.Marked
            (((∅ : Tables).replay ((statements.take 4).map (·.operation))).rows orgDomainsTable)
            instanceId id domain ↔
          Orgs.Names row domain ∧ ¬Orgs.AddedSince instanceId id domain (Orgs.twice.take 4) := by
  have about : ∀ e ∈ Orgs.twice, e.aggregateType = ⟨"org"⟩ := by simp [Orgs.twice]
  have allowed : ∀ i, (h : i < Orgs.twice.length) → Orgs.Allowed ((∅ : Tables).replay
      ((((orgsProjection.registry.reduceAll Orgs.twice).toOption.getD []).take i).map (·.operation)))
        Orgs.twice[i] := by decide +kernel
  refine ⟨_, rfl, allowed, ?_, ?_, ?_⟩
  · decide +kernel
  · decide +kernel
  · exact primary_domains_agree about rfl rfl rfl allowed 4

end ReadModel
