import Mathlib.Data.List.Count
import ReadModel.Proofs.Asked
import ReadModel.Proofs.Settling

/-!
The domains of organizations.

Whatever the events are, an organization has a domain once and at most one primary one, and nothing is
left of an organization that has just been removed. That at most one domain is primary is due to all of
them: a new domain is not primary, also where it takes the place of one that is; setting the primary
one takes the mark from all before it marks the rows of one domain, and of these there is at most one.
-/

namespace ReadModel

namespace Tables

variable {p test : Row → Bool} {columns : List Column}

/-- A row that is put in place of another, or among the others, is all that can be new. -/
theorem countP_upsertRow_le (out : ∀ row, p (Row.assign row columns) = false) (rows : List Row) :
    (upsertRow test columns rows).countP p ≤ rows.countP p := by
  induction rows with
  | nil => simp [upsertRow, out]
  | cons row rest ih =>
    unfold upsertRow
    split
    · rw [List.countP_cons_of_neg (by rw [out]; exact Bool.false_ne_true)]
      exact (List.sublist_cons_self ..).countP_le
    · rw [List.countP_cons, List.countP_cons]
      exact Nat.add_le_add_right ih _

/-- Where the rows that are replaced are those that are counted, there is one afterwards at least, and
there are no more than before. -/
theorem countP_upsertRow_eq (hits : ∀ row, test row = p row)
    (assigned : ∀ row, p (Row.assign row columns) = true) (rows : List Row) :
    (upsertRow test columns rows).countP p = max 1 (rows.countP p) := by
  induction rows with
  | nil => simp [upsertRow, assigned]
  | cons row rest ih =>
    unfold upsertRow
    split
    next hit =>
      rw [hits] at hit
      rw [List.countP_cons_of_pos (assigned row), List.countP_cons_of_pos hit]
      omega
    next miss =>
      rw [hits] at miss
      rw [List.countP_cons_of_neg miss, List.countP_cons_of_neg miss, ih]

end Tables

namespace Orgs

theorem Asks.valid {e : Event} {op : Operation} (asks : Asks e op) : op.validate = .ok () := by
  cases asks <;> rfl

/-- The rows of an organization's domains. -/
def scope (instanceId : InstanceId) (id : AggregateId) : Scope :=
  [("instance_id", instanceId.text), ("org_id", id.text)]

/-- The rows of a domain of an organization. -/
def domainScope (instanceId : InstanceId) (id : AggregateId) (domain : String) : Scope :=
  [("instance_id", instanceId.text), ("org_id", id.text), ("domain", domain)]

/-- Whether a domain's row is marked as primary. -/
def isPrimary (row : Row) : Bool := (Row.value row "is_primary").same (.bool true)

/-- The columns of a new domain's row. -/
def domainColumns (e : Event) (domain : String) : List Column :=
  [⟨"instance_id", .text e.instanceId.text⟩,
    ⟨"org_id", .text e.aggregateId.text⟩,
    ⟨"domain", .text domain⟩,
    ⟨"is_primary", .bool false⟩,
    ⟨"creation_date", .timestamp e.creationDate⟩,
    ⟨"sequence", .ofSequence e.sequence⟩]

theorem test_domainColumns (e : Event) (domain : String) (row : Row) :
    (!List.isEmpty ["instance_id", "org_id", "domain"] &&
        Row.conflicts row (domainColumns e domain) ["instance_id", "org_id", "domain"]) =
      (domainScope e.instanceId e.aggregateId domain).has row := by
  rw [Bool.eq_iff_iff, Scope.has_iff]
  simp [Row.conflicts, domainColumns, domainScope, SqlValue.any_same_text]

theorem has_assign_domainColumns (e : Event) (domain : String) (row : Row) :
    (domainScope e.instanceId e.aggregateId domain).has (Row.assign row (domainColumns e domain)) =
      true := by
  simp [Scope.has_iff, domainScope, domainColumns, Row.assign]

theorem not_isPrimary_assign_domainColumns (e : Event) (domain : String) (row : Row) :
    isPrimary (Row.assign row (domainColumns e domain)) = false := by
  simp [isPrimary, Row.value, domainColumns, Row.assign, SqlValue.same]

/-- A domain's row that gets the mark, or loses it, if it is one of those that are chosen. -/
def mark (b : Bool) (chosen : Scope) (row : Row) : Row :=
  if Row.meets row chosen.conditions then Row.assign row [⟨"is_primary", .bool b⟩] else row

section Mark

variable {b : Bool} {chosen : Scope} {row : Row} {instanceId : InstanceId} {id : AggregateId}
  {domain : String}

theorem scope_has_mark : (scope instanceId id).has (mark b chosen row) = (scope instanceId id).has row :=
  Operation.Confined.has_update (by simp [scope]) row

theorem domainScope_has_mark :
    (domainScope instanceId id domain).has (mark b chosen row) =
      (domainScope instanceId id domain).has row :=
  Operation.Confined.has_update (by simp [domainScope]) row

theorem isPrimary_mark :
    isPrimary (mark b chosen row) = if chosen.has row then b else isPrimary row := by
  unfold mark
  rw [Scope.has]
  split
  · cases b <;> simp [isPrimary, Row.value, Row.assign, SqlValue.same]
  · rfl

theorem scope_has_of_domainScope (has : (domainScope instanceId id domain).has row = true) :
    (scope instanceId id).has row = true :=
  Scope.has_iff.mpr fun entry among =>
    Scope.has_iff.mp has entry (List.mem_append_left [("domain", domain)] among)

end Mark

/-- A table of domains in which no domain of an organization is there twice, and no organization has
two primary domains. -/
structure Tidy (rows : List Row) : Prop where
  /-- All rows are domains of organizations. -/
  named : ∀ row ∈ rows, ∃ instanceId id domain, (domainScope instanceId id domain).has row = true
  once (instanceId : InstanceId) (id : AggregateId) (domain : String) :
    rows.countP (domainScope instanceId id domain).has ≤ 1
  primary (instanceId : InstanceId) (id : AggregateId) :
    rows.countP (fun row => (scope instanceId id).has row && isPrimary row) ≤ 1

namespace Tidy

variable {rows less : List Row}

theorem nil : Tidy [] where
  named row among := by cases among
  once _ _ _ := Nat.zero_le _
  primary _ _ := Nat.zero_le _

theorem sublist (tidy : Tidy rows) (sub : less.Sublist rows) : Tidy less where
  named row among := tidy.named row (sub.subset among)
  once instanceId id domain := (sub.countP_le).trans (tidy.once instanceId id domain)
  primary instanceId id := (sub.countP_le).trans (tidy.primary instanceId id)

/-- A new domain is there once, also where it was there before, and is not primary. -/
theorem domainAdded (tidy : Tidy rows) (e : Event) (domain : String) :
    Tidy ((Operation.create orgDomainsTable (domainColumns e domain)
      ["instance_id", "org_id", "domain"]).effect orgDomainsTable rows) := by
  have confined : (Operation.create orgDomainsTable (domainColumns e domain)
      ["instance_id", "org_id", "domain"]).Confined
        (domainScope e.instanceId e.aggregateId domain) := by
    refine .create ?_ (.inr ?_)
    · simp [domainScope, domainColumns]
    · simp [domainScope]
  refine ⟨fun row among => ?_, fun instanceId id name => ?_, fun instanceId id => ?_⟩
  · rw [Operation.effect, if_pos rfl] at among
    rcases Tables.mem_upsertRow among with before | rfl
    · exact tidy.named row before
    · exact ⟨_, _, _, has_assign_domainColumns e domain _⟩
  · by_cases same : domainScope instanceId id name = domainScope e.instanceId e.aggregateId domain
    · rw [same, Operation.effect, if_pos rfl, Tables.countP_upsertRow_eq
        (test_domainColumns e domain) (has_assign_domainColumns e domain), ← same]
      exact max_le (Nat.le_refl 1) (tidy.once instanceId id name)
    · rw [List.countP_eq_length_filter, confined.filter_effect_of_disjoint,
        ← List.countP_eq_length_filter]
      · exact tidy.once instanceId id name
      · exact fun row => Scope.not_has_of_ne (by rfl) same
  · rw [Operation.effect, if_pos rfl]
    refine (Tables.countP_upsertRow_le (fun row => ?_) rows).trans (tidy.primary instanceId id)
    rw [not_isPrimary_assign_domainColumns, Bool.and_false]

/-- The mark is taken from all domains of the organization before one domain gets it. -/
theorem primaryDomainSet (tidy : Tidy rows) (e : Event) (domain : String) :
    Tidy ((rows.map (mark false (scope e.instanceId e.aggregateId))).map
      (mark true (domainScope e.instanceId e.aggregateId domain))) := by
  refine ⟨fun row among => ?_, fun instanceId id name => ?_, fun instanceId id => ?_⟩
  · obtain ⟨cleared, marked, rfl⟩ := List.mem_map.mp among
    obtain ⟨row, before, rfl⟩ := List.mem_map.mp marked
    obtain ⟨instanceId, id, name, has⟩ := tidy.named row before
    exact ⟨instanceId, id, name, by rw [domainScope_has_mark, domainScope_has_mark, has]⟩
  · rw [List.countP_map, List.countP_map]
    refine le_of_eq_of_le (List.countP_congr fun row _ => ?_) (tidy.once instanceId id name)
    rw [Function.comp_apply, Function.comp_apply, domainScope_has_mark, domainScope_has_mark]
  · rw [List.countP_map, List.countP_map]
    by_cases same : scope instanceId id = scope e.instanceId e.aggregateId
    · -- of the organization's rows, only those that get the mark are primary
      refine (List.countP_mono_left fun row _ marked => ?_).trans
        (tidy.once e.instanceId e.aggregateId domain)
      simp only [Function.comp_apply, same, scope_has_mark, domainScope_has_mark, isPrimary_mark,
        Bool.and_eq_true] at marked
      by_contra other
      rw [if_neg other, if_pos marked.1] at marked
      exact Bool.false_ne_true marked.2
    · -- the rows of another organization stay as they are
      refine (List.countP_mono_left fun row _ marked => ?_).trans (tidy.primary instanceId id)
      simp only [Function.comp_apply, scope_has_mark, domainScope_has_mark, isPrimary_mark,
        Bool.and_eq_true] at marked ⊢
      have apart : ¬(scope e.instanceId e.aggregateId).has row = true :=
        Bool.eq_false_iff.mp (Scope.not_has_of_ne (by rfl) same marked.1)
      rw [if_neg (mt scope_has_of_domainScope apart), if_neg apart] at marked
      exact marked

theorem step {e : Event} {op : Operation} (tidy : Tidy rows) (asks : Asks e op) :
    Tidy (op.leaves.foldl (fun rows leaf => leaf.effect orgDomainsTable rows) rows) := by
  cases asks with
  | added | changed | nothing => exact tidy
  | removed => exact tidy.sublist List.filter_sublist
  | @domainAdded domain => exact tidy.domainAdded e domain
  | @primaryDomainSet domain => exact tidy.primaryDomainSet e domain

theorem replay {events : List Event} {statements : List Statement} {t : Tables}
    (tidy : Tidy (t.rows orgDomainsTable))
    (reduced : orgsProjection.registry.reduceAll events = .ok statements) :
    Tidy ((t.replay (statements.map (·.operation))).rows orgDomainsTable) := by
  rw [Registry.reduceAll_eq_ok_iff] at reduced
  induction reduced generalizing t with
  | nil => exact tidy
  | @cons e st rest statements here _ ih =>
    have asks := asks_of_reduce here
    have next := tidy.step asks
    rw [← Operation.rows_run_unhindered asks.valid] at next
    exact ih next

end Tidy

/-- Nothing is left of the organization of an event, neither a row of its own nor one of a domain. -/
structure Gone (e : Event) (t : Tables) : Prop where
  org : ∀ row ∈ t.rows orgsTable, (e.scope "id").has row = false
  domains : ∀ row ∈ t.rows orgDomainsTable, (e.scope "org_id").has row = false

theorem Asks.gone {e : Event} {op : Operation} (asks : Asks e op)
    (about : e.aggregateType = ⟨"org"⟩) (removed : e.eventType = ⟨"org.removed"⟩) (t : Tables) :
    Gone e (op.run {} t).tables := by
  have valid := asks.valid
  cases asks with
  | removed =>
    refine ⟨fun row among => ?_, fun row among => ?_⟩
    · rw [Operation.rows_run_unhindered valid] at among
      exact (Bool.not_eq_true' _).mp (List.mem_filter.mp among).2
    · rw [Operation.rows_run_unhindered valid] at among
      exact (Bool.not_eq_true' _).mp (List.mem_filter.mp among).2
  | added type | changed type | domainAdded type | primaryDomainSet type =>
    rw [type] at removed
    exact absurd removed (by decide)
  | nothing other => exact absurd removed (other about)

theorem gone_of_replay {events : List Event} {statements : List Statement} {e : Event}
    (reduced : orgsProjection.registry.reduceAll events = .ok statements)
    (last : events.getLast? = some e) (about : e.aggregateType = ⟨"org"⟩)
    (removed : e.eventType = ⟨"org.removed"⟩) (t : Tables) :
    Gone e (t.replay (statements.map (·.operation))) := by
  rw [Registry.reduceAll_eq_ok_iff] at reduced
  induction reduced generalizing t with
  | nil => cases last
  | @cons first st rest statements here later ih =>
    cases later with
    | nil =>
      obtain rfl := Option.some_inj.mp last
      exact (asks_of_reduce here).gone about removed t
    | cons =>
      rw [List.getLast?_cons_cons] at last
      exact ih last _

end Orgs

/-- From an empty table of domains on, and after each of the events, an organization has a domain once
at most, and at most one that is primary; nothing is left of one that has just been removed. -/
theorem org_domains_stay_tidy {events : List Event} {statements : List Statement} {t : Tables}
    (about : ∀ e ∈ events, e.aggregateType = ⟨"org"⟩)
    (reduced : orgsProjection.registry.reduceAll events = .ok statements)
    (empty : t.rows orgDomainsTable = []) (n : Nat) :
    Orgs.Tidy ((t.replay ((statements.take n).map (·.operation))).rows orgDomainsTable) ∧
      ∀ e, (events.take n).getLast? = some e → e.eventType = ⟨"org.removed"⟩ →
        Orgs.Gone e (t.replay ((statements.take n).map (·.operation))) := by
  have first := Registry.reduceAll_take reduced n
  refine ⟨Orgs.Tidy.replay (empty ▸ Orgs.Tidy.nil) first, fun e last removed => ?_⟩
  have among := List.take_subset n events (List.mem_of_getLast? last)
  exact Orgs.gone_of_replay first last (about e among) removed t

/-- One domain of an organization becomes the primary one, then another; the first is added once more,
and the organization is removed. -/
def Orgs.lifetime : List Event :=
  let event (type : String) (sequence : Nat) (payload : Json) : Event :=
    ⟨⟨"org"⟩, ⟨"7"⟩, ⟨"a"⟩, ⟨type⟩, sequence, sequence - 1, sequence - 1, ⟨sequence, 0⟩, payload⟩
  let domain (name : String) : Json := .object [("domain", .text name)]
  [event "org.added" 1 (.object [("name", .text "Acme")]),
    event "org.domain.added" 2 (domain "acme.test"),
    event "org.domain.added" 3 (domain "acme.example"),
    event "org.domain.primary.set" 4 (domain "acme.test"),
    event "org.domain.primary.set" 5 (domain "acme.example"),
    event "org.domain.added" 6 (domain "acme.test"),
    event "org.removed" 7 .null]

theorem org_domains_stay_tidy_of_lifetime :
    ∃ statements, orgsProjection.registry.reduceAll Orgs.lifetime = .ok statements ∧
      Orgs.Tidy (((∅ : Tables).replay ((statements.take 6).map (·.operation))).rows orgDomainsTable) ∧
      (((∅ : Tables).replay ((statements.take 6).map (·.operation))).rows orgDomainsTable).countP
        Orgs.isPrimary = 1 ∧
      Orgs.Gone ⟨⟨"org"⟩, ⟨"7"⟩, ⟨"a"⟩, ⟨"org.removed"⟩, 7, 6, 6, ⟨7, 0⟩, .null⟩
        ((∅ : Tables).replay ((statements.take 7).map (·.operation))) := by
  have about : ∀ e ∈ Orgs.lifetime, e.aggregateType = ⟨"org"⟩ := by simp [Orgs.lifetime]
  refine ⟨_, rfl, ?_, ?_, ?_⟩
  · exact (org_domains_stay_tidy about rfl rfl 6).1
  · decide +kernel
  · exact (org_domains_stay_tidy about rfl rfl 7).2 _ rfl rfl

end ReadModel
