import ReadModel.Proofs.WireSettings
import ReadModel.Proofs.WireValues

/-!
Records that are written and read again.

Every type that has a written form is read back from it (`Decoder.RoundTrips`): a value whose numbers
and instants its fields can hold is what its written form says, and whatever a JSON value has been read
as, as an object or as a list and with fields left out or added, is what its own written form says.
-/

namespace ReadModel

/-- The numbers of the event have 64 bits, and its date is one that there can be. -/
structure Event.Writable (e : Event) : Prop where
  sequence : e.sequence < wordCount
  previousOfAggregate : e.previousOfAggregate < wordCount
  previousOfType : e.previousOfType < wordCount
  creationDate : e.creationDate.Valid

/-- The same of a statement and all values in its operation. -/
structure Statement.Writable (s : Statement) : Prop where
  sequence : s.sequence < wordCount
  previousSequence : s.previousSequence < wordCount
  creationDate : s.creationDate.Valid
  operation : s.operation.Writable

/-- The numbers that the clause asks for have 64 bits, and its instants are such that there can be. -/
structure QueryClause.Writable (c : QueryClause) : Prop where
  sequenceGreater : ∀ n ∈ c.sequenceGreater, n < wordCount
  sequenceLess : ∀ n ∈ c.sequenceLess, n < wordCount
  createdAfter : ∀ t ∈ c.createdAfter, t.Valid
  createdUntil : ∀ t ∈ c.createdUntil, t.Valid

/-- The same of all clauses and the limit of a query. -/
structure SearchQuery.Writable (q : SearchQuery) : Prop where
  clauses : ∀ c ∈ q.clauses, c.Writable
  limit : ∀ n ∈ q.limit, n < wordCount

/-- The instant that the query asks for is one that there can be. -/
structure InstanceQuery.Writable (q : InstanceQuery) : Prop where
  createdAfter : ∀ t ∈ q.createdAfter, t.Valid

namespace Decoder

theorem restores_identifier {kind : IdentifierKind} :
    (identifier : Decoder (Identifier kind)).Restores Identifier.encode fun _ => True :=
  fun _ _ => rfl

theorem restores_identifiers {kind : IdentifierKind} (ids : List (Identifier kind)) :
    list identifier (Identifier.encodeList ids) = .ok ids :=
  restores_identifier.list ids fun _ _ => trivial

theorem gives_event : event.Gives Event.Writable := by
  have word := gives_unsigned64
  intro j e result
  unfold event at result
  split at result
  case h_1 fields =>
    simp only [Except.bind_eq_ok_iff] at result
    obtain ⟨_, -, _, -, _, readDate, _, -, _, -, _, -, _, readAggregate, _, readType, _, readSequence,
      _, -, _, -, _, -, _, -, sequence, hasSequence, previousOfAggregate, hasAggregate,
      previousOfType, hasType, creationDate, hasDate, _, -, result⟩ := result
    cases result
    exact ⟨word.required readSequence hasSequence, word.required readAggregate hasAggregate,
      word.required readType hasType, gives_instant.required readDate hasDate⟩
  case h_2 items =>
    simp only [Except.bind_eq_ok_iff, Prod.exists] at result
    obtain ⟨_, _, -, _, _, -, _, _, -, _, _, -, sequence, _, readSequence, previousOfAggregate, _,
      readAggregate, previousOfType, _, readType, creationDate, _, readDate, _, _, -, _, -,
      result⟩ := result
    cases result
    exact ⟨word.next readSequence, word.next readAggregate, word.next readType,
      gives_instant.next readDate⟩
  case h_3 => cases result

theorem restores_event : event.Restores Event.encode Event.Writable := by
  intro e writable
  have distinct : ["aggregate_type", "aggregate_id", "instance_id", "event_type", "sequence",
    "previous_aggregate_sequence", "previous_aggregate_type_sequence", "creation_date",
    "payload"].Nodup := by decide
  simp (disch := simp) only [Event.encode, Json.ofFields, event, present_ofList distinct]
  simp (disch := decide) only [present_cons_self, present_cons_of_ne, Except.bind_ok, Except.ok_map,
    restores_identifier _ trivial, restores_unsigned64 _ writable.sequence,
    restores_unsigned64 _ writable.previousOfAggregate,
    restores_unsigned64 _ writable.previousOfType, restores_instant _ writable.creationDate, require]

theorem restores_newEvent : newEvent.Restores NewEvent.encode fun _ => True := by
  intro e _
  have distinct : ["aggregate_type", "aggregate_id", "instance_id", "event_type",
    "payload"].Nodup := by decide
  simp (disch := simp) only [NewEvent.encode, Json.ofFields, newEvent, present_ofList distinct]
  simp (disch := decide) only [present_cons_self, present_cons_of_ne, Except.bind_ok, Except.ok_map,
    restores_identifier _ trivial, require]

theorem gives_statement : statement.Gives Statement.Writable := by
  have word := gives_unsigned64
  have operations : (operation .whole).Gives Operation.Writable := gives_operation .whole
  intro j s result
  unfold statement at result
  split at result
  case h_1 fields =>
    simp only [Except.bind_eq_ok_iff] at result
    obtain ⟨_, -, _, -, _, readDate, _, -, _, readOperation, _, readPrevious, _, readSequence,
      _, -, _, -, _, -, sequence, hasSequence, previousSequence, hasPrevious, creationDate, hasDate,
      op, hasOperation, result⟩ := result
    cases result
    exact ⟨word.required readSequence hasSequence, word.required readPrevious hasPrevious,
      gives_instant.required readDate hasDate, operations.required readOperation hasOperation⟩
  case h_2 items =>
    simp only [Except.bind_eq_ok_iff, Prod.exists] at result
    obtain ⟨_, _, -, _, _, -, _, _, -, sequence, _, readSequence, previousSequence, _, readPrevious,
      creationDate, _, readDate, op, _, readOperation, _, -, result⟩ := result
    cases result
    exact ⟨word.next readSequence, word.next readPrevious, gives_instant.next readDate,
      operations.next readOperation⟩
  case h_3 => cases result

theorem restores_statement : statement.Restores Statement.encode Statement.Writable := by
  intro s writable
  have distinct : ["aggregate_type", "aggregate_id", "instance_id", "sequence", "previous_sequence",
    "creation_date", "operation"].Nodup := by decide
  simp (disch := simp) only [Statement.encode, Json.ofFields, statement, present_ofList distinct]
  simp (disch := decide) only [present_cons_self, present_cons_of_ne, Except.bind_ok, Except.ok_map,
    restores_identifier _ trivial, restores_unsigned64 _ writable.sequence,
    restores_unsigned64 _ writable.previousSequence, restores_instant _ writable.creationDate,
    restores_operation .whole _ writable.operation, require]

theorem gives_queryClause : queryClause.Gives QueryClause.Writable := by
  have word := gives_unsigned64.optional
  have time := gives_instant.optional
  intro j c result
  unfold queryClause at result
  split at result
  case h_1 fields =>
    simp only [Except.bind_eq_ok_iff] at result
    obtain ⟨_, -, _, -, _, readAfter, _, readUntil, _, -, _, -, _, -, _, readGreater, _, readLess,
      _, -, _, -, _, -, _, -, result⟩ := result
    cases result
    exact ⟨join_of_each (word.present readGreater), join_of_each (word.present readLess),
      join_of_each (time.present readAfter), join_of_each (time.present readUntil)⟩
  case h_2 items =>
    simp only [Except.bind_eq_ok_iff, Prod.exists] at result
    obtain ⟨_, _, -, _, _, -, _, _, -, _, _, -, _, _, -, _, _, readGreater, _, _, readLess,
      _, _, readAfter, _, _, readUntil, _, -, result⟩ := result
    cases result
    exact ⟨word.next readGreater, word.next readLess, time.next readAfter, time.next readUntil⟩
  case h_3 => cases result

theorem encode_ne_null (t : Instant) : t.encode ≠ .null := nofun

theorem restores_queryClause : queryClause.Restores QueryClause.encode QueryClause.Writable := by
  intro c writable
  have word := restores_unsigned64.optional ofNat_ne_null
  have time := restores_instant.optional encode_ne_null
  have id := restores_identifier.optional (fun _ => Json.noConfusion) c.instanceId fun _ _ => trivial
  have distinct : ["instance_id", "excluded_instance_ids", "aggregate_types", "aggregate_ids",
    "event_types", "sequence_greater", "sequence_less", "created_after", "created_until"].Nodup := by
    decide
  simp (disch := simp) only [QueryClause.encode, Json.ofFields, queryClause, present_ofList distinct]
  simp (disch := decide) only [present_cons_self, present_cons_of_ne, Except.bind_ok, Except.ok_map,
    id, restores_identifiers, word _ writable.sequenceGreater, word _ writable.sequenceLess,
    time _ writable.createdAfter, time _ writable.createdUntil, require, Option.join_some]

theorem gives_searchQuery : searchQuery.Gives SearchQuery.Writable := by
  have clauses := gives_queryClause.list
  have word := gives_unsigned64.optional
  intro j q result
  unfold searchQuery at result
  split at result
  case h_1 fields =>
    simp only [Except.bind_eq_ok_iff] at result
    obtain ⟨_, readClauses, _, readLimit, _, hasClauses, result⟩ := result
    cases result
    exact ⟨clauses.required readClauses hasClauses, join_of_each (word.present readLimit)⟩
  case h_2 items =>
    simp only [Except.bind_eq_ok_iff, Prod.exists] at result
    obtain ⟨_, _, readClauses, _, _, readLimit, _, -, result⟩ := result
    cases result
    exact ⟨clauses.next readClauses, word.next readLimit⟩
  case h_3 => cases result

theorem restores_searchQuery : searchQuery.Restores SearchQuery.encode SearchQuery.Writable := by
  intro q writable
  have limit := restores_unsigned64.optional ofNat_ne_null q.limit writable.limit
  have distinct : ["clauses", "limit"].Nodup := by decide
  simp (disch := simp) only [SearchQuery.encode, Json.ofFields, searchQuery, present_ofList distinct]
  simp (disch := decide) only [present_cons_self, present_cons_of_ne, Except.bind_ok, Except.ok_map,
    restores_queryClause.list _ writable.clauses, limit, require, Option.join_some]

theorem gives_instanceQuery : instanceQuery.Gives InstanceQuery.Writable := by
  have time := gives_instant.optional
  intro j q result
  unfold instanceQuery at result
  split at result
  case h_1 fields =>
    simp only [Except.bind_eq_ok_iff] at result
    obtain ⟨_, readAfter, _, -, _, -, result⟩ := result
    cases result
    exact ⟨join_of_each (time.present readAfter)⟩
  case h_2 items =>
    simp only [Except.bind_eq_ok_iff, Prod.exists] at result
    obtain ⟨_, _, readAfter, _, _, -, _, -, result⟩ := result
    cases result
    exact ⟨time.next readAfter⟩
  case h_3 => cases result

theorem restores_instanceQuery :
    instanceQuery.Restores InstanceQuery.encode InstanceQuery.Writable := by
  intro q writable
  have after := restores_instant.optional encode_ne_null q.createdAfter writable.createdAfter
  have distinct : ["created_after", "excluded"].Nodup := by decide
  simp (disch := simp) only [InstanceQuery.encode, Json.ofFields, instanceQuery,
    present_ofList distinct]
  simp (disch := decide) only [present_cons_self, present_cons_of_ne, Except.bind_ok, Except.ok_map,
    after, restores_identifiers, require, Option.join_some]

/-- A reader and a writer of one type that agree. -/
structure RoundTrips {α : Type} (read : Decoder α) (write : α → Json) (writable : α → Prop) :
    Prop where
  /-- A value is what its written form is read as. -/
  written : ∀ a, writable a → read (write a) = .ok a
  /-- So is whatever has been read, in whatever form it stood. -/
  reread : ∀ j a, read j = .ok a → writable a ∧ read (write a) = .ok a

theorem Gives.roundTrips {α : Type} {read : Decoder α} {write : α → Json} {kind : α → Prop}
    (gives : read.Gives kind) (restores : read.Restores write kind) : read.RoundTrips write kind :=
  ⟨restores, fun j a result => ⟨gives j a result, restores a (gives j a result)⟩⟩

end Decoder

open Decoder

/-- Every type is read back from its written form. -/
theorem wire_format_round_trips :
    event.RoundTrips Event.encode Event.Writable ∧
    newEvent.RoundTrips NewEvent.encode (fun _ => True) ∧
    statement.RoundTrips Statement.encode Statement.Writable ∧
    (∀ source, (operation source).RoundTrips Operation.encode Operation.Writable) ∧
    (∀ source, (column source).RoundTrips Column.encode fun c => c.value.Writable) ∧
    (∀ source, (condition source).RoundTrips Condition.encode fun c => c.value.Writable) ∧
    (∀ source, (sqlValue source).RoundTrips SqlValue.encode SqlValue.Writable) ∧
    queryClause.RoundTrips QueryClause.encode QueryClause.Writable ∧
    searchQuery.RoundTrips SearchQuery.encode SearchQuery.Writable ∧
    instanceQuery.RoundTrips InstanceQuery.encode InstanceQuery.Writable ∧
    restartPolicy.RoundTrips RestartPolicy.encode RestartPolicy.Writable ∧
    projectionConfig.RoundTrips ProjectionConfig.encode ProjectionConfig.Writable ∧
    projectionOverride.RoundTrips ProjectionOverride.encode ProjectionOverride.Writable ∧
    projectionsConfig.RoundTrips ProjectionsConfig.encode ProjectionsConfig.Writable := by
  have newEvents : newEvent.Gives fun _ => True := fun _ _ _ => trivial
  have operations (source : Source) : (operation source).Gives Operation.Writable :=
    gives_operation source
  exact ⟨gives_event.roundTrips restores_event, newEvents.roundTrips restores_newEvent,
    gives_statement.roundTrips restores_statement,
    fun source => (operations source).roundTrips (restores_operation source),
    fun source => (gives_column source).roundTrips (restores_column source),
    fun source => (gives_condition source).roundTrips (restores_condition source),
    fun source => (gives_sqlValue source).roundTrips (restores_sqlValue source),
    gives_queryClause.roundTrips restores_queryClause,
    gives_searchQuery.roundTrips restores_searchQuery,
    gives_instanceQuery.roundTrips restores_instanceQuery,
    gives_restartPolicy.roundTrips restores_restartPolicy,
    gives_projectionConfig.roundTrips restores_projectionConfig,
    gives_projectionOverride.roundTrips restores_projectionOverride,
    gives_projectionsConfig.roundTrips restores_projectionsConfig⟩

/-- The middle of the leap second at the end of 2016. -/
def leapSecond : Instant := ⟨1483228799, 1500000000⟩

/-- An operation that sets one column to the JSON value null and another to null, two levels deep. -/
def nestedOperation : Operation :=
  .multi [.multi [.update "t" [⟨"a", .json .null⟩, ⟨"b", .null⟩] [⟨"at", .timestamp leapSecond⟩]], .noOp]

/-- Operations that do nothing, as a list, as an object without arguments and as one with null for
them and a further field. -/
def idleOperations : Json :=
  .list [.text "multi", .list [.list [.text "no_op", .null], .object [("kind", .text "no_op")],
    .object [("args", .null), ("kind", .text "no_op"), ("note", .bool true)]]]

theorem wire_format_round_trips_of_nested :
    nestedOperation.Writable ∧ operation .whole nestedOperation.encode = .ok nestedOperation ∧
      operation .whole idleOperations = .ok (.multi [.noOp, .noOp, .noOp]) ∧
      operation .whole (Operation.multi [.noOp, .noOp, .noOp]).encode =
        .ok (.multi [.noOp, .noOp, .noOp]) := by
  have ⟨_, _, _, operations, _⟩ := wire_format_round_trips
  have leap : leapSecond.Valid := ⟨by decide, by decide, by decide⟩
  have writable : nestedOperation.Writable := by
    refine .multi ?_
    simp only [List.forall_mem_cons, List.not_mem_nil, false_implies, implies_true, and_true]
    refine ⟨.multi ?_, .noOp⟩
    simp only [List.forall_mem_cons, List.not_mem_nil, false_implies, implies_true, and_true]
    refine .update ?_ ?_
    · simp [SqlValue.Writable]
    · simpa [SqlValue.Writable] using leap
  have idle : operation .whole idleOperations = .ok (.multi [.noOp, .noOp, .noOp]) := by rfl
  exact ⟨writable, (operations .whole).written _ writable, idle, ((operations .whole).reread _ _ idle).2⟩

end ReadModel
