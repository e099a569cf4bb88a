import ReadModel.Proofs.InstantText
import ReadModel.Wire.Query

/-!
Operations that are written and read again.

A whole number is of 64 bits with a sign and an instant is one that there can be, whatever has been
read. Operations are nested to any depth: the reader follows the value, and what is read back follows
the operation.
-/

namespace ReadModel

/-- A whole number has 64 bits and a sign, and an instant is one that there can be. -/
def SqlValue.Writable : SqlValue → Prop
  | .int n => leastSigned ≤ n ∧ n ≤ greatestSigned
  | .timestamp t => t.Valid
  | _ => True

/-- All values in the operation are writable. -/
inductive Operation.Writable : Operation → Prop where
  | create {table : String} {columns : List Column} {conflict : List String}
    (values : ∀ c ∈ columns, c.value.Writable) : Writable (.create table columns conflict)
  | update {table : String} {columns : List Column} {conditions : List Condition}
    (values : ∀ c ∈ columns, c.value.Writable) (tests : ∀ c ∈ conditions, c.value.Writable) :
    Writable (.update table columns conditions)
  | delete {table : String} {conditions : List Condition}
    (tests : ∀ c ∈ conditions, c.value.Writable) : Writable (.delete table conditions)
  | noOp : Writable .noOp
  | multi {parts : List Operation} (each : ∀ part ∈ parts, part.Writable) : Writable (.multi parts)

namespace Decoder

theorem gives_instant : instant.Gives Instant.Valid := by
  intro j t result
  unfold instant at result
  split at result
  next s =>
    split at result
    next t' read => exact Except.ok.inj result ▸ Instant.valid_of_parse read
    next => cases result
  next => cases result

theorem restores_instant : instant.Restores Instant.encode Instant.Valid := by
  intro t valid
  simp only [instant, Instant.encode, Instant.parse_render valid]

theorem gives_sqlContent (typeName : String) : Gives (sqlContent typeName) SqlValue.Writable := by
  intro j v read
  unfold sqlContent at read
  split at read
  case h_1 =>
    split at read
    next => cases read; trivial
    next => cases read
  case h_3 =>
    obtain ⟨n, signed, rfl⟩ := Except.exists_of_map_eq_ok read
    exact gives_whole j n signed
  case h_6 =>
    obtain ⟨t, time, rfl⟩ := Except.exists_of_map_eq_ok read
    exact gives_instant j t time
  case h_7 => cases read; trivial
  all_goals
    obtain ⟨content, -, rfl⟩ := Except.exists_of_map_eq_ok read
    trivial

variable (source : Source)

theorem gives_sqlValue : (sqlValue source).Gives SqlValue.Writable := by
  intro j v result
  unfold sqlValue at result
  split at result
  case h_1 fields =>
    obtain ⟨found, -, result⟩ := Except.bind_eq_ok_iff.mp result
    split at result
    next => cases result
    next typeName =>
      split at result
      next content _ => exact gives_sqlContent typeName content v result
      next => rw [← (Except.ite_eq_ok_iff.mp result).2]; trivial
  case h_2 items =>
    simp only [Except.bind_eq_ok_iff, Prod.exists] at result
    obtain ⟨typeName, rest, -, value, rest', read, _, -, result⟩ := result
    cases result
    exact (gives_sqlContent typeName).next read
  case h_3 => cases result

/-- A value that is written with its type is read by its content. -/
theorem sqlValue_typed (v : SqlValue) (j : Json) :
    sqlValue source (.ofFields [("type", .text v.typeName), ("value", j)]) =
      sqlContent v.typeName j := by
  have entries : (Dict.ofList [("type", Json.text v.typeName), ("value", j)]).entries =
      [("type", .text v.typeName), ("value", j)] :=
    entries_ofList (List.pairwise_pair.mpr (show KeyOrder.before "type" "value" = true by decide))
  have known : v.typeName ∈ SqlValue.typeNames := by
    cases v <;> simp [SqlValue.typeName, SqlValue.typeNames]
  have type : variant source SqlValue.typeNames (.text v.typeName) = .ok v.typeName := if_pos known
  have value : lookup "value" [("type", Json.text v.typeName), ("value", j)] = some j := rfl
  simp only [Json.ofFields, entries, sqlValue, present_cons_self, type, value, Except.ok_map,
    Except.bind_ok]

theorem restores_sqlValue : (sqlValue source).Restores SqlValue.encode SqlValue.Writable := by
  intro v writable
  cases v with
  | null => rfl
  | int n =>
    have read : signed64 (.number (.whole n)) = .ok n := restores_whole n writable
    exact (sqlValue_typed source _ _).trans (congrArg (Except.map SqlValue.int) read)
  | timestamp t =>
    have content (j : Json) : sqlContent "timestamp" j = (instant j).map .timestamp := rfl
    have read : instant (.text t.render) = .ok t := restores_instant t writable
    refine (sqlValue_typed source (.timestamp t) (.text t.render)).trans ?_
    rw [SqlValue.typeName, content, read, Except.ok_map]
  | textArray items =>
    have content (j : Json) : sqlContent "text_array" j = (list text j).map .textArray := rfl
    have read : list text (.ofTexts items) = .ok items := restores_text.list items fun _ _ => trivial
    refine (sqlValue_typed source (.textArray items) (.ofTexts items)).trans ?_
    rw [SqlValue.typeName, content, read, Except.ok_map]
  | _ => exact sqlValue_typed source _ _

theorem gives_assignment (record name : String) :
    (assignment source record name).Gives fun a => a.2.Writable := by
  intro j a result
  unfold assignment at result
  split at result
  case h_1 fields =>
    simp only [Except.bind_eq_ok_iff] at result
    obtain ⟨_, -, _, readValue, _, -, value, hasValue, result⟩ := result
    cases result
    exact (gives_sqlValue source).required readValue hasValue
  case h_2 items =>
    simp only [Except.bind_eq_ok_iff, Prod.exists] at result
    obtain ⟨_, _, -, value, _, readValue, _, -, result⟩ := result
    cases result
    exact (gives_sqlValue source).next readValue
  case h_3 => cases result

theorem assignment_ofFields {record name : String} (different : name ≠ "value") (column : String)
    {v : SqlValue} (writable : v.Writable) :
    assignment source record name (.ofFields [(name, .text column), ("value", v.encode)]) =
      .ok (column, v) := by
  have distinct : [name, "value"].Nodup := by simp [different]
  simp (disch := simp) only [Json.ofFields, assignment, present_ofList distinct]
  simp only [present_cons_self, present_cons_of_ne different, restores_sqlValue source v writable, text,
    Except.ok_map, Except.bind_ok, require]

theorem gives_column : (column source).Gives fun c => c.value.Writable := by
  intro j c result
  obtain ⟨a, read, rfl⟩ := Except.exists_of_map_eq_ok result
  exact gives_assignment source _ _ j a read

theorem restores_column :
    (column source).Restores Column.encode fun c => c.value.Writable := by
  intro c writable
  rw [column, Column.encode, assignment_ofFields source (by decide) c.name writable]
  rfl

theorem gives_condition : (condition source).Gives fun c => c.value.Writable := by
  intro j c result
  obtain ⟨a, read, rfl⟩ := Except.exists_of_map_eq_ok result
  exact gives_assignment source _ _ j a read

theorem restores_condition :
    (condition source).Restores Condition.encode fun c => c.value.Writable := by
  intro c writable
  rw [condition, Condition.encode, assignment_ofFields source (by decide) c.column writable]
  rfl

theorem gives_createArgs : (createArgs source).Gives Operation.Writable := by
  intro j op result
  unfold createArgs at result
  split at result
  next fields =>
    simp only [Except.bind_eq_ok_iff] at result
    obtain ⟨_, readColumns, _, -, _, -, _, -, columns, hasColumns, _, -, result⟩ := result
    cases result
    exact .create ((gives_column source).list.required readColumns hasColumns)
  next => cases result

theorem gives_updateArgs : (updateArgs source).Gives Operation.Writable := by
  intro j op result
  unfold updateArgs at result
  split at result
  next fields =>
    simp only [Except.bind_eq_ok_iff] at result
    obtain ⟨_, readColumns, _, readConditions, _, -, _, -, columns, hasColumns, conditions,
      hasConditions, result⟩ := result
    cases result
    exact .update ((gives_column source).list.required readColumns hasColumns)
      ((gives_condition source).list.required readConditions hasConditions)
  next => cases result

theorem gives_deleteArgs : (deleteArgs source).Gives Operation.Writable := by
  intro j op result
  unfold deleteArgs at result
  split at result
  next fields =>
    simp only [Except.bind_eq_ok_iff] at result
    obtain ⟨_, readConditions, _, -, _, -, conditions, hasConditions, result⟩ := result
    cases result
    exact .delete ((gives_condition source).list.required readConditions hasConditions)
  next => cases result

/-- Only the arguments of a multi are a list. -/
theorem gives_operationArgs_of_ne_list {kind : OperationKind} {j : Json} {op : Operation}
    (result : operationArgs source kind j = .ok op) (flat : ∀ items, j ≠ .list items) :
    op.Writable := by
  rw [operationArgs.eq_def] at result
  split at result
  next items => exact absurd rfl (flat items)
  next =>
    cases kind with
    | create => exact gives_createArgs source j op result
    | update => exact gives_updateArgs source j op result
    | delete => exact gives_deleteArgs source j op result
    | noOp =>
      dsimp only at result
      split at result <;> cases result
      exact .noOp
    | multi => cases result

mutual

theorem gives_operation (source : Source) : ∀ (j : Json) (op : Operation),
    operation source j = .ok op → op.Writable
  | .object fields, op, result => by
    rw [operation] at result
    split at result
    next => cases result
    next tag _ =>
      split at result
      next => cases result
      next kind _ => exact gives_operationField kind fields op result
  | .list [], op, result => by
    rw [operation] at result
    cases result
  | .list [tag], op, result => by
    rw [operation] at result
    split at result <;> cases result
  | .list (tag :: args :: rest), op, result => by
    rw [operation] at result
    split at result
    next => cases result
    next kind _ =>
      split at result
      next => cases result
      next => cases result
      next op' read _ =>
        cases result
        exact gives_operationArgs source kind args op read
  | .null, op, result | .bool _, op, result | .number _, op, result | .text _, op, result => by
    rw [operation] at result <;> cases result

theorem gives_operationField (kind : OperationKind) : ∀ (fields : List (String × Json))
    (op : Operation), operationField kind fields = .ok op → op.Writable
  | [], op, result => by
    rw [operationField] at result
    cases (Except.ite_eq_ok_iff.mp result).2
    exact .noOp
  | (name, j) :: rest, op, result => by
    rw [operationField] at result
    split at result
    next => exact gives_operationArgs .setAside kind j op result
    next => exact gives_operationField kind rest op result

theorem gives_operationArgs (source : Source) (kind : OperationKind) : ∀ (j : Json)
    (op : Operation), operationArgs source kind j = .ok op → op.Writable
  | .list items, op, result => by
    rw [operationArgs.eq_def] at result
    cases kind with
    | create => exact gives_createArgs source _ op result
    | update => exact gives_updateArgs source _ op result
    | delete => exact gives_deleteArgs source _ op result
    | noOp => cases result
    | multi =>
      obtain ⟨parts, read, rfl⟩ := Except.exists_of_map_eq_ok result
      exact .multi (gives_operations source items parts read)
  | .null, _, result | .bool _, _, result | .number _, _, result | .text _, _, result
  | .object _, _, result => gives_operationArgs_of_ne_list source result nofun

theorem gives_operations (source : Source) : ∀ (items : List Json) (ops : List Operation),
    operations source items = .ok ops → ∀ op ∈ ops, op.Writable
  | [], ops, result => by
    rw [operations] at result
    cases result
    nofun
  | j :: rest, ops, result => by
    rw [operations] at result
    split at result
    next => cases result
    next op first =>
      split at result
      next => cases result
      next others read =>
        cases result
        intro part here
        rcases List.mem_cons.mp here with rfl | later
        · exact gives_operation source j _ first
        · exact gives_operations source rest others read part later

end

theorem operationField_eq (kind : OperationKind) (fields : List (String × Json)) :
    operationField kind fields =
      match lookup "args" fields with
      | some j => operationArgs .setAside kind j
      | none => if kind = .noOp then .ok .noOp else .error (.missingField "args") := by
  induction fields with
  | nil => rw [operationField, lookup]
  | cons field rest ih =>
    obtain ⟨name, j⟩ := field
    rw [operationField, lookup]
    split
    next => rfl
    next => exact ih

/-- An operation that is written with its kind is read by its arguments. -/
theorem operation_ofFields {name : String} (known : name ∈ kindNames) (args : Json) :
    operation source (.ofFields [("kind", .text name), ("args", args)]) =
      operationArgs .setAside (kindOfName name) args := by
  have distinct : ([("kind", Json.text name), ("args", args)].map Prod.fst).Nodup :=
    show ["kind", "args"].Nodup by decide
  have kind : operationKind source (.text name) = .ok (kindOfName name) :=
    congrArg (Except.map kindOfName) (if_pos known)
  have tag : lookup "kind" (Dict.ofList [("kind", Json.text name), ("args", args)]).entries =
      some (.text name) := lookup_ofList distinct "kind"
  have content : lookup "args" (Dict.ofList [("kind", Json.text name), ("args", args)]).entries =
      some args := lookup_ofList distinct "args"
  simp only [Json.ofFields, operation, tag, kind, operationField_eq, content]

theorem restores_createArgs {table : String} {columns : List Column} {conflict : List String}
    (values : ∀ c ∈ columns, c.value.Writable) :
    createArgs source (.ofFields [("table", .text table),
      ("columns", .list (columns.map Column.encode)), ("conflict", .ofTexts conflict)]) =
        .ok (.create table columns conflict) := by
  have distinct : ["table", "columns", "conflict"].Nodup := by decide
  have texts : list text (.ofTexts conflict) = .ok conflict :=
    restores_text.list conflict fun _ _ => trivial
  simp (disch := simp) only [Json.ofFields, createArgs, present_ofList distinct]
  simp (disch := decide) only [present_cons_self, present_cons_of_ne, Except.bind_ok, Except.ok_map,
    (restores_column source).list columns values, texts, text, require]

theorem restores_updateArgs {table : String} {columns : List Column} {conditions : List Condition}
    (values : ∀ c ∈ columns, c.value.Writable) (tests : ∀ c ∈ conditions, c.value.Writable) :
    updateArgs source (.ofFields [("table", .text table),
      ("columns", .list (columns.map Column.encode)),
      ("conditions", .list (conditions.map Condition.encode))]) =
        .ok (.update table columns conditions) := by
  have distinct : ["table", "columns", "conditions"].Nodup := by decide
  simp (disch := simp) only [Json.ofFields, updateArgs, present_ofList distinct]
  simp (disch := decide) only [present_cons_self, present_cons_of_ne, Except.bind_ok, Except.ok_map,
    (restores_column source).list columns values, (restores_condition source).list conditions tests,
    text, require]

theorem restores_deleteArgs {table : String} {conditions : List Condition}
    (tests : ∀ c ∈ conditions, c.value.Writable) :
    deleteArgs source (.ofFields [("table", .text table),
      ("conditions", .list (conditions.map Condition.encode))]) = .ok (.delete table conditions) := by
  have distinct : ["table", "conditions"].Nodup := by decide
  simp (disch := simp) only [Json.ofFields, deleteArgs, present_ofList distinct]
  simp (disch := decide) only [present_cons_self, present_cons_of_ne, Except.bind_ok, Except.ok_map,
    (restores_condition source).list conditions tests, text, require]

theorem restores_operation : (operation source).Restores Operation.encode Operation.Writable := by
  intro op writable
  induction writable generalizing source with
  | create values =>
    rw [Operation.encode, operation_ofFields source (by decide)]
    exact restores_createArgs .setAside values
  | update values tests =>
    rw [Operation.encode, operation_ofFields source (by decide)]
    exact restores_updateArgs .setAside values tests
  | delete tests =>
    rw [Operation.encode, operation_ofFields source (by decide)]
    exact restores_deleteArgs .setAside tests
  | noOp => rfl
  | @multi parts each ih =>
    have read : operations .setAside (Operation.encodeAll parts) = .ok parts := by
      clear each
      induction parts with
      | nil => rfl
      | cons part rest others =>
        have first := ih part (List.mem_cons_self ..) .setAside
        have others := others fun p later => ih p (List.mem_cons_of_mem _ later)
        simp only [Operation.encodeAll, operations, first, others]
    rw [Operation.encode, operation_ofFields source (by decide)]
    change (operations .setAside (Operation.encodeAll parts)).map Operation.multi = _
    rw [read, Except.ok_map]

end Decoder

end ReadModel
