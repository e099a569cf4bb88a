import ReadModel.Operation
import ReadModel.Wire.Decoding

/-!
Operations as JSON values.

A value of a column is an object of a `type` and a `value`; an operation is one of a `kind` and its
`args`. `Operation.decode` reads what `Operation.encode` writes, and also the pair of the two as a
list and an operation that does nothing without arguments.
-/

namespace ReadModel

open Decoder

namespace SqlValue

/-- The name of a value's type. -/
def typeName : SqlValue → String
  | .null => "null"
  | .bool _ => "bool"
  | .int _ => "int"
  | .float _ => "float"
  | .text _ => "text"
  | .timestamp _ => "timestamp"
  | .json _ => "json"
  | .textArray _ => "text_array"

/-- The names of all types of values. -/
def typeNames : List String :=
  ["null", "bool", "int", "float", "text", "timestamp", "json", "text_array"]

/-- The value as a JSON value. -/
def encode (v : SqlValue) : Json :=
  let content : List (String × Json) := match v with
    | .null => []
    | .bool b => [("value", .bool b)]
    | .int n => [("value", .number (.whole n))]
    | .float x => [("value", .number (.decimal x))]
    | .text s => [("value", .text s)]
    | .timestamp t => [("value", .text t.render)]
    | .json j => [("value", j)]
    | .textArray items => [("value", .ofTexts items)]
  .ofFields (("type", .text v.typeName) :: content)

end SqlValue

namespace Decoder

/-- Reads an instant. -/
def instant : Decoder Instant
  | .text s =>
    match Instant.parse s with
    | .ok t => .ok t
    | .error e => .error (.badInstant e.message)
  | j => .error (.wrongType j "an RFC 3339 formatted date and time string")

/-- Reads the content of a value whose type is named. -/
def sqlContent (typeName : String) (j : Json) : Except DecodeError SqlValue :=
  match typeName with
  | "null" =>
    match j with
    | .null => .ok .null
    | j => .error (.wrongType j "unit variant SqlValue::Null")
  | "bool" => (bool j).map .bool
  | "int" => (signed64 j).map .int
  | "float" => (float j).map .float
  | "text" => (text j).map .text
  | "timestamp" => (instant j).map .timestamp
  | "json" => .ok (.json j)
  | _ => (list text j).map .textArray

/-- Reads a value of a column. -/
def sqlValue (source : Source) : Decoder SqlValue
  | .object fields => do
    match ← present "type" (variant source SqlValue.typeNames) fields with
    | none => .error (.missingField "type")
    | some typeName =>
      match lookup "value" fields with
      | some j => sqlContent typeName j
      | none => if typeName = "null" then .ok .null else .error (.missingField "value")
  | .list items => do
    let record := "adjacently tagged enum SqlValue"
    let (typeName, items) ← next record 0 (variant source SqlValue.typeNames) items
    let (value, items) ← next record 1 (sqlContent typeName) items
    finish source 2 items
    .ok value
  | j => .error (.wrongType j "adjacently tagged enum SqlValue")

/-- Reads a record of a name and a value. -/
def assignment (source : Source) (record name : String) : Decoder (String × SqlValue)
  | .object fields => do
    let column ← present name text fields
    let value ← present "value" (sqlValue source) fields
    let column ← require name column
    let value ← require "value" value
    .ok (column, value)
  | .list items => do
    let (column, items) ← next (elements record 2) 0 text items
    let (value, items) ← next (elements record 2) 1 (sqlValue source) items
    finish source 2 items
    .ok (column, value)
  | j => .error (.wrongType j record)

/-- Reads an assignment to a column. -/
def column (source : Source) : Decoder Column := fun j =>
  (assignment source "struct Column" "name" j).map fun a => ⟨a.1, a.2⟩

/-- Reads a test of a column. -/
def condition (source : Source) : Decoder Condition := fun j =>
  (assignment source "struct Condition" "column" j).map fun a => ⟨a.1, a.2⟩

/-- The names of all kinds of operations. -/
def kindNames : List String := ["create", "update", "delete", "no_op", "multi"]

/-- The kind of operation that a name stands for. -/
def kindOfName : String → OperationKind
  | "create" => .create
  | "update" => .update
  | "delete" => .delete
  | "no_op" => .noOp
  | _ => .multi

/-- Reads a kind of operation. -/
def operationKind (source : Source) : Decoder OperationKind := fun j =>
  (variant source kindNames j).map kindOfName

/-- Reads the arguments of a create. -/
def createArgs (source : Source) : Decoder Operation
  | .object fields => do
    let columns ← present "columns" (list (column source)) fields
    let conflict ← present "conflict" (list text) fields
    let table ← present "table" text fields
    let table ← require "table" table
    let columns ← require "columns" columns
    let conflict ← require "conflict" conflict
    .ok (.create table columns conflict)
  | j => .error (.wrongType j "struct variant Operation::Create")

/-- Reads the arguments of an update. -/
def updateArgs (source : Source) : Decoder Operation
  | .object fields => do
    let columns ← present "columns" (list (column source)) fields
    let conditions ← present "conditions" (list (condition source)) fields
    let table ← present "table" text fields
    let table ← require "table" table
    let columns ← require "columns" columns
    let conditions ← require "conditions" conditions
    .ok (.update table columns conditions)
  | j => .error (.wrongType j "struct variant Operation::Update")

/-- Reads the arguments of a delete. -/
def deleteArgs (source : Source) : Decoder Operation
  | .object fields => do
    let conditions ← present "conditions" (list (condition source)) fields
    let table ← present "table" text fields
    let table ← require "table" table
    let conditions ← require "conditions" conditions
    .ok (.delete table conditions)
  | j => .error (.wrongType j "struct variant Operation::Delete")

mutual

/-- Reads an operation. The arguments stand before the kind in an object, and are set aside. -/
def operation (source : Source) : Decoder Operation
  | .object fields =>
    match lookup "kind" fields with
    | none => .error (.missingField "kind")
    | some tag =>
      match operationKind source tag with
      | .error e => .error e
      | .ok kind => operationField kind fields
  | .list [] => .error (.wrongLength 0 "adjacently tagged enum Operation")
  | .list [tag] =>
    match operationKind source tag with
    | .error e => .error e
    | .ok _ => .error (.wrongLength 1 "adjacently tagged enum Operation")
  | .list (tag :: args :: rest) =>
    match operationKind source tag with
    | .error e => .error e
    | .ok kind =>
      match operationArgs source kind args, finish source 2 rest with
      | .error e, _ => .error e
      | .ok _, .error e => .error e
      | .ok op, .ok () => .ok op
  | j => .error (.wrongType j "adjacently tagged enum Operation")

/-- Reads the arguments of an operation out of the fields of an object. -/
def operationField (kind : OperationKind) : List (String × Json) → Except DecodeError Operation
  | [] => if kind = .noOp then .ok .noOp else .error (.missingField "args")
  | (name, j) :: rest =>
    if name = "args" then operationArgs .setAside kind j else operationField kind rest

/-- Reads the arguments of an operation of a kind. -/
def operationArgs (source : Source) (kind : OperationKind) : Decoder Operation
  | .list items =>
    match kind with
    | .create => createArgs source (.list items)
    | .update => updateArgs source (.list items)
    | .delete => deleteArgs source (.list items)
    | .noOp => .error (.wrongType (.list items) "unit variant Operation::NoOp")
    | .multi => (operations source items).map .multi
  | j =>
    match kind with
    | .create => createArgs source j
    | .update => updateArgs source j
    | .delete => deleteArgs source j
    | .noOp =>
      match j with
      | .null => .ok .noOp
      | j => .error (.wrongType j "unit variant Operation::NoOp")
    | .multi => .error (.wrongType j "a sequence")

/-- Reads operations one after the other. -/
def operations (source : Source) : List Json → Except DecodeError (List Operation)
  | [] => .ok []
  | j :: rest =>
    match operation source j with
    | .error e => .error e
    | .ok op =>
      match operations source rest with
      | .error e => .error e
      | .ok ops => .ok (op :: ops)

end

end Decoder

/-- The assignment as a JSON value. -/
def Column.encode (c : Column) : Json :=
  .ofFields [("name", .text c.name), ("value", c.value.encode)]

/-- The test as a JSON value. -/
def Condition.encode (c : Condition) : Json :=
  .ofFields [("column", .text c.column), ("value", c.value.encode)]

namespace Operation

mutual

/-- The operation as a JSON value. -/
def encode : Operation → Json
  | .create table columns conflict => .ofFields
    [("kind", .text "create"), ("args", .ofFields
      [("table", .text table), ("columns", .list (columns.map Column.encode)),
        ("conflict", .ofTexts conflict)])]
  | .update table columns conditions => .ofFields
    [("kind", .text "update"), ("args", .ofFields
      [("table", .text table), ("columns", .list (columns.map Column.encode)),
        ("conditions", .list (conditions.map Condition.encode))])]
  | .delete table conditions => .ofFields
    [("kind", .text "delete"), ("args", .ofFields
      [("table", .text table), ("conditions", .list (conditions.map Condition.encode))])]
  | .noOp => .ofFields [("kind", .text "no_op")]
  | .multi parts => .ofFields [("kind", .text "multi"), ("args", .list (encodeAll parts))]

def encodeAll : List Operation → List Json
  | [] => []
  | part :: rest => encode part :: encodeAll rest

end

end Operation

end ReadModel
