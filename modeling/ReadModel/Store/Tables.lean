import ReadModel.Error

/-!
Tables in memory.

A row gives values to columns, a table is a list of rows. `Tables.apply` runs an operation on a
single table; a fault makes it fail that touches a certain value of a column.
-/

namespace ReadModel

/-- The values of a row's columns. -/
abbrev Row := Dict String SqlValue

/-- The rows of each table. -/
abbrev Tables := Dict String (List Row)

/-- The value of a column; a column without one is null. -/
def Row.value (row : Row) (column : String) : SqlValue := (row.find? column).getD .null

/-- Whether a row meets all conditions. -/
def Row.meets (row : Row) (conditions : List Condition) : Bool :=
  conditions.all fun c => (Row.value row c.column).same c.value

/-- The row with columns assigned, one after the other. -/
def Row.assign (row : Row) (columns : List Column) : Row :=
  columns.foldl (fun row c => row.insert c.name c.value) row

/-- Whether a row has the values that columns assign to all the conflict columns. -/
def Row.conflicts (row : Row) (columns : List Column) (conflict : List String) : Bool :=
  conflict.all fun key =>
    match columns.find? fun c => c.name == key with
    | some c => (row.find? key).any fun v => v.same c.value
    | none => false

/-- A value of a column of a table that makes every operation fail that writes it or asks for
it. -/
structure Fault where
  table : String
  column : String
  value : SqlValue

/-- The columns and values that an operation on a single table touches. -/
def Operation.touched : Operation → List (String × SqlValue)
  | .create _ columns _ => columns.map fun c => (c.name, c.value)
  | .update _ columns conditions =>
    columns.map (fun c => (c.name, c.value)) ++ conditions.map fun c => (c.column, c.value)
  | .delete _ conditions => conditions.map fun c => (c.column, c.value)
  | .noOp | .multi _ => []

/-- Whether a fault makes an operation on a single table fail. -/
def Fault.hits (f : Fault) (op : Operation) : Bool :=
  op.table? == some f.table &&
    op.touched.any fun e => e.1 == f.column && e.2.same f.value

/-- The error that a fault raises. -/
def Fault.error (f : Fault) : StorageError :=
  .injected (f.table ++ "." ++ f.column ++ " = " ++ f.value.describe)

namespace Tables

/-- The rows of a table. -/
def rows (t : Tables) (table : String) : List Row := (t.find? table).getD []

/-- Assigns columns to the first row that passes a test; a new row gets them where none does. -/
def upsertRow (test : Row → Bool) (columns : List Column) : List Row → List Row
  | [] => [Row.assign ∅ columns]
  | row :: rest =>
    if test row then Row.assign row columns :: rest else row :: upsertRow test columns rest

/-- Runs an operation on a single table. -/
def apply (t : Tables) : Operation → Tables
  | .create table columns conflict =>
    let test (row : Row) : Bool := !conflict.isEmpty && Row.conflicts row columns conflict
    t.insert table (upsertRow test columns (t.rows table))
  | .update table columns conditions =>
    match t.find? table with
    | some rows => t.insert table <| rows.map fun row =>
        if Row.meets row conditions then Row.assign row columns else row
    | none => t
  | .delete table conditions =>
    match t.find? table with
    | some rows => t.insert table <| rows.filter fun row => !Row.meets row conditions
    | none => t
  | .noOp | .multi _ => t

end Tables

end ReadModel
