import ReadModel.Database.Text
import ReadModel.Error

/-!
Operations as statements.

Names of tables and columns become a part of the text, so an operation with a name that is not plain
is refused. Values are sent along, but for nulls, which are written out.
-/

namespace ReadModel

/-- The value as it is sent along; a null is not. -/
def SqlValue.param? : SqlValue → Option SqlParam
  | .null => none
  | .bool b => some (.bool b)
  | .int n => some (.int8 n)
  | .float x => some (.float8 x)
  | .text s => some (.text s)
  | .timestamp t => some (.timestamp (some t))
  | .json v => some (.json v)
  | .textArray items => some (.textArray items)

/-- A value in a statement. -/
def SqlValue.fragment (v : SqlValue) : Fragment :=
  match v.param? with
  | some p => .value p
  | none => .text "NULL"

/-- The test of a condition. -/
def Condition.fragments (c : Condition) : List Fragment :=
  match c.value.param? with
  | some p => [.text (c.column ++ " = "), .value p]
  | none => [.text (c.column ++ " IS NULL")]

/-- The assignment of a column. -/
def Column.fragments (c : Column) : List Fragment := [.text (c.name ++ " = "), c.value.fragment]

namespace Operation

/-- What follows an insertion that is to change the row that has the same key. A row that consists of
nothing but its key is left as it is. -/
def onConflict (columns : List Column) : List String → List Fragment
  | [] => []
  | key :: keys =>
    let others := (columns.filter fun c => !decide (c.name ∈ key :: keys)).map (·.name)
    let updates := (if others.isEmpty then [key] else others).map fun name =>
      name ++ " = EXCLUDED." ++ name
    [.text (" ON CONFLICT (" ++ ", ".intercalate (key :: keys) ++ ") DO UPDATE SET " ++
      ", ".intercalate updates)]

/-- The conditions of an operation. -/
def whereClause (conditions : List Condition) : List Fragment :=
  .text " WHERE " :: Fragment.separated " AND " (conditions.map Condition.fragments)

/-- The statement of an operation on a single table. -/
def fragments : Operation → List Fragment
  | .create table columns conflict =>
    .text ("INSERT INTO " ++ table ++ " (" ++ ", ".intercalate (columns.map (·.name)) ++
        ") VALUES (") ::
      Fragment.separated ", " (columns.map fun c => [c.value.fragment]) ++
      .text ")" :: onConflict columns conflict
  | .update table columns conditions =>
    .text ("UPDATE " ++ table ++ " SET ") ::
      Fragment.separated ", " (columns.map Column.fragments) ++ whereClause conditions
  | .delete table conditions => .text ("DELETE FROM " ++ table) :: whereClause conditions
  | .noOp | .multi _ => []

/-- The names in the statement of an operation on a single table. -/
def names : Operation → List String
  | .create table columns conflict => table :: columns.map (·.name) ++ conflict
  | .update table columns conditions =>
    table :: columns.map (·.name) ++ conditions.map (·.column)
  | .delete table conditions => table :: conditions.map (·.column)
  | .noOp | .multi _ => []

/-- The statement of an operation on a single table, unless a name in it is not plain. -/
def render (op : Operation) : Except StorageError (List Fragment) :=
  match op.names.find? fun name => !isPlainName name.toList with
  | some name => .error (.invalidIdentifier name)
  | none => .ok op.fragments

end Operation

end ReadModel
