import ReadModel.Dialogue
import ReadModel.SqlValue

/-!
What is asked of a database.

An `SqlCall` is a statement with the values that are sent along with it and the columns that it gives
back. The answer is an `SqlReply`, whose rows have a value or a null for each column, or an
`SqlFailure`.
-/

namespace ReadModel

/-- A value that is sent along with a statement. -/
inductive SqlParam where
  | bool (b : Bool)
  | int8 (n : Int)
  | float8 (x : Binary64)
  | text (s : String)
  | timestamp (t : Option Instant)
  | json (v : Json)
  | textArray (items : List String)

/-- The type of a column. -/
inductive ColumnType where
  | int4
  | int8
  | text
  | timestamp
  | json
  deriving DecidableEq

/-- The values of a column other than null. -/
@[reducible]
def ColumnType.Value : ColumnType → Type
  | .int4 | .int8 => Int
  | .text => String
  | .timestamp => Instant
  | .json => Json

/-- A column of what a statement gives back. -/
structure ResultColumn where
  name : String
  type : ColumnType
  deriving DecidableEq

/-- A row with a value or a null for each column. -/
@[reducible]
def ResultRow : List ResultColumn → Type
  | [] => Unit
  | column :: rest => Option column.type.Value × ResultRow rest

/-- A row with a value for each column. -/
@[reducible]
def FullRow : List ResultColumn → Type
  | [] => Unit
  | column :: rest => column.type.Value × FullRow rest

/-- The row if it has no null, or else the first column that is null. -/
def ResultRow.full : (columns : List ResultColumn) → ResultRow columns →
    Except ResultColumn (FullRow columns)
  | [], () => .ok ()
  | column :: _, (none, _) => .error column
  | _ :: rest, (some a, cells) =>
    match full rest cells with
    | .ok values => .ok (a, values)
    | .error column => .error column

/-- A statement, the values that are sent along with it, and the columns that it gives back. -/
structure SqlCall where
  text : String
  params : List SqlParam := []
  columns : List ResultColumn := []

/-- The answer to a statement: how many rows it has written, and the rows that it gives back. -/
structure SqlReply (columns : List ResultColumn) where
  affected : Nat
  rows : List (ResultRow columns)

/-- Why a statement was not answered, or not as it should have been. -/
inductive SqlFailure where
  | server (code message : String)
  /-- There are no connections any more. -/
  | closed
  | missingRow
  /-- A column is null that never is; it is told as its reader calls it. -/
  | unexpectedNull (column : String)
  deriving DecidableEq

/-- The text of the failure. -/
def SqlFailure.message : SqlFailure → String
  | .server _ message => "error returned from database: " ++ message
  | .closed => "attempted to acquire a connection on a closed pool"
  | .missingRow => "no rows returned by a query that expected to return at least one row"
  | .unexpectedNull column =>
    "error occurred while decoding column " ++ column ++
      ": unexpected null; try decoding as an \x60Option\x60"

/-- The database. -/
@[reducible]
def sqlInterface : Interface := ⟨SqlCall, fun c => Except SqlFailure (SqlReply c.columns)⟩

/-- What is done with a database. -/
abbrev SqlTask (α : Type) := Dialogue sqlInterface α

/-- Sends a statement. -/
def sendSql (c : SqlCall) : SqlTask (Except SqlFailure (SqlReply c.columns)) :=
  @Dialogue.call sqlInterface c

/-- Sends a statement of which only success counts. -/
def sendPlain (text : String) : SqlTask (Except SqlFailure Unit) := do
  return (← sendSql { text }).map fun _ => ()

/-- Sends a statement to end the open transaction. One whose end fails is rolled back. -/
def endTransaction (text : String) : SqlTask (Except SqlFailure Unit) := do
  match ← sendPlain text with
  | .ok () => return .ok ()
  | .error e =>
    let _ ← sendPlain "ROLLBACK"
    return .error e

/-- The first row of a reply. -/
def SqlReply.first {columns : List ResultColumn} (reply : SqlReply columns) :
    Except SqlFailure (ResultRow columns) :=
  match reply.rows with
  | row :: _ => .ok row
  | [] => .error .missingRow

/-- The values of a row of which none may be null. -/
def readRow {columns : List ResultColumn} (row : ResultRow columns) :
    Except SqlFailure (FullRow columns) :=
  match ResultRow.full columns row with
  | .ok values => .ok values
  | .error column => .error (.unexpectedNull (quoted column.name))

/-- The only value of a row, which may not be null. -/
def readScalar {column : ResultColumn} (row : ResultRow [column]) :
    Except SqlFailure column.type.Value :=
  match row.1 with
  | some a => .ok a
  | none => .error (.unexpectedNull "0")

end ReadModel
