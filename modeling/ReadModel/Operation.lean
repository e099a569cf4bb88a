import ReadModel.SqlValue

/-!
Operations on tables.

An `Operation` creates, updates or deletes rows of one table, does nothing, or puts several
operations together. `Operation.validate` refuses what can never run: writes without columns, and
updates and deletes without conditions, which would reach a whole table.
-/

namespace ReadModel

/-- An assignment to a column. -/
structure Column where
  name : String
  value : SqlValue
  deriving Inhabited

/-- A test that a column has a value. -/
structure Condition where
  column : String
  value : SqlValue
  deriving Inhabited

/-- What an operation does. -/
inductive OperationKind where
  | create
  | update
  | delete
  | noOp
  | multi
  deriving DecidableEq

/-- The name of a kind of operation. -/
def OperationKind.name : OperationKind → String
  | .create => "create"
  | .update => "update"
  | .delete => "delete"
  | .noOp => "no_op"
  | .multi => "multi"

/-- An operation on the tables of a read model. A create with conflict columns replaces the row that
agrees with it in these. -/
inductive Operation where
  | create (table : String) (columns : List Column) (conflict : List String)
  | update (table : String) (columns : List Column) (conditions : List Condition)
  | delete (table : String) (conditions : List Condition)
  | noOp
  | multi (parts : List Operation)

/-- Why an operation can never run. -/
inductive OperationError where
  | noValues (table : String)
  | noConditions (table : String)
  deriving DecidableEq

/-- The text of the error. -/
def OperationError.message : OperationError → String
  | .noValues table => "no values given for table " ++ table
  | .noConditions table => "no conditions given for table " ++ table

namespace Operation

instance : Inhabited Operation := ⟨.noOp⟩

/-- What the operation does. -/
def kind : Operation → OperationKind
  | .create .. => .create
  | .update .. => .update
  | .delete .. => .delete
  | .noOp => .noOp
  | .multi _ => .multi

/-- The table that an operation on a single one works on. -/
def table? : Operation → Option String
  | .create table .. | .update table .. | .delete table _ => some table
  | .noOp | .multi _ => none

mutual

/-- Whether there is nothing to do. -/
def isNoOp : Operation → Bool
  | .noOp => true
  | .multi parts => areNoOps parts
  | _ => false

def areNoOps : List Operation → Bool
  | [] => true
  | part :: rest => isNoOp part && areNoOps rest

end

mutual

/-- Refuses an operation that can never run. -/
def validate : Operation → Except OperationError Unit
  | .create table columns _ => if columns.isEmpty then .error (.noValues table) else .ok ()
  | .update table columns conditions =>
    if columns.isEmpty then .error (.noValues table)
    else if conditions.isEmpty then .error (.noConditions table)
    else .ok ()
  | .delete table conditions => if conditions.isEmpty then .error (.noConditions table) else .ok ()
  | .noOp => .ok ()
  | .multi parts => validateAll parts

def validateAll : List Operation → Except OperationError Unit
  | [] => .ok ()
  | part :: rest =>
    match validate part with
    | .ok () => validateAll rest
    | .error e => .error e

end

mutual

/-- The operations on single tables that an operation is made of, in the order in which they run. -/
def leaves : Operation → List Operation
  | .noOp => []
  | .multi parts => leavesOf parts
  | single => [single]

def leavesOf : List Operation → List Operation
  | [] => []
  | part :: rest => leaves part ++ leavesOf rest

end

end Operation

end ReadModel
