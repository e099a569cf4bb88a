import ReadModel.Instant.Text
import ReadModel.Json.Value
import ReadModel.Word

/-!
Values of columns.

`SqlValue` holds what a column can be set to or compared with. Comparison is `SqlValue.same`, under
which the two floating-point zeros are equal.
-/

namespace ReadModel

/-- A value of a column; whole numbers have 64 bits and a sign. Floating-point numbers are finite:
infinities and what is no number are left out. -/
inductive SqlValue where
  | null
  | bool (b : Bool)
  | int (n : Int)
  | float (x : Binary64)
  | text (s : String)
  | timestamp (t : Instant)
  | json (v : Json)
  | textArray (items : List String)

/-- The layout of floats in diagnostics. -/
def diagnosticLayout : Binary64.Layout := ⟨-3, 16, false⟩

namespace SqlValue

instance : Inhabited SqlValue := ⟨.null⟩

/-- A sequence number as a value. -/
def ofSequence (n : Nat) : SqlValue := .int (signedWord n)

/-- The text, or null where there is none. -/
def ofText? : Option String → SqlValue
  | some s => .text s
  | none => .null

/-- Equality of values. -/
def same : SqlValue → SqlValue → Bool
  | .null, .null => true
  | .bool a, .bool b => a == b
  | .int n, .int m => n == m
  | .float x, .float y => x.same y
  | .text s, .text t => s == t
  | .timestamp s, .timestamp t => s == t
  | .json v, .json w => v.same w
  | .textArray s, .textArray t => s == t
  | _, _ => false

/-- The value as diagnostics show it. -/
def describe : SqlValue → String
  | .null => "Null"
  | .bool b => "Bool(" ++ (if b then "true" else "false") ++ ")"
  | .int n => "Int(" ++ toString n ++ ")"
  | .float x => "Float(" ++ x.render diagnosticLayout ++ ")"
  | .text s => "Text(" ++ quoted s ++ ")"
  | .timestamp t => "Timestamp(" ++ t.render ++ ")"
  | .json v => "Json(" ++ v.describe ++ ")"
  | .textArray items => "TextArray(" ++ quotedList items ++ ")"

end SqlValue

end ReadModel
