import ReadModel.Database.Call

/-!
The texts of statements.

Statements are put together from fragments: text as it stands, and values. In the text of a statement
a number stands for each value, and the values are sent along in that order; so no value is ever a part
of the text.
-/

namespace ReadModel

/-- A part of a statement. -/
inductive Fragment where
  | text (s : String)
  | value (v : SqlParam)

namespace Fragment

/-- The values among fragments. -/
def params : List Fragment → List SqlParam
  | [] => []
  | .text _ :: rest => params rest
  | .value v :: rest => v :: params rest

/-- The text of fragments, in which the values are numbered from `next` on. -/
def render (next : Nat) : List Fragment → String
  | [] => ""
  | .text s :: rest => s ++ render next rest
  | .value _ :: rest => "$" ++ toString next ++ render (next + 1) rest

/-- Fragments with a text between each two of a list. -/
def separated (separator : String) : List (List Fragment) → List Fragment
  | [] => []
  | [one] => one
  | one :: rest => one ++ .text separator :: separated separator rest

/-- The statement that fragments make. -/
def call (fragments : List Fragment) (columns : List ResultColumn) : SqlCall :=
  { text := render 1 fragments, params := params fragments, columns }

end Fragment

mutual

/-- Whether a name consists of parts with a dot between each two, of which each begins with a letter
or an underscore and goes on with letters, digits and underscores. Letters are those of ASCII. -/
def isPlainName : List Char → Bool
  | [] => false
  | c :: rest => (c.isAlpha || c == '_') && isNameRest rest

/-- Whether a name goes on like that after the beginning of a part. -/
def isNameRest : List Char → Bool
  | [] => true
  | c :: rest => if c = '.' then isPlainName rest else (c.isAlphanum || c == '_') && isNameRest rest

end

end ReadModel
