import ReadModel.Text.Blank
import ReadModel.Text.Quoted

/-!
The format of log lines.
-/

namespace ReadModel

/-- How log lines are written. -/
inductive LogFormat where
  | json
  | pretty
  deriving DecidableEq, Inhabited

/-- A name that no format has. -/
structure LogFormatError where
  name : String
  deriving DecidableEq

/-- The text of the error. -/
def LogFormatError.message (e : LogFormatError) : String := "unknown log format " ++ quoted e.name

namespace LogFormat

/-- The format with a name; blanks around it and the case of ASCII letters do not matter. -/
def parse (text : String) : Except LogFormatError LogFormat :=
  match String.ofList ((trimmed text).toList.map Char.toLower) with
  | "json" => .ok .json
  | "pretty" => .ok .pretty
  | "text" => .ok .pretty
  | name => .error ⟨name⟩

/-- The format that the environment asks for; lines are JSON where it asks for none. -/
def ofEnvironment (value : Option String) : LogFormat :=
  (value.bind fun text => (parse text).toOption).getD .json

end LogFormat

end ReadModel
