import ReadModel.Binary64
import ReadModel.Dict
import ReadModel.Text.Quoted

/-!
JSON values.

Whole numbers and decimals are different numbers, also where they denote the same quantity. The
fields of an object stand in key order. `Json.render` writes a value, `Json.describe` shows it in
diagnostics.
-/

namespace ReadModel

/-- A JSON number: a whole one of 64 bits, signed or unsigned, or a decimal. -/
inductive JsonNumber where
  | whole (n : Int)
  | decimal (x : Binary64)
  deriving DecidableEq

/-- A JSON value. -/
inductive Json where
  | null
  | bool (b : Bool)
  | number (n : JsonNumber)
  | text (s : String)
  | list (items : List Json)
  | object (fields : List (String × Json))

instance : Inhabited Json := ⟨.null⟩

/-- The layout of decimals in JSON texts. -/
def jsonLayout : Binary64.Layout := ⟨-4, 16, true⟩

namespace JsonNumber

/-- Comparison of numbers of one kind. -/
def same : JsonNumber → JsonNumber → Bool
  | .whole n, .whole m => n == m
  | .decimal x, .decimal y => x.same y
  | _, _ => false

/-- The text of a number. -/
def render : JsonNumber → String
  | .whole n => toString n
  | .decimal x => x.render jsonLayout

/-- The decimal nearest to a number. -/
def toBinary64? : JsonNumber → Option Binary64
  | .whole n => Binary64.ofInt? n
  | .decimal x => some x

end JsonNumber

namespace Json

/-- The object with the given fields; of two for one key the later counts. -/
def ofFields (fields : List (String × Json)) : Json := .object (Dict.ofList fields).entries

mutual

/-- Equality of values; decimals are compared as numbers. -/
def same : Json → Json → Bool
  | .null, .null => true
  | .bool a, .bool b => a == b
  | .number n, .number m => n.same m
  | .text s, .text t => s == t
  | .list xs, .list ys => sameList xs ys
  | .object xs, .object ys => sameFields xs ys
  | _, _ => false

def sameList : List Json → List Json → Bool
  | [], [] => true
  | x :: xs, y :: ys => same x y && sameList xs ys
  | _, _ => false

def sameFields : List (String × Json) → List (String × Json) → Bool
  | [], [] => true
  | (k, x) :: xs, (l, y) :: ys => k == l && same x y && sameFields xs ys
  | _, _ => false

end

mutual

/-- The value as diagnostics show it, with the name of its kind. -/
def describe : Json → String
  | .null => "Null"
  | .bool b => "Bool(" ++ (if b then "true" else "false") ++ ")"
  | .number n => "Number(" ++ n.render ++ ")"
  | .text s => "String(" ++ quoted s ++ ")"
  | .list items => "Array " ++ bracketed (describeList items)
  | .object fields => "Object \x7b" ++ ", ".intercalate (describeFields fields) ++ "\x7d"

def describeList : List Json → List String
  | [] => []
  | item :: rest => describe item :: describeList rest

def describeFields : List (String × Json) → List String
  | [] => []
  | (key, value) :: rest => (quoted key ++ ": " ++ describe value) :: describeFields rest

end

/-- The escaped form of one character inside a JSON text. -/
def escapedChar (c : Char) : List Char :=
  if c = '"' then ['\\', '"']
  else if c = '\\' then ['\\', '\\']
  else if c = '\n' then ['\\', 'n']
  else if c = '\r' then ['\\', 'r']
  else if c = '\t' then ['\\', 't']
  else if c.toNat < 0x20 then
    let digits := Nat.toDigits 16 c.toNat
    ['\\', 'u'] ++ List.replicate (4 - digits.length) '0' ++ digits
  else [c]

/-- A text as JSON writes it. -/
def renderText (s : String) : String :=
  String.ofList ('"' :: s.toList.flatMap escapedChar ++ ['"'])

mutual

/-- The value as JSON writes it, without white space. -/
def render : Json → String
  | .null => "null"
  | .bool b => if b then "true" else "false"
  | .number n => n.render
  | .text s => renderText s
  | .list items => "[" ++ ",".intercalate (renderList items) ++ "]"
  | .object fields => "\x7b" ++ ",".intercalate (renderFields fields) ++ "\x7d"

def renderList : List Json → List String
  | [] => []
  | item :: rest => render item :: renderList rest

def renderFields : List (String × Json) → List String
  | [] => []
  | (key, value) :: rest => (renderText key ++ ":" ++ render value) :: renderFields rest

end

/-- The value of a field, where the value is an object that has it. -/
def field? (key : String) : Json → Option Json
  | .object fields => lookup key fields
  | _ => none

end Json

end ReadModel
