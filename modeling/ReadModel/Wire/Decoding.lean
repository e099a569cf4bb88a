import ReadModel.Json.Value
import ReadModel.Word

/-!
Reading records out of JSON values.

A record stands as an object or as the list of its fields in their order. In an object the fields
are read in the order of their names, whatever else it has is left alone, and what is missing is
noticed at the end. A list has all fields and no more.
-/

namespace ReadModel

/-- Why a JSON value is not what it was read as. -/
inductive DecodeError where
  | wrongType (found : Json) (expected : String)
  | wrongValue (found : Json) (expected : String)
  | wrongLength (length : Nat) (expected : String)
  | missingField (name : String)
  | unknownVariant (name : String) (known : List String)
  | badInstant (cause : String)

/-- A JSON value in a message: a scalar is shown, a structure only named. -/
def Json.found : Json → String
  | .null => "null"
  | .bool b => "boolean `" ++ (if b then "true" else "false") ++ "`"
  | .number (.whole n) => "integer `" ++ toString n ++ "`"
  | .number (.decimal x) => "floating point `" ++ x.render jsonLayout ++ "`"
  | .text s => "string " ++ quoted s
  | .list _ => "sequence"
  | .object _ => "map"

/-- The known names of variants in a message. -/
def oneOf (names : List String) : String :=
  let marked := names.map fun name => "`" ++ name ++ "`"
  match marked with
  | [] => "there are no variants"
  | [a] => "expected " ++ a
  | [a, b] => "expected " ++ a ++ " or " ++ b
  | _ => "expected one of " ++ ", ".intercalate marked

/-- The text of the error. -/
def DecodeError.message : DecodeError → String
  | .wrongType found expected => "invalid type: " ++ found.found ++ ", expected " ++ expected
  | .wrongValue found expected => "invalid value: " ++ found.found ++ ", expected " ++ expected
  | .wrongLength length expected =>
    "invalid length " ++ toString length ++ ", expected " ++ expected
  | .missingField name => "missing field `" ++ name ++ "`"
  | .unknownVariant name known => "unknown variant `" ++ name ++ "`, " ++ oneOf known
  | .badInstant cause => cause

/-- A reader of JSON values. -/
abbrev Decoder (α : Type) := Json → Except DecodeError α

namespace Decoder

/-- Reads a text. -/
def text : Decoder String
  | .text s => .ok s
  | j => .error (.wrongType j "a string")

/-- Reads a truth value. -/
def bool : Decoder Bool
  | .bool b => .ok b
  | j => .error (.wrongType j "a boolean")

/-- Reads a whole number of a range that has a name. -/
def whole (least most : Int) (name : String) : Decoder Int
  | .number (.whole n) =>
    if least ≤ n ∧ n ≤ most then .ok n else .error (.wrongValue (.number (.whole n)) name)
  | j => .error (.wrongType j name)

/-- Reads a whole number of 64 bits with a sign. -/
def signed64 : Decoder Int := whole leastSigned greatestSigned "i64"

/-- Reads a whole number of 64 bits without a sign. -/
def unsigned64 : Decoder Nat := fun j => (whole 0 (wordCount - 1) "u64" j).map Int.toNat

/-- Reads a whole number of 32 bits without a sign. -/
def unsigned32 : Decoder Nat := fun j => (whole 0 (halfWordCount - 1) "u32" j).map Int.toNat

/-- Reads a size, which has 64 bits. -/
def size : Decoder Nat := fun j => (whole 0 (wordCount - 1) "usize" j).map Int.toNat

/-- Reads a floating-point number; a whole one counts as one. -/
def float : Decoder Binary64
  | .number n =>
    match n.toBinary64? with
    | some x => .ok x
    | none => .error (.wrongType (.number n) "f64")
  | j => .error (.wrongType j "f64")

/-- Reads nothing from null and a value from all else. -/
def optional {α : Type} (read : Decoder α) : Decoder (Option α)
  | .null => .ok none
  | j => (read j).map some

/-- Reads the items of a list one after the other. -/
def all {α : Type} (read : Decoder α) : List Json → Except DecodeError (List α)
  | [] => .ok []
  | j :: rest => do
    let a ← read j
    let as ← all read rest
    .ok (a :: as)

/-- Reads a list. -/
def list {α : Type} (read : Decoder α) : Decoder (List α)
  | .list items => all read items
  | j => .error (.wrongType j "a sequence")

/-- Reads a field of an object, if the object has it. -/
def present {α : Type} (name : String) (read : Decoder α) (fields : List (String × Json)) :
    Except DecodeError (Option α) :=
  match lookup name fields with
  | some j => (read j).map some
  | none => .ok none

/-- Insists on a field. -/
def require {α : Type} (name : String) : Option α → Except DecodeError α
  | some a => .ok a
  | none => .error (.missingField name)

/-- How many fields a record has, as a message tells it. -/
def elements (record : String) (count : Nat) : String :=
  record ++ " with " ++ toString count ++ (if count = 1 then " element" else " elements")

/-- Reads the next field of a record that stands as a list; `position` fields came before it. -/
def next {α : Type} (record : String) (position : Nat) (read : Decoder α) :
    List Json → Except DecodeError (α × List Json)
  | j :: rest => do
    let a ← read j
    .ok (a, rest)
  | [] => .error (.wrongLength position record)

/-- Whether a value is read from the whole input, or from a part of it that was set aside while the
name of its variant was looked for. Only messages about long lists differ. -/
inductive Source where
  | whole
  | setAside
  deriving DecidableEq

/-- Refuses further items after the fields of a record that stands as a list. -/
def finish (source : Source) (count : Nat) : List Json → Except DecodeError Unit
  | [] => .ok ()
  | rest =>
    .error <| .wrongLength (count + rest.length) <|
      match source with
      | .whole => "fewer elements in array"
      | .setAside => toString count ++ (if count = 1 then " element" else " elements") ++ " in sequence"

/-- Reads the name of a variant; it stands as a text or as the only field of an object, which is
empty. -/
def variant (source : Source) (known : List String) : Decoder String
  | .text s => if s ∈ known then .ok s else .error (.unknownVariant s known)
  | .object [(name, content)] =>
    if name ∈ known then
      match content, source with
      | .null, _ => .ok name
      | .object [], .setAside => .ok name
      | j, _ => .error (.wrongType j "unit")
    else .error (.unknownVariant name known)
  | .object fields => .error (.wrongValue (.object fields) "map with a single key")
  | j => .error (.wrongType j "string or map")

end Decoder

/-- An optional value; its absence is written as null. -/
def Json.ofOption {α : Type} (write : α → Json) : Option α → Json
  | some a => write a
  | none => .null

/-- A whole number. -/
def Json.ofNat (n : Nat) : Json := .number (.whole n)

/-- A list of texts. -/
def Json.ofTexts (texts : List String) : Json := .list (texts.map .text)

end ReadModel
