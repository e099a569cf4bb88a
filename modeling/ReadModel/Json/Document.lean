import ReadModel.Json.Value
import ReadModel.Word

/-!
JSON texts.

`JsonDocument.parse?` reads the grammar alone and keeps all that a text says: every field in its
place, repeated ones too, and numbers digit by digit. `JsonDocument.toJson?` gives the value, where
there is one: a text may escape half of a surrogate pair, and a number may be too great.
-/

namespace ReadModel

/-- The digits of a number as they are written. -/
structure JsonDigits where
  negative : Bool
  whole : List Nat
  fraction : Option (List Nat)
  exponent : Option (Bool × Nat)
  deriving DecidableEq

/-- What a JSON text says. A text of `none` escapes half of a surrogate pair. -/
inductive JsonDocument where
  | null
  | bool (b : Bool)
  | number (digits : JsonDigits)
  | text (s : Option String)
  | list (items : List JsonDocument)
  | object (fields : List (Option String × JsonDocument))

instance : Inhabited JsonDocument := ⟨.null⟩

/-- A significand while digits are added to it: digits that would take it beyond 64 bits are left
out. -/
structure Significand where
  value : Nat
  tens : Int
  full : Bool

namespace Significand

/-- Adds a digit of the whole part; one that does not fit, and all that follow, count as tens. -/
def addWhole (s : Significand) (digit : Nat) : Significand :=
  if s.full ∨ wordCount ≤ s.value * 10 + digit then { s with tens := s.tens + 1, full := true }
  else { s with value := s.value * 10 + digit }

/-- Adds a digit of the fraction; one that does not fit, and all that follow, are dropped. -/
def addFraction (s : Significand) (digit : Nat) : Significand :=
  if s.full ∨ wordCount ≤ s.value * 10 + digit then { s with full := true }
  else { s with value := s.value * 10 + digit, tens := s.tens - 1 }

end Significand

namespace JsonDigits

/-- The significand and the power of ten of a number. -/
def decimal (d : JsonDigits) : Nat × Int :=
  let whole := d.whole.foldl Significand.addWhole ⟨0, 0, false⟩
  let all := (d.fraction.getD []).foldl Significand.addFraction { whole with full := false }
  let exponent : Int := match d.exponent with
    | none => 0
    | some (negative, n) => if negative then -(n : Int) else (n : Int)
  (all.value, all.tens + exponent)

/-- The number that the digits denote: a whole one where it is written as one and has 64 bits. -/
def toNumber? (d : JsonDigits) : Option JsonNumber :=
  let whole : Nat := d.whole.foldl (fun n digit => n * 10 + digit) 0
  let inRange := if d.negative then 0 < whole ∧ leastSigned ≤ -(whole : Int) else whole < wordCount
  if d.fraction.isNone ∧ d.exponent.isNone ∧ inRange then
    some (.whole (if d.negative then -(whole : Int) else (whole : Int)))
  else
    (Binary64.ofDecimal? d.negative d.decimal.1 d.decimal.2).map .decimal

end JsonDigits

namespace JsonDocument

/-- A character of a text, or an escaped half of a surrogate pair. -/
inductive TextUnit where
  | char (c : Char)
  | half (unit : Nat)

/-- Joins the halves of surrogate pairs; a half on its own makes the text no text. -/
def joinHalves : List TextUnit → Option (List Char)
  | [] => some []
  | .char c :: rest => (joinHalves rest).map (c :: ·)
  | .half high :: .half low :: rest =>
    if high < 0xdc00 ∧ 0xdc00 ≤ low then
      (joinHalves rest).map (Char.ofNat (0x10000 + (high - 0xd800) * 0x400 + (low - 0xdc00)) :: ·)
    else none
  | .half _ :: _ => none

/-- Drops white space. -/
def skipSpace (cs : List Char) : List Char :=
  cs.dropWhile fun c => c == ' ' || c == '\n' || c == '\r' || c == '\t'

/-- The value of a hexadecimal digit. -/
def hexDigit? (c : Char) : Option Nat :=
  if '0' ≤ c ∧ c ≤ '9' then some (c.toNat - 48)
  else if 'a' ≤ c ∧ c ≤ 'f' then some (c.toNat - 87)
  else if 'A' ≤ c ∧ c ≤ 'F' then some (c.toNat - 55)
  else none

/-- Reads four hexadecimal digits. -/
def readHex? : List Char → Option (Nat × List Char)
  | a :: b :: c :: d :: rest => do
    let n := (← hexDigit? a) * 4096 + (← hexDigit? b) * 256 + (← hexDigit? c) * 16 + (← hexDigit? d)
    return (n, rest)
  | _ => none

/-- Reads one escape, without its backslash. -/
def readEscape? : List Char → Option (TextUnit × List Char)
  | '"' :: rest => some (.char '"', rest)
  | '\\' :: rest => some (.char '\\', rest)
  | '/' :: rest => some (.char '/', rest)
  | 'b' :: rest => some (.char (Char.ofNat 8), rest)
  | 'f' :: rest => some (.char (Char.ofNat 12), rest)
  | 'n' :: rest => some (.char '\n', rest)
  | 'r' :: rest => some (.char '\r', rest)
  | 't' :: rest => some (.char '\t', rest)
  | 'u' :: rest => do
    let (n, rest) ← readHex? rest
    return (if 0xd800 ≤ n ∧ n < 0xe000 then .half n else .char (Char.ofNat n), rest)
  | _ => none

/-- Reads a text up to its closing quote; `done` holds what was read, last unit first. -/
def readText? : Nat → List TextUnit → List Char → Option (Option String × List Char)
  | 0, _, _ => none
  | _ + 1, _, [] => none
  | fuel + 1, done, c :: rest =>
    if c = '"' then some ((joinHalves done.reverse).map String.ofList, rest)
    else if c = '\\' then do
      let (unit, rest) ← readEscape? rest
      readText? fuel (unit :: done) rest
    else if c.toNat < 0x20 then none
    else readText? fuel (.char c :: done) rest

/-- Takes the digits in front. -/
def takeDigits (cs : List Char) : List Nat × List Char :=
  ((cs.takeWhile Char.isDigit).map fun c => c.toNat - 48, cs.dropWhile Char.isDigit)

/-- Reads a fraction, if there is one; a point needs a digit behind it. -/
def readFraction? : List Char → Option (Option (List Nat) × List Char)
  | '.' :: rest =>
    let (digits, rest) := takeDigits rest
    if digits.isEmpty then none else some (some digits, rest)
  | cs => some (none, cs)

/-- Reads an exponent, if there is one. -/
def readExponent? : List Char → Option (Option (Bool × Nat) × List Char)
  | [] => some (none, [])
  | c :: rest =>
    if c = 'e' ∨ c = 'E' then
      let (negative, rest) : Bool × List Char := match rest with
        | '+' :: more => (false, more)
        | '-' :: more => (true, more)
        | more => (false, more)
      let (digits, rest) := takeDigits rest
      if digits.isEmpty then none
      else some (some (negative, digits.foldl (fun n digit => n * 10 + digit) 0), rest)
    else some (none, c :: rest)

/-- Reads a number; its whole part has no leading zero. -/
def readNumber? (cs : List Char) : Option (JsonDigits × List Char) := do
  let (negative, cs) : Bool × List Char := match cs with
    | '-' :: rest => (true, rest)
    | rest => (false, rest)
  let (whole, cs) := takeDigits cs
  if whole.isEmpty ∨ (whole.head? = some 0 ∧ 1 < whole.length) then none
  else
    let (fraction, cs) ← readFraction? cs
    let (exponent, cs) ← readExponent? cs
    return (⟨negative, whole, fraction, exponent⟩, cs)

/-- Drops a word that must stand in front. -/
def dropWord? : List Char → List Char → Option (List Char)
  | [], cs => some cs
  | w :: word, c :: cs => if w = c then dropWord? word cs else none
  | _ :: _, [] => none

mutual

/-- Reads a value; `fuel` bounds the characters it may take. -/
def readValue? : Nat → List Char → Option (JsonDocument × List Char)
  | 0, _ => none
  | fuel + 1, cs =>
    match skipSpace cs with
    | 'n' :: rest => (dropWord? "ull".toList rest).map (.null, ·)
    | 't' :: rest => (dropWord? "rue".toList rest).map (.bool true, ·)
    | 'f' :: rest => (dropWord? "alse".toList rest).map (.bool false, ·)
    | '"' :: rest => (readText? (rest.length + 1) [] rest).map fun r => (.text r.1, r.2)
    | '[' :: rest =>
      match skipSpace rest with
      | ']' :: rest => some (.list [], rest)
      | rest => (readItems? fuel [] rest).map fun r => (.list r.1, r.2)
    | '\x7b' :: rest =>
      match skipSpace rest with
      | '\x7d' :: rest => some (.object [], rest)
      | rest => (readFields? fuel [] rest).map fun r => (.object r.1, r.2)
    | rest => (readNumber? rest).map fun r => (.number r.1, r.2)

/-- Reads the items of a list up to its closing bracket; `done` holds them, last item first. -/
def readItems? : Nat → List JsonDocument → List Char → Option (List JsonDocument × List Char)
  | 0, _, _ => none
  | fuel + 1, done, cs => do
    let (item, cs) ← readValue? fuel cs
    match skipSpace cs with
    | ',' :: rest => readItems? fuel (item :: done) rest
    | ']' :: rest => some ((item :: done).reverse, rest)
    | _ => none

/-- Reads the fields of an object up to its closing brace; `done` holds them, last field first. -/
def readFields? : Nat → List (Option String × JsonDocument) → List Char →
    Option (List (Option String × JsonDocument) × List Char)
  | 0, _, _ => none
  | fuel + 1, done, cs =>
    match skipSpace cs with
    | '"' :: rest => do
      let (key, cs) ← readText? (rest.length + 1) [] rest
      match skipSpace cs with
      | ':' :: rest =>
        let (value, cs) ← readValue? fuel rest
        match skipSpace cs with
        | ',' :: rest => readFields? fuel ((key, value) :: done) rest
        | '\x7d' :: rest => some (((key, value) :: done).reverse, rest)
        | _ => none
      | _ => none
    | _ => none

end

/-- What a text says, if all of it is one JSON value. -/
def parse? (s : String) : Option JsonDocument := do
  let cs := s.toList
  let (value, rest) ← readValue? (cs.length + 1) cs
  if (skipSpace rest).isEmpty then some value else none

mutual

/-- The value of a document. -/
def toJson? : JsonDocument → Option Json
  | .null => some .null
  | .bool b => some (.bool b)
  | .number digits => digits.toNumber?.map .number
  | .text s => s.map .text
  | .list items => (toJsonList? items).map .list
  | .object fields => (toJsonFields? fields).map Json.ofFields

def toJsonList? : List JsonDocument → Option (List Json)
  | [] => some []
  | item :: rest => do return (← toJson? item) :: (← toJsonList? rest)

def toJsonFields? : List (Option String × JsonDocument) → Option (List (String × Json))
  | [] => some []
  | (key, value) :: rest => do return ((← key), (← toJson? value)) :: (← toJsonFields? rest)

end

end JsonDocument

/-- The JSON value that a text writes. -/
def Json.parse? (s : String) : Option Json := (JsonDocument.parse? s).bind JsonDocument.toJson?

end ReadModel
