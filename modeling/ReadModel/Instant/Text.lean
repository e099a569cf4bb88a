import ReadModel.Instant
import ReadModel.Text.Blank
import ReadModel.Word

/-!
Instants as texts.

`Instant.render` writes the date, the time of day with as few fraction digits as are exact (none,
three, six or nine) and `Z`. `Instant.parse` also reads other offsets, blanks before the parts, a
lower case or blank separator, and a second 60.
-/

namespace ReadModel

/-- Why a text is no instant. -/
inductive InstantError where
  | outOfRange
  | impossible
  | invalid
  | tooShort
  | tooLong
  deriving DecidableEq

/-- The text of the error. -/
def InstantError.message : InstantError → String
  | .outOfRange => "input is out of range"
  | .impossible => "no possible date and time matching input"
  | .invalid => "input contains invalid characters"
  | .tooShort => "premature end of input"
  | .tooLong => "trailing input"

namespace Instant

/-- A reader takes something off the front of a text. -/
abbrev Reader (α : Type) := List Char → Except InstantError (α × List Char)

/-- The number that decimal digits denote. -/
def decimalValue (digits : List Char) : Nat :=
  digits.foldl (fun n c => n * 10 + (c.toNat - 48)) 0

/-- Reads a number of at least one and at most `width` digits; any number where there is no width.
Numbers have 63 bits. -/
def readNumber (width : Option Nat) : Reader Nat := fun cs =>
  let window := match width with
    | some w => cs.take w
    | none => cs
  let digits := window.takeWhile Char.isDigit
  if cs.isEmpty then .error .tooShort
  else if digits.isEmpty then .error .invalid
  else if greatestSigned < decimalValue digits then .error .outOfRange
  else .ok (decimalValue digits, cs.drop digits.length)

/-- Reads a number between bounds, after blanks. -/
def readPart (width least most : Nat) : Reader Nat := fun cs => do
  let (n, cs) ← readNumber (some width) (dropBlanks cs)
  if least ≤ n ∧ n ≤ most then .ok (n, cs) else .error .outOfRange

/-- Reads a year, after blanks: up to four digits, or a sign and any digits. -/
def readYear : Reader Int := fun cs => do
  let (year, cs) ← match dropBlanks cs with
    | '-' :: rest => do
      let (n, rest) ← readNumber none rest
      pure (-(n : Int), rest)
    | '+' :: rest => do
      let (n, rest) ← readNumber none rest
      pure ((n : Int), rest)
    | rest => do
      let (n, rest) ← readNumber (some 4) rest
      pure ((n : Int), rest)
  if -2147483648 ≤ year ∧ year ≤ 2147483647 then .ok (year, cs) else .error .outOfRange

/-- Takes a character, after blanks. -/
def readMark (mark : Char) : Reader Unit := fun cs =>
  match dropBlanks cs with
  | [] => .error .tooShort
  | c :: rest => if c = mark then .ok ((), rest) else .error .invalid

/-- Reads a fraction of a second, if there is one, in nanoseconds; digits after the ninth are
dropped. -/
def readFraction : Reader Nat
  | '.' :: rest => do
    let (n, after) ← readNumber (some 9) rest
    let digits := rest.length - after.length
    .ok (n * Nat.pow 10 (9 - digits), after.dropWhile Char.isDigit)
  | cs => .ok (0, cs)

/-- Reads two digits, the first of them at most `most`. -/
def readPair (most : Nat) : Reader Nat := fun cs =>
  if (String.ofList cs).utf8ByteSize < 2 then .error .tooShort
  else match cs with
    | a :: b :: rest =>
      if a.isDigit ∧ b.isDigit then
        if a.toNat - 48 ≤ most then .ok ((a.toNat - 48) * 10 + (b.toNat - 48), rest)
        else .error .outOfRange
      else .error .invalid
    | _ => .error .invalid

/-- Reads hours and minutes of an offset. -/
def readClockOffset : Reader Int := fun cs => do
  let (hours, cs) ← readPair 9 cs
  let (minutes, cs) ← readPair 5 (cs.dropWhile fun c => c == ':' || isBlank c)
  .ok (hours * 3600 + minutes * 60, cs)

/-- Reads the offset from Coordinated Universal Time, in seconds. -/
def readOffset : Reader Int := fun cs =>
  match cs with
  | [] => .error .tooShort
  | c :: rest =>
    if (cs.take 3).map Char.toUpper = ['U', 'T', 'C'] then .ok (0, cs.drop 3)
    else if c = 'Z' ∨ c = 'z' then .ok (0, rest)
    else if c = '+' then readClockOffset rest
    else if c = '-' ∨ c = Char.ofNat 0x2212 then
      (readClockOffset rest).map fun r => (-r.1, r.2)
    else .error .invalid

/-- Reads an instant. -/
def parse (text : String) : Except InstantError Instant := do
  let (year, cs) ← readYear text.toList
  let (_, cs) ← readMark '-' cs
  let (month, cs) ← readPart 2 1 12 cs
  let (_, cs) ← readMark '-' cs
  let (day, cs) ← readPart 2 1 31 cs
  let cs ← match cs with
    | [] => .error .tooShort
    | c :: rest => if c = 't' ∨ c = 'T' ∨ c = ' ' then .ok rest else .error .invalid
  let (hour, cs) ← readPart 2 0 23 cs
  let (_, cs) ← readMark ':' cs
  let (minute, cs) ← readPart 2 0 59 cs
  let (_, cs) ← readMark ':' cs
  let (second, cs) ← readPart 2 0 60 cs
  let (nanos, cs) ← readFraction cs
  let (offset, cs) ← readOffset (dropBlanks cs)
  if ¬ (dropBlanks cs).isEmpty then .error .tooLong
  let date : CivilDate := ⟨year, month, day⟩
  if ¬ date.valid then .error .outOfRange
  if ¬ offset.natAbs < 86400 then .error .outOfRange
  let leap := second = 60
  let atOffset : Instant := ofDate date (hour * 3600 + minute * 60 + (if leap then 59 else second : Nat))
    (if leap then nanos + 1000000000 else nanos)
  let utc : Instant := { atOffset with seconds := atOffset.seconds - offset }
  if utc.inRange then .ok utc else .error .impossible

/-- A number with zeros in front up to a width. -/
def padded (width n : Nat) : String :=
  let digits := Nat.toDigits 10 n
  String.ofList (List.replicate (width - digits.length) '0' ++ digits)

/-- The digits of a fraction, and the point before them. -/
def renderFraction (nanos : Nat) : String :=
  if nanos = 0 then ""
  else if nanos % 1000000 = 0 then "." ++ padded 3 (nanos / 1000000)
  else if nanos % 1000 = 0 then "." ++ padded 6 (nanos / 1000)
  else "." ++ padded 9 nanos

/-- A year of four digits, or with a sign where those do not hold it. -/
def renderYear (year : Int) : String :=
  if 0 ≤ year ∧ year ≤ 9999 then padded 4 year.natAbs
  else (if year < 0 then "-" else "+") ++ padded 4 year.natAbs

/-- The instant as a text. -/
def render (t : Instant) : String :=
  let date := t.date
  let second := (t.seconds % 86400).toNat
  let leap := 1000000000 ≤ t.nanos
  renderYear date.year ++ "-" ++ padded 2 date.month ++ "-" ++ padded 2 date.day ++ "T" ++
    padded 2 (second / 3600) ++ ":" ++ padded 2 (second / 60 % 60) ++ ":" ++
    padded 2 (second % 60 + if leap then 1 else 0) ++ renderFraction (t.nanos % 1000000000) ++ "Z"

end Instant

end ReadModel
