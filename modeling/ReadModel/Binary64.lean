/-!
Finite binary floating-point numbers of 64 bits, and their decimal texts.

A number is a sign and the lower 63 bits of its usual encoding, so that its size grows with its
`magnitude`. `nearest` rounds a ratio, `ofDecimal?` reads a decimal and `render` writes the fewest
digits that read back.
-/

namespace ReadModel

/-- How many magnitudes there are from one power of two to the next. -/
def stepsPerDoubling : Nat := 4503599627370496

/-- The least magnitude that is not finite. -/
def infiniteMagnitude : Nat := 2047 * stepsPerDoubling

/-- A finite number; zero comes with either sign. -/
structure Binary64 where
  negative : Bool
  magnitude : Nat
  finite : magnitude < infiniteMagnitude
  deriving DecidableEq

/-- The quotient rounded to the nearest whole number, a half to the even neighbour. -/
def roundHalfEven (num den : Nat) : Nat :=
  let whole := num / den
  let rest := num % den
  if 2 * rest < den then whole
  else if den < 2 * rest then whole + 1
  else whole + whole % 2

/-- The exponent of the greatest power of two that is at most the ratio. -/
def floorLog2 (num den : Nat) : Int :=
  let guess : Int := (num.log2 : Int) - den.log2
  let fits := if guess ≥ 0 then den * Nat.pow 2 guess.toNat ≤ num else den ≤ num * Nat.pow 2 (-guess).toNat
  if fits then guess else guess - 1

/-- The magnitude nearest to a ratio, a half going to the even neighbour. -/
def nearest (num den : Nat) : Nat :=
  if num = 0 then 0 else
    let scale := max (floorLog2 num den - 52) (-1074)
    let significand :=
      if scale ≥ 0 then roundHalfEven num (den * Nat.pow 2 scale.toNat)
      else roundHalfEven (num * Nat.pow 2 (-scale).toNat) den
    (scale + 1074).toNat * stepsPerDoubling + significand

namespace Binary64

/-- Zero without a sign. -/
def zero : Binary64 := ⟨false, 0, by decide⟩

instance : Inhabited Binary64 := ⟨zero⟩

/-- Comparison of numbers: the two zeros are the same number. -/
def same (a b : Binary64) : Bool :=
  decide (a = b) || (a.magnitude == 0 && b.magnitude == 0)

/-- The whole number that the power of two of `exponent` multiplies. -/
def significand (x : Binary64) : Nat :=
  if x.magnitude < stepsPerDoubling then x.magnitude else stepsPerDoubling + x.magnitude % stepsPerDoubling

/-- The power of two that multiplies the `significand`. -/
def exponent (x : Binary64) : Int :=
  if x.magnitude < stepsPerDoubling then -1074 else (x.magnitude / stepsPerDoubling : Nat) - 1075

/-- The size of the number as a ratio. -/
def ratio (x : Binary64) : Nat × Nat :=
  if x.exponent ≥ 0 then (x.significand * Nat.pow 2 x.exponent.toNat, 1)
  else (x.significand, Nat.pow 2 (-x.exponent).toNat)

/-- The number with a sign and a magnitude, where that is finite. -/
def ofMagnitude? (negative : Bool) (magnitude : Nat) : Option Binary64 :=
  if h : magnitude < infiniteMagnitude then some ⟨negative, magnitude, h⟩ else none

/-- The number nearest to a ratio. -/
def ofRatio? (negative : Bool) (num den : Nat) : Option Binary64 :=
  ofMagnitude? negative (nearest num den)

/-- The number nearest to a whole one. -/
def ofInt? (n : Int) : Option Binary64 := ofRatio? (n < 0) n.natAbs 1

/-- The greatest power of ten that has a finite number, and the steps in which scaling goes. -/
def tenSteps : Nat := 308

/-- The number nearest to a power of ten, as a ratio. -/
def powerOfTen (n : Nat) : Nat × Nat :=
  match ofRatio? false (Nat.pow 10 n) 1 with
  | some x => x.ratio
  | none => (0, 1)

/-- Divides by a power of ten, rounding after each step. -/
def divideByTens (x : Binary64) (tens : Nat) : Option Binary64 :=
  if x.magnitude = 0 then some x
  else if _h : tenSteps < tens then
    let scaled := ofRatio? x.negative (x.ratio.1 * (powerOfTen tenSteps).2)
      (x.ratio.2 * (powerOfTen tenSteps).1)
    scaled.bind fun y => divideByTens y (tens - tenSteps)
  else
    ofRatio? x.negative (x.ratio.1 * (powerOfTen tens).2) (x.ratio.2 * (powerOfTen tens).1)
termination_by tens
decreasing_by simp only [tenSteps] at *; omega

/-- Multiplies by a power of ten, rounding once. -/
def multiplyByTens (x : Binary64) (tens : Nat) : Option Binary64 :=
  if x.magnitude = 0 then some x
  else if tenSteps < tens then none
  else ofRatio? x.negative (x.ratio.1 * (powerOfTen tens).1) (x.ratio.2 * (powerOfTen tens).2)

/-- Reads `significand` times a power of ten: the significand is rounded first and the product
with the rounded power of ten once more. Nothing is read where the result is not finite. -/
def ofDecimal? (negative : Bool) (significand : Nat) (tens : Int) : Option Binary64 :=
  (ofRatio? negative significand 1).bind fun x =>
    if tens ≥ 0 then x.multiplyByTens tens.toNat else x.divideByTens (-tens).toNat

/-- A decimal: `digits` times the power of ten of `tens`. -/
structure Decimal where
  digits : Nat
  tens : Int
  deriving DecidableEq

/-- A decimal as a ratio. -/
def Decimal.ratio (d : Decimal) : Nat × Nat :=
  if d.tens ≥ 0 then (d.digits * Nat.pow 10 d.tens.toNat, 1) else (d.digits, Nat.pow 10 (-d.tens).toNat)

/-- Takes zeros off the end of the digits; `steps` bounds how many. -/
def Decimal.stripZeros : Nat → Decimal → Decimal
  | 0, d => d
  | steps + 1, d =>
    if d.digits ≠ 0 ∧ d.digits % 10 = 0 then stripZeros steps ⟨d.digits / 10, d.tens + 1⟩ else d

/-- The position of the first digit: the ratio is below ten to it, and not below a tenth of that. -/
def decimalPosition (num den : Nat) : Int :=
  let guess : Int := floorLog2 num den * 30103 / 100000 + 1
  let atLeast (p : Int) : Bool :=
    if p ≥ 0 then den * Nat.pow 10 p.toNat ≤ num else den ≤ num * Nat.pow 10 (-p).toNat
  if atLeast (guess + 1) then guess + 2
  else if atLeast guess then guess + 1
  else if atLeast (guess - 1) then guess
  else guess - 1

/-- The points of a decimal grid next to the ratio, the nearer one first. -/
def gridNeighbours (num den : Nat) (tens : Int) : List Decimal :=
  let scaled : Nat × Nat :=
    if tens ≥ 0 then (num, den * Nat.pow 10 tens.toNat) else (num * Nat.pow 10 (-tens).toNat, den)
  let below : Decimal := ⟨scaled.1 / scaled.2, tens⟩
  let above : Decimal := ⟨scaled.1 / scaled.2 + 1, tens⟩
  if 2 * (scaled.1 % scaled.2) ≤ scaled.2 then [below, above] else [above, below]

/-- The first decimal that reads back, with ever more digits; `left` more digits are allowed. -/
def shortestFrom (x : Binary64) (position : Int) : Nat → Nat → Decimal
  | 0, digits => (gridNeighbours x.ratio.1 x.ratio.2 (position - digits)).headD ⟨0, 0⟩
  | left + 1, digits =>
    let reads (d : Decimal) : Bool := nearest d.ratio.1 d.ratio.2 == x.magnitude
    match (gridNeighbours x.ratio.1 x.ratio.2 (position - digits)).find? reads with
    | some d => d
    | none => shortestFrom x position left (digits + 1)

/-- The decimal with the fewest digits that reads back, of these the nearest. -/
def shortest (x : Binary64) : Decimal :=
  if x.magnitude = 0 then ⟨0, 0⟩
  else (shortestFrom x (decimalPosition x.ratio.1 x.ratio.2) 16 1).stripZeros 17

/-- How a number is laid out: the positions of the first digit for which it is written without an
exponent, and whether a positive exponent carries its sign. -/
structure Layout where
  least : Int
  most : Int
  signed : Bool

/-- The digits of a whole number. -/
def digitChars (n : Nat) : List Char := Nat.toDigits 10 n

/-- The text of a number in a layout; a number without a fraction ends in `.0`, or in an
exponent. -/
def render (layout : Layout) (x : Binary64) : String :=
  let d := x.shortest
  let digits := digitChars d.digits
  let position : Int := digits.length + d.tens
  let fraction (cs : List Char) : List Char := if cs.isEmpty then ['0'] else cs
  let body : List Char :=
    if x.magnitude = 0 then ['0', '.', '0']
    else if layout.least ≤ position ∧ position ≤ layout.most then
      if position ≤ 0 then
        ['0', '.'] ++ List.replicate (-position).toNat '0' ++ digits
      else
        let whole := position.toNat
        digits.take whole ++ List.replicate (whole - digits.length) '0' ++ ['.'] ++
          fraction (digits.drop whole)
    else
      let power := position - 1
      let sign := if power < 0 then ['-'] else if layout.signed then ['+'] else []
      digits.take 1 ++ (if digits.length ≤ 1 then [] else '.' :: digits.drop 1) ++ ['e'] ++ sign ++
        digitChars power.natAbs
  String.ofList (if x.negative then '-' :: body else body)

end Binary64

end ReadModel
