/-!
Whole numbers of 64 and of 32 bits.

A number without a sign lies below `wordCount`, one with a sign from `leastSigned` up to
`greatestSigned`. Numbers beyond that are taken by their low bits.
-/

namespace ReadModel

/-- How many numbers there are of 64 bits. -/
def wordCount : Nat := 18446744073709551616

/-- How many numbers there are of 32 bits. -/
def halfWordCount : Nat := 4294967296

/-- The least number of 64 bits with a sign. -/
def leastSigned : Int := -9223372036854775808

/-- The greatest number of 64 bits with a sign. -/
def greatestSigned : Int := 9223372036854775807

/-- The number of 64 bits with a sign that agrees with a number in its low 64 bits. -/
def signedWord (n : Int) : Int := n.bmod wordCount

/-- The number of 64 bits without a sign that agrees with a number in its low 64 bits. -/
def unsignedWord (n : Int) : Nat := (n % wordCount).toNat

/-- The number of 32 bits without a sign that agrees with a number in its low 32 bits. -/
def unsignedHalfWord (n : Int) : Nat := (n % halfWordCount).toNat

/-- A number of 64 bits without a sign stays as it is. -/
theorem unsignedWord_of_lt {n : Nat} (h : n < wordCount) : unsignedWord n = n := by
  have mod : (n : Int) % wordCount = n := Int.emod_eq_of_lt (by omega) (by omega)
  simp only [unsignedWord, mod, Int.toNat_natCast]

end ReadModel
