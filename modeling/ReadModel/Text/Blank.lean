/-!
White space at the ends of a text.

`isBlank` is the `White_Space` property of Unicode, the class that decides what trimming removes.
-/

namespace ReadModel

/-- The characters with the Unicode property `White_Space`. -/
def isBlank (c : Char) : Bool :=
  (0x09 ≤ c.toNat && c.toNat ≤ 0x0d) || c.toNat == 0x20 || c.toNat == 0x85 || c.toNat == 0xa0 ||
    c.toNat == 0x1680 || (0x2000 ≤ c.toNat && c.toNat ≤ 0x200a) || c.toNat == 0x2028 ||
    c.toNat == 0x2029 || c.toNat == 0x202f || c.toNat == 0x205f || c.toNat == 0x3000

/-- Drops the blanks in front. -/
def dropBlanks (text : List Char) : List Char := text.dropWhile isBlank

/-- Drops the blanks at both ends. -/
def trimBlanks (text : List Char) : List Char := (dropBlanks (dropBlanks text).reverse).reverse

/-- The text without the blanks at its ends. -/
def trimmed (text : String) : String := String.ofList (trimBlanks text.toList)

/-- Whether nothing is left of the text once it is trimmed. -/
def isBlankText (text : String) : Bool := text.toList.all isBlank

end ReadModel
