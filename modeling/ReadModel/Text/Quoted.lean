import ReadModel.Text.Hidden

/-!
Texts in diagnostics.

A quoted text stands between double quotes; quotes, backslashes and control characters are escaped,
and hidden characters are written by their code, so that every text stays readable on one line.
-/

namespace ReadModel

/-- The escaped form of one character inside a quoted text. -/
def quotedChar (c : Char) : List Char :=
  if c.toNat = 0 then ['\\', '0']
  else if c = '\t' then ['\\', 't']
  else if c = '\n' then ['\\', 'n']
  else if c = '\r' then ['\\', 'r']
  else if c = '"' then ['\\', '"']
  else if c = '\\' then ['\\', '\\']
  else if isHidden c then "\\u\x7b".toList ++ Nat.toDigits 16 c.toNat ++ ['\x7d']
  else [c]

/-- The text as diagnostics quote it. -/
def quoted (text : String) : String :=
  String.ofList ('"' :: text.toList.flatMap quotedChar ++ ['"'])

/-- Items between brackets, divided by commas. -/
def bracketed (items : List String) : String :=
  "[" ++ ", ".intercalate items ++ "]"

/-- Texts as diagnostics list them. -/
def quotedList (texts : List String) : String := bracketed (texts.map quoted)

end ReadModel
