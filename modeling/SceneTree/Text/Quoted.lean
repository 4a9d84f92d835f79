import SceneTree.Text.Glyph

/-!
# Quoted texts

A text between quotation marks, on one line and readable: a backslash
stands before a quotation mark and a backslash, the common control
characters have a letter, and whatever else does not print, or would stick
to the character before it, is written by its number.
-/

namespace SceneTree.Quoted

/-- The digits of a number to base sixteen, in lower case. -/
def hexDigits (n : Nat) : List Char := Nat.toDigits 16 n

/-- One character as it stands between the marks. -/
def escape (c : Char) : List Char :=
  if c = '\x00' then ['\\', '0']
  else if c = '\t' then ['\\', 't']
  else if c = '\n' then ['\\', 'n']
  else if c = '\r' then ['\\', 'r']
  else if c = '"' ∨ c = '\\' then ['\\', c]
  else if Glyph.isExtending c || !Glyph.isPrintable c then
    ['\\', 'u', '\x7b'] ++ hexDigits c.toNat ++ ['\x7d']
  else [c]

/-- The text between quotation marks. -/
def quote (s : String) : String :=
  String.ofList (['"'] ++ s.toList.flatMap escape ++ ['"'])

/-- Quoted texts in brackets, separated by a comma and a space. -/
def quoteAll (ss : List String) : String := "[" ++ ", ".intercalate (ss.map quote) ++ "]"

end SceneTree.Quoted
