/-
Texts in quotation marks, as messages show them.

A quoted text is unambiguous to the eye: the mark itself and the backslash are
escaped, five controls have short escapes, and every character that would not be seen,
or would be seen as part of its neighbour, is written by its number.
-/
import RobotMaze.Text.Extender
import RobotMaze.Text.Unprintable

namespace RobotMaze.Text

/-- Whether a code point lies in one of the closed ranges of a table that ascends. -/
def inRanges (table : Array (Nat × Nat)) (n : Nat) : Bool :=
  table.any fun r => r.1 ≤ n && n ≤ r.2

/-- Whether a character is written by its number between quotation marks. -/
def isHidden (c : Char) : Bool :=
  let n := c.toNat
  if n < 0x7F then n < 0x20 else inRanges extenderRanges n || inRanges unprintableRanges n

/-- One character between quotation marks of the kind `mark`. -/
def escaped (mark c : Char) : List Char :=
  if c = mark || c = '\\' then ['\\', c]
  else if c = '\t' then ['\\', 't']
  else if c = '\n' then ['\\', 'n']
  else if c = '\r' then ['\\', 'r']
  else if c.toNat = 0 then ['\\', '0']
  else if isHidden c then ['\\', 'u', '\x7b'] ++ Nat.toDigits 16 c.toNat ++ ['\x7d']
  else [c]

/-- A text in double quotation marks. -/
def quoted (s : String) : String :=
  String.ofList ('"' :: s.toList.flatMap (escaped '"') ++ ['"'])

def quotedChar (c : Char) : String :=
  String.ofList ('\'' :: escaped '\'' c ++ ['\''])

end RobotMaze.Text
