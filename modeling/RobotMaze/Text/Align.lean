/-
Columns of fixed width.

Widths count characters; a text that is already wide enough is left as it is.
-/
namespace RobotMaze.Text

/-- The text followed by spaces up to `width` characters. -/
def padRight (width : Nat) (s : String) : String :=
  String.ofList (s.toList ++ List.replicate (width - s.toList.length) ' ')

/-- Spaces up to `width` characters, followed by the text. -/
def padLeft (width : Nat) (s : String) : String :=
  String.ofList (List.replicate (width - s.toList.length) ' ' ++ s.toList)

/-- The texts one after another, with `between` between neighbours. -/
def join (between : String) (parts : List String) : String :=
  between.intercalate parts

end RobotMaze.Text
