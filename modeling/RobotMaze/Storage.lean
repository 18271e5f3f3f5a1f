/-
Files as the program sees them.

A file is looked up by the text of its path and either gives its text or fails for one
of a few reasons.  `Path` computes with the text of paths alone; nothing is looked up.
-/
namespace RobotMaze

/-- Why a file cannot be read. -/
inductive FileFault where
  | missing
  | isFolder
  /-- The path goes on after a file. -/
  | notFolder
  /-- What the file holds is no text. -/
  | notText
  /-- The path holds a character that no name can have. -/
  | badName
  | other (reason : String)
deriving DecidableEq

def FileFault.message : FileFault → String
  | missing => "No such file or directory (os error 2)"
  | isFolder => "Is a directory (os error 21)"
  | notFolder => "Not a directory (os error 20)"
  | notText => "stream did not contain valid UTF-8"
  | badName => "file name contained an unexpected NUL byte"
  | other reason => reason

namespace Path

def isAbsolute (path : String) : Bool :=
  path.toList.head? == some '/'

/-- Whether a part of a path leads nowhere else. -/
def isIdle (part : List Char) : Bool :=
  part.isEmpty || part == ['.']

/-- Splits off what a path begins with before its parts: the root or the present folder. -/
def splitBase : List Char → List Char × List Char
  | '/' :: cs => (['/'], cs)
  | ['.'] => (['.'], [])
  | '.' :: '/' :: cs => (['.'], '/' :: cs)
  | cs => ([], cs)

/-- The folder that a path lies in: the path without its last part and without the idle
parts before it.  The root and the empty path lie in no folder. -/
def parent? (path : String) : Option String :=
  let (base, body) := splitBase path.toList
  match (body.splitOn '/').reverse.dropWhile isIdle with
  | _ :: before =>
    some (String.ofList (base ++ ['/'].intercalate (before.dropWhile isIdle).reverse))
  | [] => if base == ['.'] then some "" else none

/-- The path that leads from a folder to what `path` names.  An absolute path stays as it
is, and one in the empty folder does too. -/
def join (folder path : String) : String :=
  if isAbsolute path || folder.isEmpty then path
  else if folder.toList.getLast? == some '/' then folder ++ path
  else folder ++ "/" ++ path

end Path

end RobotMaze
