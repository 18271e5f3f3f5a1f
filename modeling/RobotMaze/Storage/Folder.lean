/-
Folders in memory.

A folder is given by the files in it and below it.  Looking a path up follows its parts
one after another, as a file system does: every part but the last has to lead to a
folder that exists, even if the next part leads back out of it.
-/
import RobotMaze.Storage

namespace RobotMaze

/-- A folder, given by its files; each has the names that lead to it, and its bytes. -/
structure Folder where
  files : List (List String × ByteArray)

namespace Folder

/-- Where a path has led so far. -/
inductive Place where
  | inside (names : List String)
  /-- A folder that this one lies in, or the root. -/
  | outside
  | file (bytes : ByteArray)

/-- Whether some file lies below a folder. -/
def hasFolder (f : Folder) (names : List String) : Bool :=
  f.files.any fun file => names.isPrefixOf file.1 && names.length < file.1.length

/-- Goes on by one part of a path. -/
def step (f : Folder) (place : Place) (part : String) : Except FileFault Place :=
  match place with
  | .file _ => .error .notFolder
  | .outside => if part == "" || part == "." || part == ".." then .ok .outside else .error .missing
  | .inside names =>
    if part == "" || part == "." then .ok place
    else if part == ".." then
      if names.isEmpty then .ok .outside else .ok (.inside names.dropLast)
    else
      let next := names ++ [part]
      match f.files.find? fun file => file.1 == next with
      | some file => .ok (.file file.2)
      | none => if f.hasFolder next then .ok (.inside next) else .error .missing

def read (f : Folder) (path : String) : Except FileFault String :=
  if path.toList.contains '\x00' then .error .badName
  else if path.isEmpty then .error .missing
  else
    let parts := (path.toList.splitOn '/').map String.ofList
    let origin := if Path.isAbsolute path then Place.outside else .inside []
    match parts.foldlM f.step origin with
    | .error e => .error e
    | .ok (.file bytes) =>
      match String.fromUTF8? bytes with
      | some text => .ok text
      | none => .error .notText
    | .ok _ => .error .isFolder

end Folder

end RobotMaze
