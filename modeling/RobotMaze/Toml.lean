/-
Documents.

A document is read in two steps: its lines into statements, and the statements, one
after another, into one table.  Where a statement contradicts an earlier one, there is no
table.
-/
import RobotMaze.Codec
import RobotMaze.Toml.Printer
import RobotMaze.Toml.Statement

namespace RobotMaze.Toml

/-- The document so far, and the table that keys are added to now. -/
structure Draft where
  root : Entries
  /-- The name of the present table; the document itself has none. -/
  here : List String

/-- The draft after one more statement. -/
def Draft.apply (d : Draft) : Statement → Option Draft
  | .table k => (d.root.state k.path k.last).map fun root => ⟨root, k.path ++ [k.last]⟩
  | .element k => (d.root.stateElement k.path k.last).map fun root => ⟨root, k.path ++ [k.last]⟩
  | .assign k v =>
    (Entries.change false (fun _ es => es.addDotted k.path k.last v) d.here .stated d.root).map
      fun root => { d with root }

/-- The table of a list of statements. -/
def assemble? (ss : List Statement) : Option Entries :=
  (ss.foldlM Draft.apply { root := [], here := [] }).map Draft.root

/-- Leaves out the byte order mark that a document may begin with. -/
def dropMark : List Char → List Char
  | '\ufeff' :: cs => cs
  | cs => cs

def read? (s : String) : Option Datum := do
  let ss ← statements? (dropMark s.toList)
  let es ← assemble? ss
  some (.record (fieldsOf es))

/-- The notation in which the program keeps its files. -/
def codec : Codec where
  print? := print?
  read? := read?

end RobotMaze.Toml
