/-
Catalogs: lists of levels that are played in order.

A catalog holds at least one level.  It is written as a document with a list of tables,
each of them the definition of a level.  Reading such a document reads all definitions
first, then makes them into levels in order, and stops at the first that is wrong.
-/
import RobotMaze.Codec
import RobotMaze.Datum.Puzzle
import RobotMaze.Event
import RobotMaze.Storage

namespace RobotMaze

/-- Levels in the order in which they are played. -/
structure Catalog where
  levels : List Level
deriving DecidableEq

/-- Why there is no catalog. -/
inductive CatalogError where
  | file (fault : FileFault)
  /-- The text is no document, or not one of definitions. -/
  | notDefinitions
  | level (index : Nat) (name : String) (cause : LevelError)
  | empty
deriving DecidableEq

namespace CatalogError

def message : CatalogError → String
  | file fault => "IO error: " ++ fault.message
  | notDefinitions => "TOML error: " ++ Codec.faultText
  | level index name cause =>
    "level " ++ Text.ofNat index ++ " (" ++ Text.quoted name ++ "): " ++ cause.message
  | empty => "catalog contains no levels"

/-- The causes behind the message, from the nearest to the deepest. -/
def causes : CatalogError → List String
  | file fault => [fault.message]
  | notDefinitions => [Codec.faultText]
  | level _ _ cause =>
    match cause with
    | .solution inner => [cause.message, inner.message]
    | _ => [cause.message]
  | empty => []

end CatalogError

namespace Catalog

def create (levels : List Level) : Except CatalogError Catalog :=
  if levels.isEmpty then .error .empty else .ok { levels }

/-- Makes definitions into levels, the first of which has the number `index`. -/
def levelsOf (index : Nat) : List Level.Definition → Except CatalogError (List Level)
  | [] => .ok []
  | d :: ds =>
    match Level.ofDefinition d with
    | .error e => .error (.level index d.name e)
    | .ok l =>
      match levelsOf (index + 1) ds with
      | .error e => .error e
      | .ok ls => .ok (l :: ls)

def ofDefinitions (ds : List Level.Definition) : Except CatalogError Catalog :=
  match levelsOf 0 ds with
  | .error e => .error e
  | .ok ls => create ls

/-- The definitions that a document holds. -/
def definitions? (d : Datum) : Option (List Level.Definition) := do
  let field ← d.fields? .toml ["levels"]
  Form.required? .toml (field "levels")

def ofText (codec : Codec) (s : String) : Except CatalogError Catalog :=
  match (codec.read? s).bind definitions? with
  | none => .error .notDefinitions
  | some ds => ofDefinitions ds

/-- Reads a catalog from a file by means of `read`. -/
def load {m : Type → Type} [Monad m] (codec : Codec)
    (read : String → m (Except FileFault String)) (path : String) :
    m (Except CatalogError Catalog × List Event) := do
  match ← read path with
  | .error fault => pure (.error (.file fault), [])
  | .ok text =>
    match ofText codec text with
    | .error e => pure (.error e, [])
    | .ok c => pure (.ok c, [.catalogLoaded path c.levels.length])

def datum (c : Catalog) : Datum :=
  .record [("levels", Form.write (c.levels.map Level.definition))]

/-- The text of the document of a catalog, if its notation has one. -/
def text? (c : Catalog) (codec : Codec) : Option String :=
  codec.print? c.datum

def get? (c : Catalog) (index : Nat) : Option Level :=
  c.levels[index]?

/-- The first level with a name, and its number; the case of ASCII letters does not count. -/
def find? (c : Catalog) (name : String) : Option (Nat × Level) :=
  (c.levels.zipIdx.find? fun l => Text.sameLetters l.1.name name).map fun l => (l.2, l.1)

end Catalog

end RobotMaze
