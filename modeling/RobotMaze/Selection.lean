/-
What to run: choosing a level and the program for it.

A selector that reads as a number is the number of a level and nothing else; any other
selector is a name.  A program is either the level's own recommended one or the words
that were given, and is held against the rules of the level unless that is waived.
-/
import RobotMaze.Catalog
import RobotMaze.LogFilter
import RobotMaze.Settings.Document

namespace RobotMaze

/-- Why nothing can be run. -/
inductive SelectionError where
  | noSuchIndex (index count : Nat)
  | noSuchName (name : String)
  | noSolution (level : String)
  | unreadable (cause : ProgramError)
  | rejected (level : String) (cause : ProgramError)
  | settings (path : String) (cause : SettingsError)
  | catalog (path : String) (cause : CatalogError)
deriving DecidableEq

namespace SelectionError

/-- The message for a person, and the causes behind it down to the deepest. -/
def chain : SelectionError → List String
  | noSuchIndex index count =>
    ["level " ++ Text.ofNat index ++ " does not exist (" ++ Text.ofNat count ++ " levels)"]
  | noSuchName name => ["no level named " ++ Text.quoted name]
  | noSolution level => ["level " ++ Text.quoted level ++ " has no reference solution"]
  | unreadable cause => [cause.message]
  | rejected level cause =>
    ["program rejected by level " ++ Text.quoted level, cause.message]
  | settings path cause => ("failed to load config " ++ path) :: cause.message :: cause.causes
  | catalog path cause => ("failed to load catalog " ++ path) :: cause.message :: cause.causes

/-- The fault of a program that is behind the error, if there is one. -/
def programError? : SelectionError → Option ProgramError
  | unreadable cause => some cause
  | rejected _ cause => some cause
  | catalog _ (.level _ _ (.solution cause)) => some cause
  | _ => none

end SelectionError

/-- The level that a selector chooses. -/
def Catalog.select (c : Catalog) (selector : String) : Except SelectionError Level :=
  match Text.readIndex? selector with
  | some index =>
    match c.get? index with
    | some l => .ok l
    | none => .error (.noSuchIndex index c.levels.length)
  | none =>
    match c.find? selector with
    | some (_, l) => .ok l
    | none => .error (.noSuchName selector)

/-- Where a program comes from. -/
inductive ProgramSource where
  | solution
  /-- It was given in pieces, each of which may hold several words. -/
  | tokens (pieces : List String)
deriving DecidableEq

namespace Level

/-- The program of a source, not yet held against the rules. -/
def programOf (l : Level) : ProgramSource → Except SelectionError Program
  | .solution =>
    match l.solution with
    | some p => .ok p
    | none => .error (.noSolution l.name)
  | .tokens pieces =>
    match Program.ofText (Text.join " " pieces) with
    | .ok p => .ok p
    | .error e => .error (.unreadable e)

/-- The program to run; `checked` says whether it has to keep to the rules of the level. -/
def prepare (l : Level) (source : ProgramSource) (checked : Bool) :
    Except SelectionError Program :=
  match l.programOf source with
  | .error e => .error e
  | .ok p =>
    if checked then
      match l.check p with
      | .ok () => .ok p
      | .error e => .error (.rejected l.name e)
    else .ok p

end Level

end RobotMaze
