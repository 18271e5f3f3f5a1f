/-
Levels.

A level is a board with a heading for the robot to set out with, the palette of kinds
that a program may use, a cap on its length and, if its author gave one, a program that
solves it.  Running a program never looks at palette and cap; `check` is the separate
question whether a program keeps to them.
-/
import RobotMaze.Board.Map
import RobotMaze.Command.Text

namespace RobotMaze

/-- One puzzle. -/
@[ext]
structure Level where
  name : String
  board : Board
  facing : Heading
  /-- The kinds that programs may use. -/
  palette : Palette
  cap : Nat
  /-- A program that the author recommends. -/
  solution : Option Program
deriving DecidableEq

/-- Why there is no level. -/
inductive LevelError where
  | map (cause : BoardError)
  | noInstructions
  /-- The recommended program cannot be read or breaks the level's own rules. -/
  | solution (cause : ProgramError)
deriving DecidableEq

def LevelError.message : LevelError → String
  | map cause => cause.message
  | noInstructions => "level enables no instruction kinds"
  | solution cause => "bad reference solution: " ++ cause.message

namespace Level

def start (l : Level) : Pose :=
  { position := l.board.start, heading := l.facing }

def goal (l : Level) : Position :=
  l.board.goal

/-- The first command that needs a kind off the palette, and the first such kind. -/
def firstMissing (palette : Palette) (p : Program) : Option (Nat × Kind) :=
  p.zipIdx.findSome? fun c =>
    (c.1.required.find? fun k => !palette.allows k).map fun k => (c.2, k)

/-- Whether a program keeps to the cap and the palette; the cap is examined first. -/
def check (l : Level) (p : Program) : Except ProgramError Unit :=
  if p.length > l.cap then .error (.tooLong p.length l.cap)
  else
    match firstMissing l.palette p with
    | some (index, kind) => .error (.unsupported index kind)
    | none => .ok ()

/-- A level on a board, without a recommended program.  The palette may not be empty. -/
def create (name : String) (board : Board) (facing : Heading) (kinds : List Kind) (cap : Nat) :
    Except LevelError Level :=
  let palette := Palette.ofKinds kinds
  if palette.isEmpty then .error .noInstructions
  else .ok { name, board, facing, palette, cap, solution := none }

/-- Recommends a program, which must keep to the level's own rules. -/
def withSolution (l : Level) (p : Program) : Except LevelError Level :=
  match l.check p with
  | .ok () => .ok { l with solution := some p }
  | .error e => .error (.solution e)

/-! ### The written form -/

/-- A level as its author writes it down, not yet examined. -/
structure Definition where
  name : String
  /-- The rows of the map. -/
  map : List String
  facing : Heading := .north
  /-- The kinds that programs may use, in any order. -/
  instructions : List Kind := Kind.all
  maxInstructions : Nat := 10
  /-- The text of a recommended program. -/
  solution : Option String := none
deriving DecidableEq

/-- The level of a definition.  The map is examined first, then the palette, then the
recommended program. -/
def ofDefinition (d : Definition) : Except LevelError Level :=
  match Board.ofRows d.map with
  | .error e => .error (.map e)
  | .ok board =>
    match create d.name board d.facing d.instructions d.maxInstructions with
    | .error e => .error e
    | .ok level =>
      match d.solution with
      | none => .ok level
      | some text =>
        match Program.ofText text with
        | .error e => .error (.solution e)
        | .ok program => level.withSolution program

/-- The definition of a level, in its normal form. -/
def definition (l : Level) : Definition where
  name := l.name
  map := l.board.rows
  facing := l.facing
  instructions := l.palette.kinds
  maxInstructions := l.cap
  solution := l.solution.map Program.text

end Level

end RobotMaze
