/-
The commands of a robot program.

An action moves or turns the robot.  A command is an action, or an action that is taken
only if a wall stands on a sensed square.  The body of a conditional is an action and
not a command, so conditionals do not nest.  Kinds classify commands for the palette of
a level, which says what a program for it may use.
-/
import RobotMaze.Heading

namespace RobotMaze

inductive Action where
  /-- Go one square ahead; a wall or the edge of the board blocks it. -/
  | forward
  | left
  | right
deriving DecidableEq, Inhabited

/-- One step of a program. -/
inductive Command where
  | act (action : Action)
  /-- Do this only if the sensed square is a wall or off the board. -/
  | ifWall (sense : Sense) (body : Action)
deriving DecidableEq, Inhabited

/-- The commands of a robot, in the order in which it carries them out. -/
abbrev Program := List Command

/-- The families of commands that a level can offer. -/
inductive Kind where
  | moveForward
  | turnLeft
  | turnRight
  | conditionalWall
deriving DecidableEq, Inhabited

namespace Kind

/-- The four kinds, in the order in which palettes list them. -/
def all : List Kind := [.moveForward, .turnLeft, .turnRight, .conditionalWall]

/-- The name that level files use. -/
def name : Kind → String
  | moveForward => "move_forward"
  | turnLeft => "turn_left"
  | turnRight => "turn_right"
  | conditionalWall => "conditional_wall"

end Kind

namespace Action

def all : List Action := [.forward, .left, .right]

def kind : Action → Kind
  | forward => .moveForward
  | left => .turnLeft
  | right => .turnRight

/-- The word for an action in a program text. -/
def word : Action → String
  | forward => "forward"
  | left => "left"
  | right => "right"

/-- Every spelling that a person may use, the word itself first. -/
def spellings : Action → List String
  | forward => ["forward", "f", "move", "move_forward"]
  | left => ["left", "l", "turn_left"]
  | right => ["right", "r", "turn_right"]

/-- The action of a typed word; blanks around it and the case of letters do not count. -/
def ofText? (s : String) : Option Action :=
  all.find? fun a => a.spellings.contains (Text.nameKey s)

end Action

namespace Command

def kind : Command → Kind
  | act a => a.kind
  | ifWall _ _ => .conditionalWall

/-- Every kind that a palette must offer for the command: its own, then its body's. -/
def required : Command → List Kind
  | act a => [a.kind]
  | ifWall _ a => [.conditionalWall, a.kind]

/-- The action that a command carries out when it does anything. -/
def action : Command → Action
  | act a => a
  | ifWall _ a => a

end Command

/-- The set of kinds that a level offers. -/
@[ext]
structure Palette where
  moveForward : Bool
  turnLeft : Bool
  turnRight : Bool
  conditionalWall : Bool
deriving DecidableEq, Inhabited

namespace Palette

def allows (p : Palette) : Kind → Bool
  | .moveForward => p.moveForward
  | .turnLeft => p.turnLeft
  | .turnRight => p.turnRight
  | .conditionalWall => p.conditionalWall

/-- The palette that offers the listed kinds; their order and repetitions do not count. -/
def ofKinds (ks : List Kind) : Palette where
  moveForward := ks.contains .moveForward
  turnLeft := ks.contains .turnLeft
  turnRight := ks.contains .turnRight
  conditionalWall := ks.contains .conditionalWall

/-- The kinds on the palette, in the order of `Kind.all`. -/
def kinds (p : Palette) : List Kind :=
  Kind.all.filter p.allows

def isEmpty (p : Palette) : Bool :=
  p.kinds.isEmpty

theorem allows_ofKinds (ks : List Kind) (k : Kind) : (ofKinds ks).allows k = ks.contains k := by
  cases k <;> rfl

theorem mem_kinds {p : Palette} {k : Kind} : k ∈ p.kinds ↔ p.allows k = true := by
  cases k <;> simp [kinds, Kind.all]

end Palette

end RobotMaze
