/-
Squares, and where a robot stands on them.

A position is a pair of integers, a column that grows to the east and a row that grows
to the south, so the first row of a map is its northern edge.  Positions are not tied
to a board: the square that a robot looks at may lie outside of it.
-/
import RobotMaze.Heading
import RobotMaze.Text.Decimal

namespace RobotMaze

/-- A square, on a board or outside of it. -/
@[ext]
structure Position where
  /-- The column, growing to the east. -/
  x : Int
  /-- The row, growing to the south. -/
  y : Int
deriving DecidableEq, Inhabited

/-- The displacement of one step: north is up, and rows grow downwards. -/
def Heading.delta : Heading → Position
  | .north => ⟨0, -1⟩
  | .east => ⟨1, 0⟩
  | .south => ⟨0, 1⟩
  | .west => ⟨-1, 0⟩

namespace Position

def add (p q : Position) : Position := ⟨p.x + q.x, p.y + q.y⟩

instance : Add Position := ⟨add⟩

/-- The adjacent square in a compass direction. -/
def step (p : Position) (h : Heading) : Position := p + h.delta

def text (p : Position) : String :=
  "(" ++ Text.ofInt p.x ++ ", " ++ Text.ofInt p.y ++ ")"

@[simp] theorem add_x (p q : Position) : (p + q).x = p.x + q.x := rfl

@[simp] theorem add_y (p q : Position) : (p + q).y = p.y + q.y := rfl

end Position

/-- Where the robot stands and which way it faces. -/
@[ext]
structure Pose where
  position : Position
  heading : Heading
deriving DecidableEq, Inhabited

namespace Pose

/-- The adjacent square in a compass direction, whichever way the robot faces. -/
def neighbour (p : Pose) (h : Heading) : Position := p.position.step h

/-- The square in front of the robot. -/
def ahead (p : Pose) : Position := p.neighbour p.heading

/-- The square that a sense looks at. -/
def sensed (p : Pose) (s : Sense) : Position := p.neighbour (p.heading.toward s)

def movedTo (p : Pose) (q : Position) : Pose := { p with position := q }

def turnedTo (p : Pose) (h : Heading) : Pose := { p with heading := h }

def text (p : Pose) : String :=
  p.position.text ++ " facing " ++ p.heading.name

end Pose

end RobotMaze
