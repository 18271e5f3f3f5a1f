/-
Compass headings, and the neighbours that a robot can name.

Headings are ordered clockwise; turning right is one step in that order and turning
left is three.  A sense names a neighbour from the robot's own point of view, and
`toward` says which compass direction that is for a given heading.
-/
import RobotMaze.Text.Blank
import RobotMaze.Text.Quoted

namespace RobotMaze

/-- A name that stands for nothing, with the text as it was given. -/
inductive UnknownName where
  | heading (text : String)
  | sense (text : String)
deriving DecidableEq

def UnknownName.message : UnknownName → String
  | heading text => "unknown direction: " ++ Text.quoted text
  | sense text => "unknown sense: " ++ Text.quoted text

/-- A compass direction. -/
inductive Heading where
  | north
  | east
  | south
  | west
deriving DecidableEq, Inhabited

namespace Heading

/-- The four headings, clockwise from north. -/
def all : List Heading := [.north, .east, .south, .west]

/-- The next heading clockwise. -/
def right : Heading → Heading
  | north => east
  | east => south
  | south => west
  | west => north

/-- The next heading counter-clockwise. -/
def left : Heading → Heading
  | north => west
  | east => north
  | south => east
  | west => south

/-- The heading half a turn away. -/
def opposite : Heading → Heading
  | north => south
  | east => west
  | south => north
  | west => east

/-- The name that level files use. -/
def name : Heading → String
  | north => "north"
  | east => "east"
  | south => "south"
  | west => "west"

/-- Every spelling that a person may use, the name itself first. -/
def spellings : Heading → List String
  | north => ["north", "n", "up"]
  | east => ["east", "e"]
  | south => ["south", "s", "down"]
  | west => ["west", "w"]

/-- The heading of a typed name; blanks around it and the case of letters do not count. -/
def ofText (s : String) : Except UnknownName Heading :=
  match all.find? fun h => h.spellings.contains (Text.nameKey s) with
  | some h => .ok h
  | none => .error (.heading s)

theorem right_right_right (h : Heading) : h.right.right.right = h.left := by
  cases h <;> rfl

theorem right_right (h : Heading) : h.right.right = h.opposite := by
  cases h <;> rfl

theorem opposite_opposite (h : Heading) : h.opposite.opposite = h := by
  cases h <;> rfl

theorem left_ne (h : Heading) : h.left ≠ h := by
  cases h <;> simp [left]

theorem right_ne (h : Heading) : h.right ≠ h := by
  cases h <;> simp [right]

end Heading

/-- A neighbouring square, named from the robot's own point of view. -/
inductive Sense where
  | ahead
  | left
  | right
deriving DecidableEq, Inhabited

namespace Sense

/-- The three senses, in the order in which they are listed. -/
def all : List Sense := [.ahead, .left, .right]

def name : Sense → String
  | ahead => "ahead"
  | left => "left"
  | right => "right"

def spellings : Sense → List String
  | ahead => ["ahead", "front"]
  | left => ["left"]
  | right => ["right"]

def ofText (s : String) : Except UnknownName Sense :=
  match all.find? fun d => d.spellings.contains (Text.nameKey s) with
  | some d => .ok d
  | none => .error (.sense s)

end Sense

/-- The compass direction of a sense for a robot with this heading. -/
def Heading.toward (h : Heading) : Sense → Heading
  | .ahead => h
  | .left => h.left
  | .right => h.right

end RobotMaze
