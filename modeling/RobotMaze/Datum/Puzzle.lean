/-
The written forms of puzzles: headings, commands, boards, levels and their definitions.

A board is written as its map and a level as its definition, so reading them examines
them; a definition by itself is read as it stands.
-/
import RobotMaze.Datum
import RobotMaze.Level

namespace RobotMaze

open Datum Form

instance : Form Heading where
  write h := .text h.name
  read? f := choice? f Heading.all Heading.name

instance : Form Sense where
  write s := .text s.name
  read? f := choice? f Sense.all Sense.name

instance : Form Kind where
  write k := .text k.name
  read? f := choice? f Kind.all Kind.name

/-- An action is written as the name of its kind. -/
instance : Form Action where
  write a := .text a.kind.name
  read? f := choice? f Action.all fun a => a.kind.name

namespace Command

/-- The field that says which command a record is. -/
def tag : String := "op"

/-- The other fields of a conditional. -/
def conditionalFields : List String := ["sense", "then"]

/-- Reads what stands beside the tag of a command. -/
def ofTagged? (op : String) (content : Datum) : Option Command :=
  match Action.all.find? fun a => a.kind.name == op with
  | some a =>
    match content with
    | .record _ => some (.act a)
    | .list [] => some (.act a)
    | _ => none
  | none =>
    if op == Kind.conditionalWall.name then do
      let field ← content.fields? .tagged conditionalFields
      let sense ← required? .tagged (field "sense")
      let body ← required? .tagged (field "then")
      some (.ifWall sense body)
    else none

end Command

/-- A command is a record with a tag, or a list that begins with the tag. -/
instance : Form Command where
  write
    | .act a => .record [(Command.tag, write a)]
    | .ifWall s a =>
      .record [(Command.tag, write Kind.conditionalWall), ("sense", write s), ("then", write a)]
  read? _
    | .record fs =>
      match List.lookup Command.tag fs with
      | some (.text op) => Command.ofTagged? op (.record (fs.filter fun p => p.1 != Command.tag))
      | _ => none
    | .list (.text op :: rest) => Command.ofTagged? op (.list rest)
    | _ => none

/-- A position is the list of its two coordinates. -/
instance : Form Position where
  write p := .list [write p.x, write p.y]
  read? f
    | .list (x :: y :: rest) =>
      if rest.isEmpty || f.surplus then do some ⟨← read? f x, ← read? f y⟩ else none
    | _ => none

instance : Form Pose where
  write p := .record [("position", write p.position), ("direction", write p.heading)]
  read? f d := do
    let field ← d.fields? f ["position", "direction"]
    some ⟨← required? f (field "position"), ← required? f (field "direction")⟩

instance : Form Cell where
  write c := .record [("x", write c.position.x), ("y", write c.position.y),
    ("wall", write c.wall), ("is_goal", write c.isGoal), ("is_start", write c.isStart)]
  read? f d := do
    let field ← d.fields? f ["x", "y", "wall", "is_goal", "is_start"]
    let x ← required? f (field "x")
    let y ← required? f (field "y")
    let wall ← required? f (field "wall")
    let isGoal ← required? f (field "is_goal")
    let isStart ← required? f (field "is_start")
    some { position := ⟨x, y⟩, wall, isGoal, isStart }

/-- A board is written as its map. -/
instance : Form Board where
  write b := write b.rows
  read? f d := do
    let rows ← read? (α := List String) f d
    (Board.ofRows rows).toOption

namespace Level.Definition

def fieldNames : List String :=
  ["name", "map", "facing", "instructions", "max_instructions", "solution"]

end Level.Definition

/-- A definition is written with all of its fields, except for a solution that is not there. -/
instance : Form Level.Definition where
  write d := .record <|
    [("name", write d.name), ("map", write d.map), ("facing", write d.facing),
      ("instructions", write d.instructions), ("max_instructions", write d.maxInstructions)]
    ++ match d.solution with
      | none => []
      | some words => [("solution", write words)]
  read? f d := do
    let field ← d.fields? f Level.Definition.fieldNames
    let name ← required? f (field "name")
    let map ← required? f (field "map")
    let facing ← optional? f .north (field "facing")
    let instructions ← optional? f Kind.all (field "instructions")
    let maxInstructions ← optional? f 10 (field "max_instructions")
    let solution ← optional? f none (field "solution")
    some { name, map, facing, instructions, maxInstructions, solution }

/-- A level is written as its definition. -/
instance : Form Level where
  write l := write l.definition
  read? f d := do
    let definition ← read? f d
    (Level.ofDefinition definition).toOption

end RobotMaze
