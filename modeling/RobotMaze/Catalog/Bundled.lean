/-
The levels that come with the program, easiest first.
-/
import RobotMaze.Catalog

namespace RobotMaze.Catalog

def bundledDefinitions : List Level.Definition := [
  { name := "First steps"
    map := ["G", ".", ".", "S"]
    facing := .north
    instructions := [.moveForward]
    maxInstructions := 4
    solution := some "forward forward forward" },
  { name := "Around the corner"
    map := ["S..", "##.", "..G"]
    facing := .east
    instructions := [.moveForward, .turnRight]
    maxInstructions := 6
    solution := some "forward forward right forward forward" },
  { name := "Left then right"
    map := ["..G", ".##", "S.."]
    facing := .east
    instructions := [.moveForward, .turnLeft, .turnRight]
    maxInstructions := 7
    solution := some "left forward forward right forward forward" },
  { name := "Feel the wall"
    map := ["S.#", "#.G"]
    facing := .east
    instructions := [.moveForward, .turnLeft, .turnRight, .conditionalWall]
    maxInstructions := 6
    solution := some "forward if-wall-ahead:right forward if-wall-ahead:left forward" },
  { name := "Look both ways"
    map := ["G.#", "#.#", "..S"]
    facing := .west
    instructions := [.moveForward, .turnLeft, .turnRight, .conditionalWall]
    maxInstructions := 6
    solution := some "forward right forward forward if-wall-right:left forward" }]

/-- The bundled levels. -/
def bundled : Catalog :=
  match ofDefinitions bundledDefinitions with
  | .ok c => c
  | .error _ => { levels := [] }

theorem ofDefinitions_bundledDefinitions : ofDefinitions bundledDefinitions = .ok bundled := by
  have h : (ofDefinitions bundledDefinitions).isOk = true := by decide +kernel
  unfold bundled
  split
  · assumption
  · next e he =>
    rw [he] at h
    simp [Except.isOk, Except.toBool] at h

end RobotMaze.Catalog
