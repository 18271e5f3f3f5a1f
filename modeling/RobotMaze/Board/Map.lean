/-
Maps: boards drawn with one character for each square.

A map is a list of rows, the northern row first.  Blank characters in a row do not
count, and neither do rows that hold nothing else.  `ofRows` reads a map in one pass
and reports the first fault in reading order; a row's length is examined before its
tiles.  What it has read is a description of a board, by its size, its walls, its start
and its goal, and the board is the one that `create` makes of it.
-/
import RobotMaze.Board
import RobotMaze.Text.Align

namespace RobotMaze

/-- What a map shows on one square. -/
inductive Tile where
  | free
  | wall
  | start
  | goal
  /-- Start and goal on the same square. -/
  | startAndGoal
deriving DecidableEq

namespace Tile

def char : Tile → Char
  | free => '.'
  | wall => '#'
  | start => 'S'
  | goal => 'G'
  | startAndGoal => '*'

def ofChar? : Char → Option Tile
  | '.' => some free
  | '#' => some wall
  | 'S' => some start
  | 'G' => some goal
  | '*' => some startAndGoal
  | _ => none

def isStart (t : Tile) : Bool := t == start || t == startAndGoal

def isGoal (t : Tile) : Bool := t == goal || t == startAndGoal

def isWall (t : Tile) : Bool := t == wall

theorem isWall_of_isStart {t : Tile} (h : t.isStart = true) : t.isWall = false := by
  cases t <;> simp_all [isStart, isWall]

theorem isWall_of_isGoal {t : Tile} (h : t.isGoal = true) : t.isWall = false := by
  cases t <;> simp_all [isGoal, isWall]

end Tile

/-- The tile that shows a cell. -/
def Cell.tile (c : Cell) : Tile :=
  match c.wall, c.isStart, c.isGoal with
  | true, _, _ => .wall
  | false, true, true => .startAndGoal
  | false, true, false => .start
  | false, false, true => .goal
  | false, false, false => .free

namespace Board

/-! ### Reading -/

/-- Which marks the tiles read so far have shown. -/
structure Marks where
  start : Bool
  goal : Bool

/-- Takes note of one more tile; a second start or goal is a fault. -/
def Marks.note (m : Marks) (t : Tile) : Except BoardError Marks :=
  if t.isStart && m.start then .error .multipleStarts
  else if t.isGoal && m.goal then .error .multipleGoals
  else .ok { start := m.start || t.isStart, goal := m.goal || t.isGoal }

/-- Reads the tiles of row `y` from column `x` on. -/
def readRow (y : Nat) : Nat → Marks → List Char → Except BoardError (List Tile × Marks)
  | _, m, [] => .ok ([], m)
  | x, m, c :: cs =>
    match Tile.ofChar? c with
    | none => .error (.unknownTile c ⟨x, y⟩)
    | some t =>
      match m.note t with
      | .error e => .error e
      | .ok m =>
        match readRow y (x + 1) m cs with
        | .error e => .error e
        | .ok (ts, m) => .ok (t :: ts, m)

/-- Reads the rows from row `y` on, all of which must have `width` tiles. -/
def readRows (width : Nat) : Nat → Marks → List (List Char) → Except BoardError (List Tile)
  | _, _, [] => .ok []
  | y, m, row :: rows =>
    if row.length ≠ width then .error (.ragged y width row.length)
    else
      match readRow y 0 m row with
      | .error e => .error e
      | .ok (ts, m) =>
        match readRows width (y + 1) m rows with
        | .error e => .error e
        | .ok more => .ok (ts ++ more)

/-- The rows that count, each without its blank characters. -/
def significantRows (rows : List String) : List (List Char) :=
  (rows.map fun r => Text.withoutBlanks r.toList).filter fun r => !r.isEmpty

/-- The squares of the walls among tiles that have been read. -/
def wallsOf (width : Nat) (ts : List Tile) : List Position :=
  (ts.zipIdx.filter fun t => t.1.isWall).map fun t => Terrain.positionAt width t.2

/-- The board that is described by tiles that have been read. -/
def ofTiles (width height : Nat) (ts : List Tile) : Except BoardError Board :=
  match ts.findIdx? Tile.isStart with
  | none => .error .missingStart
  | some s =>
    match ts.findIdx? Tile.isGoal with
    | none => .error .missingGoal
    | some g =>
      create width height (wallsOf width ts) (Terrain.positionAt width s)
        (Terrain.positionAt width g)

def ofRows (rows : List String) : Except BoardError Board :=
  match significantRows rows with
  | [] => .error .empty
  | first :: rest =>
    match readRows first.length 0 { start := false, goal := false } (first :: rest) with
    | .error e => .error e
    | .ok ts => ofTiles first.length (first :: rest).length ts

/-! ### Drawing -/

/-- The tile that shows a position; all that lies outside is wall. -/
def tile (b : Board) (p : Position) : Tile :=
  ((b.cell? p).map Cell.tile).getD .wall

/-- The tiles of the cells of one row, as they are stored. -/
def row (b : Board) (y : Nat) : String :=
  String.ofList ((b.cells.extract (y * b.width) ((y + 1) * b.width)).toList.map fun c =>
    c.tile.char)

/-- The rows of the map, the northern row first. -/
def rows (b : Board) : List String :=
  (List.range b.height).map b.row

def text (b : Board) : String :=
  Text.join "" (b.rows.map fun r => r ++ "\n")

end Board

end RobotMaze
