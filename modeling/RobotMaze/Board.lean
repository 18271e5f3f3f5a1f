/-
Boards.

A terrain is a rectangle of squares, some of them walls.  What stands on a square is its
cell, and cells are stored row by row from the north-west corner.  Everything outside
the rectangle counts as wall, so moving and sensing need no separate rule for the edge.
A board is a terrain with a start and a goal, both of them free squares and both marked
in their cells; the type carries that, and `create` is the way to get a board from a
description that may be wrong.

A terrain is made by writing: all cells are blank at first, and then one write after
another changes a single cell.  `cell?_change` says what can be read after a write, and
everything else about written cells follows from it.
-/
import RobotMaze.Pose
import RobotMaze.Text.Quoted

namespace RobotMaze

/-- What is known of one square; a blank cell has nothing but its position. -/
structure Cell where
  position : Position
  wall : Bool := false
  isGoal : Bool := false
  isStart : Bool := false
deriving DecidableEq

/-- The position of the square that is stored at an index. -/
def Terrain.positionAt (width i : Nat) : Position :=
  ⟨(i % width : Nat), (i / width : Nat)⟩

/-- A rectangle of squares, row after row. -/
@[ext]
structure Terrain where
  width : Nat
  height : Nat
  /-- The cell of each square, the first row first. -/
  cells : Array Cell
  /-- There is one cell for each square. -/
  size_cells : cells.size = width * height
  /-- A cell is stored in the place of its square. -/
  position_cells : ∀ (i : Nat) (hi : i < cells.size),
    cells[i].position = Terrain.positionAt width i
deriving DecidableEq

namespace Terrain

/-- Whether a position lies inside a rectangle of this size. -/
def inside (width height : Nat) (p : Position) : Bool :=
  decide (0 ≤ p.x ∧ p.x < width ∧ 0 ≤ p.y ∧ p.y < height)

def contains (t : Terrain) (p : Position) : Bool :=
  inside t.width t.height p

/-- Where the square at a position is stored. -/
def index (t : Terrain) (p : Position) : Nat :=
  p.y.toNat * t.width + p.x.toNat

variable {t : Terrain} {p : Position}

theorem contains_iff :
    t.contains p = true ↔ 0 ≤ p.x ∧ p.x < t.width ∧ 0 ≤ p.y ∧ p.y < t.height := by
  simp [contains, inside]

theorem index_lt (h : t.contains p = true) : t.index p < t.cells.size := by
  obtain ⟨hx, hw, hy, hh⟩ := contains_iff.1 h
  have hxw : p.x.toNat < t.width := by omega
  have hyh : p.y.toNat + 1 ≤ t.height := by omega
  have hmul : (p.y.toNat + 1) * t.width ≤ t.height * t.width := Nat.mul_le_mul_right _ hyh
  rw [t.size_cells, Nat.mul_comm t.width t.height]
  rw [Nat.add_mul, Nat.one_mul] at hmul
  unfold index
  omega

/-- What stands on the square at a position; nothing outside the terrain. -/
def cell? (t : Terrain) (p : Position) : Option Cell :=
  if h : t.contains p = true then
    have := index_lt h
    some t.cells[t.index p]
  else none

/-- Whether a position is a wall; every position outside the rectangle is one. -/
def isWall (t : Terrain) (p : Position) : Bool :=
  (t.cell? p).all Cell.wall

/-! ### Positions and indices -/

theorem inside_positionAt {width height i : Nat} (h : i < width * height) :
    inside width height (positionAt width i) = true := by
  have hw : 0 < width := by
    rcases Nat.eq_zero_or_pos width with h0 | h0
    · simp [h0] at h
    · exact h0
  have hm := Nat.mod_lt i hw
  have hd : i / width < height := Nat.div_lt_of_lt_mul h
  exact decide_eq_true
    ⟨Int.natCast_nonneg _, Int.ofNat_lt.2 hm, Int.natCast_nonneg _, Int.ofNat_lt.2 hd⟩

theorem contains_positionAt {i : Nat} (h : i < t.width * t.height) :
    t.contains (positionAt t.width i) = true :=
  inside_positionAt h

theorem index_positionAt (t : Terrain) (i : Nat) : t.index (positionAt t.width i) = i := by
  simp only [index, positionAt, Int.toNat_natCast]
  rw [Nat.mul_comm]
  exact Nat.div_add_mod i t.width

theorem positionAt_index (h : t.contains p = true) : positionAt t.width (t.index p) = p := by
  obtain ⟨hx, hw, hy, -⟩ := contains_iff.1 h
  have hxw : p.x.toNat < t.width := by omega
  have hmod : (p.y.toNat * t.width + p.x.toNat) % t.width = p.x.toNat := by
    rw [Nat.mul_comm, Nat.mul_add_mod, Nat.mod_eq_of_lt hxw]
  have hdiv : (p.y.toNat * t.width + p.x.toNat) / t.width = p.y.toNat := by
    rw [Nat.mul_comm, Nat.mul_add_div (Nat.zero_lt_of_lt hxw), Nat.div_eq_of_lt hxw, Nat.add_zero]
  ext
  · simp only [positionAt, index, hmod]
    exact Int.toNat_of_nonneg hx
  · simp only [positionAt, index, hdiv]
    exact Int.toNat_of_nonneg hy

/-- Two squares of a terrain are stored in different places. -/
theorem index_eq_iff {q : Position} (hp : t.contains p = true) (hq : t.contains q = true) :
    t.index p = t.index q ↔ p = q := by
  constructor
  · intro h
    rw [← positionAt_index hp, h, positionAt_index hq]
  · intro h
    rw [h]

/-- Of all squares of a terrain one is at a given position. -/
theorem countP_positionAt (h : t.contains p = true) :
    ((List.range (t.width * t.height)).countP fun i => positionAt t.width i == p) = 1 := by
  have hindex : ∀ i ∈ List.range (t.width * t.height),
      ((positionAt t.width i == p) = true ↔ (i == t.index p) = true) := by
    intro i _
    rw [beq_iff_eq, beq_iff_eq]
    constructor
    · intro hp
      rw [← hp, index_positionAt]
    · intro hi
      rw [hi, positionAt_index h]
  have hlt : t.index p < t.width * t.height := by
    rw [← t.size_cells]
    exact index_lt h
  rw [List.countP_congr hindex]
  show (List.range (t.width * t.height)).count (t.index p) = 1
  rw [List.count_range, if_pos hlt]

/-! ### Reading -/

theorem cell?_of_contains (h : t.contains p = true) : t.cell? p = t.cells[t.index p]? := by
  rw [Array.getElem?_eq_getElem (index_lt h)]
  exact dif_pos h

theorem cell?_of_not_contains (h : ¬t.contains p = true) : t.cell? p = none :=
  dif_neg h

theorem isSome_cell? : (t.cell? p).isSome = true ↔ t.contains p = true := by
  by_cases h : t.contains p = true
  · simp [cell?_of_contains h, index_lt h, h]
  · simp [cell?_of_not_contains h, h]

theorem position_of_cell? {c : Cell} (h : t.cell? p = some c) : c.position = p := by
  have hp : t.contains p = true := isSome_cell?.mp (by rw [h]; rfl)
  rw [cell?_of_contains hp, Array.getElem?_eq_getElem (index_lt hp)] at h
  rw [← Option.some.inj h, t.position_cells, positionAt_index hp]

/-- The cell that is stored at an index stands on the square that is stored there. -/
theorem getElem?_cells {i : Nat} (h : i < t.width * t.height) :
    t.cells[i]? = t.cell? (positionAt t.width i) := by
  rw [cell?_of_contains (contains_positionAt h), index_positionAt]

theorem isWall_of_cell? {c : Cell} (h : t.cell? p = some c) : t.isWall p = c.wall := by
  unfold isWall
  rw [h]
  rfl

theorem isWall_of_not_contains (h : ¬t.contains p = true) : t.isWall p = true := by
  unfold isWall
  rw [cell?_of_not_contains h]
  rfl

theorem contains_of_isWall_eq_false (h : t.isWall p = false) : t.contains p = true := by
  by_cases hc : t.contains p = true
  · exact hc
  · rw [isWall_of_not_contains hc] at h
    cases h

/-- Terrains of one size with the same cells are the same. -/
theorem ext_cell? {u : Terrain} (hwidth : t.width = u.width) (hheight : t.height = u.height)
    (hcell : ∀ p, t.cell? p = u.cell? p) : t = u := by
  refine Terrain.ext hwidth hheight (Array.ext_getElem? fun i => ?_)
  by_cases hi : i < t.width * t.height
  · have hi' : i < u.width * u.height := by
      rwa [← hwidth, ← hheight]
    rw [getElem?_cells hi, getElem?_cells hi', hcell, hwidth]
  · have hi' : ¬i < u.width * u.height := by
      rwa [← hwidth, ← hheight]
    rw [← t.size_cells] at hi
    rw [← u.size_cells] at hi'
    rw [Array.getElem?_eq_none (Nat.le_of_not_lt hi), Array.getElem?_eq_none (Nat.le_of_not_lt hi')]

/-! ### Writing -/

/-- The squares of a rectangle, row after row. -/
def squares (width height : Nat) : List Position :=
  (List.range height).flatMap fun y : Nat => (List.range width).map fun x : Nat => ⟨x, y⟩

theorem squares_eq (width height : Nat) :
    squares width height = (List.range (width * height)).map (positionAt width) := by
  induction height with
  | zero => rfl
  | succ height ih =>
      have hrow : (List.range width).map (fun x : Nat => (⟨x, height⟩ : Position))
          = (List.range width).map (fun x => positionAt width (width * height + x)) := by
        refine List.map_congr_left ?_
        intro x hx
        have hlt : x < width := List.mem_range.mp hx
        simp only [positionAt, Nat.mul_add_mod, Nat.mod_eq_of_lt hlt,
          Nat.mul_add_div (Nat.zero_lt_of_lt hlt), Nat.div_eq_of_lt hlt, Nat.add_zero]
      unfold squares at ih ⊢
      rw [List.range_succ, List.flatMap_append, ih, Nat.mul_succ, List.range_add, List.map_append,
        List.flatMap_singleton, hrow, List.map_map]
      rfl

/-- The terrain of a size with these cells. -/
def ofCells (width height : Nat) (cell : Position → Cell) (hcell : ∀ p, (cell p).position = p) :
    Terrain where
  width := width
  height := height
  cells := ((squares width height).map cell).toArray
  size_cells := by simp [squares_eq]
  position_cells := by simp [squares_eq, hcell]

theorem cell?_ofCells {width height : Nat} {cell : Position → Cell}
    {hcell : ∀ p, (cell p).position = p} (h : inside width height p = true) :
    (ofCells width height cell hcell).cell? p = some (cell p) := by
  have hc : (ofCells width height cell hcell).contains p = true := h
  have hp : positionAt width ((ofCells width height cell hcell).index p) = p := positionAt_index hc
  have hlt : (ofCells width height cell hcell).index p < width * height := by
    have hlt := index_lt hc
    rwa [size_cells] at hlt
  rw [cell?_of_contains hc]
  show ((squares width height).map cell).toArray[_]? = _
  rw [List.getElem?_toArray, squares_eq, List.getElem?_map, List.getElem?_map,
    List.getElem?_range hlt]
  exact congrArg (some ∘ cell) hp

theorem eq_of_cell?_ofCells {width height : Nat} {cell : Position → Cell}
    {hcell : ∀ p, (cell p).position = p} {c : Cell}
    (h : (ofCells width height cell hcell).cell? p = some c) : c = cell p := by
  have hp : inside width height p = true := isSome_cell?.mp (Option.isSome_of_eq_some h)
  exact Option.some.inj (h.symm.trans (cell?_ofCells hp))

/-- Changes what stands on one square; outside there is nothing to change. -/
def change (t : Terrain) (p : Position) (f : Cell → Cell)
    (hf : ∀ c, (f c).position = c.position) : Terrain where
  width := t.width
  height := t.height
  cells := if t.contains p then t.cells.modify (t.index p) f else t.cells
  size_cells := by
    split
    · rw [Array.size_modify, t.size_cells]
    · exact t.size_cells
  position_cells := by
    split
    · intro i hi
      rw [Array.size_modify] at hi
      rw [Array.getElem_modify]
      split
      · rw [hf, t.position_cells i hi]
      · exact t.position_cells i hi
    · exact t.position_cells

/-- **A write changes the cell of its square and no other.** -/
theorem cell?_change {f : Cell → Cell} {hf : ∀ c, (f c).position = c.position} (q : Position) :
    (t.change p f hf).cell? q = (t.cell? q).map fun c => if q = p then f c else c := by
  by_cases hq : t.contains q = true
  · have hq' : (t.change p f hf).contains q = true := hq
    have hindex : (t.change p f hf).index q = t.index q := rfl
    rw [cell?_of_contains hq', cell?_of_contains hq, hindex]
    by_cases hp : t.contains p = true
    · have hcells : (t.change p f hf).cells = t.cells.modify (t.index p) f := if_pos hp
      rw [hcells, Array.getElem?_modify]
      by_cases hqp : q = p
      · simp [hqp]
      · simp [hqp, index_eq_iff hp hq, Ne.symm hqp]
    · have hcells : (t.change p f hf).cells = t.cells := if_neg hp
      have hne : q ≠ p := fun h => hp (h ▸ hq)
      simp only [hcells, if_neg hne, Option.map_id']
  · have hq' : ¬(t.change p f hf).contains q = true := hq
    rw [cell?_of_not_contains hq', cell?_of_not_contains hq]
    rfl

/-- The terrain of a size without walls and marks. -/
def blank (width height : Nat) : Terrain :=
  ofCells width height (fun p => { position := p }) fun _ => rfl

/-- Builds a wall on each of these squares, as far as they lie on the terrain. -/
def build (t : Terrain) (walls : List Position) : Terrain :=
  walls.foldl (fun t p => t.change p (fun c => { c with wall := true }) fun _ => rfl) t

/-- The terrain of a size that has walls at the listed positions; those outside of it
have no effect. -/
def ofWalls (width height : Nat) (walls : List Position) : Terrain :=
  (blank width height).build walls

theorem size_build (walls : List Position) :
    ∀ t : Terrain, (t.build walls).width = t.width ∧ (t.build walls).height = t.height := by
  induction walls with
  | nil => exact fun t => ⟨rfl, rfl⟩
  | cons p walls ih => exact fun t => ih _

/-- After building, a square is a wall if it was one or is listed. -/
theorem cell?_build (walls : List Position) (q : Position) :
    ∀ t : Terrain, (t.build walls).cell? q
      = (t.cell? q).map fun c => { c with wall := c.wall || walls.contains q } := by
  induction walls with
  | nil =>
      intro t
      show t.cell? q = _
      simp
  | cons p walls ih =>
      intro t
      refine (ih _).trans ?_
      rw [cell?_change, Option.map_map]
      refine congrArg (Option.map · _) (funext fun c => ?_)
      by_cases hqp : q = p
      · simp [hqp]
      · simp [hqp]

section
variable {width height : Nat} {walls : List Position}

theorem width_ofWalls : (ofWalls width height walls).width = width :=
  (size_build walls _).1

theorem height_ofWalls : (ofWalls width height walls).height = height :=
  (size_build walls _).2

theorem contains_ofWalls : (ofWalls width height walls).contains p = inside width height p := by
  unfold contains
  rw [width_ofWalls, height_ofWalls]

/-- A described terrain bears no marks and has walls exactly where the list says. -/
theorem cell?_ofWalls (h : inside width height p = true) :
    (ofWalls width height walls).cell? p = some { position := p, wall := walls.contains p } := by
  unfold ofWalls blank
  rw [cell?_build, cell?_ofCells h]
  rfl

theorem plain_ofWalls (p : Position) (c : Cell)
    (h : (ofWalls width height walls).cell? p = some c) : c.isStart = false ∧ c.isGoal = false := by
  have hc : (ofWalls width height walls).contains p = true := isSome_cell?.mp (by rw [h]; rfl)
  rw [contains_ofWalls] at hc
  rw [cell?_ofWalls hc] at h
  cases h
  exact ⟨rfl, rfl⟩

theorem isWall_ofWalls (h : inside width height p = true) :
    (ofWalls width height walls).isWall p = walls.contains p :=
  isWall_of_cell? (cell?_ofWalls h)

end

end Terrain

/-- A terrain with a start and a goal. -/
@[ext]
structure Board extends Terrain where
  start : Position
  goal : Position
  start_free : toTerrain.isWall start = false
  goal_free : toTerrain.isWall goal = false
  /-- The square of the start is marked, and no other. -/
  isStart_cell : ∀ p c, toTerrain.cell? p = some c → c.isStart = (p == start)
  /-- The square of the goal is marked, and no other. -/
  isGoal_cell : ∀ p c, toTerrain.cell? p = some c → c.isGoal = (p == goal)
deriving DecidableEq

namespace Board

variable {b c : Board} {p : Position}

/-- All that is known of a square of a board is whether it is a wall, the start or the goal. -/
theorem cell?_eq_some_iff {cell : Cell} :
    b.cell? p = some cell ↔ b.contains p = true ∧
      cell = { position := p, wall := b.isWall p, isGoal := p == b.goal,
               isStart := p == b.start } := by
  constructor
  · intro h
    refine ⟨Terrain.isSome_cell?.mp (by rw [h]; rfl), ?_⟩
    rw [← Terrain.position_of_cell? h, Terrain.position_of_cell? h, Terrain.isWall_of_cell? h,
      ← b.isGoal_cell p cell h, ← b.isStart_cell p cell h, ← Terrain.position_of_cell? h]
  · rintro ⟨hp, rfl⟩
    obtain ⟨cell, hcell⟩ := Option.isSome_iff_exists.mp (Terrain.isSome_cell?.mpr hp)
    rw [hcell, Terrain.isWall_of_cell? hcell, ← b.isGoal_cell p cell hcell,
      ← b.isStart_cell p cell hcell, ← Terrain.position_of_cell? hcell]

/-- A board is known by its size, its walls and its marks. -/
theorem eq_of_isWall (hwidth : b.width = c.width) (hheight : b.height = c.height)
    (hwall : ∀ p, b.contains p = true → b.isWall p = c.isWall p) (hstart : b.start = c.start)
    (hgoal : b.goal = c.goal) : b = c := by
  have hin : ∀ p, b.contains p = c.contains p := by
    intro p
    unfold Terrain.contains
    rw [hwidth, hheight]
  have hterrain : b.toTerrain = c.toTerrain := by
    refine Terrain.ext_cell? hwidth hheight fun p => Option.ext fun cell => ?_
    rw [cell?_eq_some_iff, cell?_eq_some_iff, ← hin, hstart, hgoal]
    refine and_congr_right fun hp => ?_
    rw [hwall p hp]
  exact Board.ext hwidth hheight (congrArg Terrain.cells hterrain) hstart hgoal

/-- A board has at least one row and one column, those of its start. -/
theorem size_pos (b : Board) : 0 < b.width ∧ 0 < b.height := by
  have hin := Terrain.contains_of_isWall_eq_false b.start_free
  obtain ⟨hx, hw, hy, hh⟩ := Terrain.contains_iff.mp hin
  omega

end Board

/-- One of the two marked squares. -/
inductive Endpoint where
  | start
  | goal
deriving DecidableEq

def Endpoint.name : Endpoint → String
  | start => "start"
  | goal => "goal"

/-- Why a description or a map is no board. -/
inductive BoardError where
  | zeroSize (width height : Nat)
  | outOfBounds (which : Endpoint) (square : Position) (width height : Nat)
  | onWall (which : Endpoint) (square : Position)
  /-- There is no row with anything in it. -/
  | empty
  | ragged (row expected found : Nat)
  | unknownTile (tile : Char) (square : Position)
  | missingStart
  | missingGoal
  | multipleStarts
  | multipleGoals
deriving DecidableEq

def sizeText (width height : Nat) : String :=
  Text.ofNat width ++ "x" ++ Text.ofNat height

def BoardError.message : BoardError → String
  | zeroSize w h => "grid dimensions must be positive, got " ++ sizeText w h
  | outOfBounds which p w h =>
    which.name ++ " " ++ p.text ++ " is outside the " ++ sizeText w h ++ " grid"
  | onWall which p => which.name ++ " " ++ p.text ++ " is a wall"
  | empty => "map has no rows"
  | ragged row expected found =>
    "row " ++ Text.ofNat row ++ " has " ++ Text.ofNat found ++ " cells, expected "
      ++ Text.ofNat expected
  | unknownTile tile p => "unknown tile " ++ Text.quotedChar tile ++ " at " ++ p.text
  | missingStart => "map has no start cell"
  | missingGoal => "map has no goal cell"
  | multipleStarts => "map has more than one start cell"
  | multipleGoals => "map has more than one goal cell"

namespace Board

/-- The position of a mark, if the terrain has a free square there.  The terrain is not
looked at unless the position lies inside of it. -/
def locate (width height : Nat) (t : Thunk Terrain) (which : Endpoint) (p : Position) :
    Except BoardError { q : Position // Terrain.inside width height q = true ∧
      t.get.isWall q = false } :=
  if hp : Terrain.inside width height p = true then
    if hw : t.get.isWall p = false then .ok ⟨p, hp, hw⟩ else .error (.onWall which p)
  else .error (.outOfBounds which p width height)

section Marking

variable {t : Terrain} {start goal p : Position}

/-- A terrain on which start and goal are marked. -/
def marked (t : Terrain) (start goal : Position) : Terrain :=
  (t.change start (fun c => { c with isStart := true }) fun _ => rfl).change goal
    (fun c => { c with isGoal := true }) fun _ => rfl

theorem cell?_marked (p : Position) :
    (marked t start goal).cell? p = (t.cell? p).map fun c =>
      { c with isStart := c.isStart || p == start, isGoal := c.isGoal || p == goal } := by
  unfold marked
  rw [Terrain.cell?_change, Terrain.cell?_change, Option.map_map]
  refine congrArg (Option.map · _) (funext fun c => ?_)
  have hs : p = start ↔ (p == start) = true := beq_iff_eq.symm
  have hg : p = goal ↔ (p == goal) = true := beq_iff_eq.symm
  simp only [hs, hg]
  cases p == start <;> cases p == goal <;> simp

theorem isWall_marked : (marked t start goal).isWall p = t.isWall p := by
  refine (congrArg (Option.all Cell.wall) (cell?_marked p)).trans ?_
  exact Option.all_map

/-- On a terrain without marks there are then these two. -/
theorem marks_of_cell?_marked
    (hplain : ∀ q c, t.cell? q = some c → c.isStart = false ∧ c.isGoal = false) {c : Cell}
    (h : (marked t start goal).cell? p = some c) :
    c.isStart = (p == start) ∧ c.isGoal = (p == goal) := by
  rw [cell?_marked, Option.map_eq_some_iff] at h
  obtain ⟨c, hc, rfl⟩ := h
  obtain ⟨hs, hg⟩ := hplain p c hc
  exact ⟨by rw [hs, Bool.false_or], by rw [hg, Bool.false_or]⟩

end Marking

/-- The board of a size with the given walls, start and goal.  The start is examined
before the goal; start and goal may be the same square.  A size may be too great for a
store, if the start lies outside: the walls are built when they are first looked at. -/
def create (width height : Nat) (walls : List Position) (start goal : Position) :
    Except BoardError Board :=
  if width = 0 ∨ height = 0 then .error (.zeroSize width height)
  else
    let t : Thunk Terrain := Thunk.mk fun _ => Terrain.ofWalls width height walls
    match locate width height t .start start with
    | .error e => .error e
    | .ok s =>
      match locate width height t .goal goal with
      | .error e => .error e
      | .ok g =>
        .ok {
          toTerrain := marked t.get s.1 g.1
          start := s.1
          goal := g.1
          start_free := isWall_marked.trans s.2.2
          goal_free := isWall_marked.trans g.2.2
          isStart_cell := fun _ _ h => (marks_of_cell?_marked Terrain.plain_ofWalls h).1
          isGoal_cell := fun _ _ h => (marks_of_cell?_marked Terrain.plain_ofWalls h).2 }

end Board

end RobotMaze
