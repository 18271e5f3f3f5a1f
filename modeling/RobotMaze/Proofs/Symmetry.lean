/-
Nothing in the puzzle depends on where north is, or on which hand is the right one.

A map can be turned by a quarter and the robot with it: the same program then draws the
turned path.  A map can be seen in a mirror, and the mirrored program draws the mirrored
path.  Both are redrawings, so the runs are settled by `Level.run_redrawn`; what is left
is that the changed rows are the drawing of the redrawn board, that is, a computation
with rows and columns in which width and height change places.
-/
import RobotMaze.Proofs.Redrawing

namespace RobotMaze

/-- The heading as a mirror shows it, with east and west exchanged. -/
def Heading.mirrored : Heading → Heading
  | north => north
  | east => west
  | south => south
  | west => east

namespace Board

/-- The map after a quarter turn clockwise: its rows are the columns of the old one,
read from the bottom to the top. -/
def turnedRows (rows : List String) : List String :=
  let old := significantRows rows
  (List.range (old.headD []).length).map fun x =>
    String.ofList (old.reverse.map fun row => row.getD x ' ')

/-- The map in a mirror: every row is read backwards. -/
def mirroredRows (rows : List String) : List String :=
  rows.map fun row => String.ofList row.toList.reverse

/-! ### The changed rows -/

theorem reverse_map_range {α : Type} (n : Nat) (f : Nat → α) :
    ((List.range n).map f).reverse = (List.range n).map fun i => f (n - 1 - i) := by
  rw [← List.map_reverse, List.range_eq_range', List.reverse_range', List.map_map,
    List.range_eq_range']
  simp only [Function.comp_def, Nat.zero_add]

theorem length_headD_grid {width height : Nat} (hheight : 0 < height) (f : Position → Char) :
    ((grid width height f).headD []).length = width := by
  cases hg : grid width height f with
  | nil =>
      have hlen := congrArg List.length hg
      unfold grid at hlen
      rw [List.length_map, List.length_range] at hlen
      exact absurd hlen (Nat.ne_of_gt hheight)
  | cons row rest =>
      have hmem : row ∈ grid width height f := by
        rw [hg]
        exact List.mem_cons_self
      exact length_of_mem_grid hmem

theorem turnedRows_eq {rows : List String} {width height : Nat} {f : Position → Char}
    (hheight : 0 < height) (hrows : significantRows rows = grid width height f) :
    turnedRows rows
      = (grid height width fun p => f ⟨p.y, height - 1 - p.x⟩).map String.ofList := by
  unfold turnedRows
  simp only [hrows, length_headD_grid hheight]
  unfold grid
  rw [List.map_map]
  refine List.map_congr_left ?_
  intro x hx
  have hxw : x < width := List.mem_range.mp hx
  rw [reverse_map_range, List.map_map, Function.comp_apply]
  refine congrArg String.ofList (List.map_congr_left ?_)
  intro i hi
  have hih : i < height := List.mem_range.mp hi
  have hcast : ((height - 1 - i : Nat) : Int) = (height : Int) - 1 - i := by omega
  rw [Function.comp_apply, List.getD_eq_getElem?_getD, List.getElem?_map,
    List.getElem?_range hxw, Option.map_some, Option.getD_some, hcast]

/-- What is blank in a row is blank in its mirror image. -/
theorem significantRows_mirroredRows (rows : List String) :
    significantRows (mirroredRows rows) = (significantRows rows).map List.reverse := by
  unfold significantRows mirroredRows
  rw [List.map_map, List.filter_map, List.filter_map, List.map_map]
  have hrow : ∀ row : String, Text.withoutBlanks row.toList.reverse
      = (Text.withoutBlanks row.toList).reverse := by
    intro row
    unfold Text.withoutBlanks
    exact List.filter_reverse
  simp only [Function.comp_def, String.toList_ofList, hrow, List.isEmpty_reverse]

theorem map_reverse_grid (width height : Nat) (f : Position → Char) :
    (grid width height f).map List.reverse
      = grid width height fun p => f ⟨width - 1 - p.x, p.y⟩ := by
  unfold grid
  rw [List.map_map]
  refine List.map_congr_left ?_
  intro y _
  rw [Function.comp_apply, reverse_map_range]
  refine List.map_congr_left ?_
  intro x hx
  have hxw : x < width := List.mem_range.mp hx
  have hcast : ((width - 1 - x : Nat) : Int) = (width : Int) - 1 - x := by omega
  rw [hcast]

end Board

namespace Redrawing

/-- A quarter turn clockwise of everything that stands on this many rows. -/
def quarterTurn (height : Nat) : Redrawing where
  position p := ⟨height - 1 - p.y, p.x⟩
  source p := ⟨p.y, height - 1 - p.x⟩
  heading := Heading.right
  mirrors := false
  source_position p := Position.ext rfl (Int.sub_sub_self _ _)
  position_source p := Position.ext (Int.sub_sub_self _ _) rfl
  position_step p h := by
    cases h <;> ext <;> simp [Position.step, Heading.delta, Heading.right] <;> omega
  heading_toward h s := by cases h <;> cases s <;> rfl

/-- The reflection that exchanges the first and the last of this many columns. -/
def reflection (width : Nat) : Redrawing where
  position p := ⟨width - 1 - p.x, p.y⟩
  source p := ⟨width - 1 - p.x, p.y⟩
  heading := Heading.mirrored
  mirrors := true
  source_position p := Position.ext (Int.sub_sub_self _ _) rfl
  position_source p := Position.ext (Int.sub_sub_self _ _) rfl
  position_step p h := by
    cases h <;> ext <;> simp [Position.step, Heading.delta, Heading.mirrored] <;> omega
  heading_toward h s := by cases h <;> cases s <;> rfl

theorem map_command_quarterTurn (height : Nat) (cs : Program) :
    cs.map (quarterTurn height).command = cs :=
  List.map_id' cs

theorem map_command_reflection (width : Nat) (cs : Program) :
    cs.map (reflection width).command = cs.map Command.mirrored :=
  List.map_congr_left fun _ _ => rfl

end Redrawing

/-! ### The boards of the changed rows -/

namespace Board

theorem inside_quarterTurn (b : Board) (p : Position) (hp : b.contains p = true) :
    Terrain.inside b.height b.width ((Redrawing.quarterTurn b.height).position p) = true := by
  obtain ⟨hx, hw, hy, hh⟩ := Terrain.contains_iff.mp hp
  exact decide_eq_true ⟨by show 0 ≤ _ - 1 - p.y; omega, by show _ - 1 - p.y < _; omega, hx, hw⟩

theorem inside_reflection (b : Board) (p : Position) (hp : b.contains p = true) :
    Terrain.inside b.width b.height ((Redrawing.reflection b.width).position p) = true := by
  obtain ⟨hx, hw, hy, hh⟩ := Terrain.contains_iff.mp hp
  exact decide_eq_true ⟨by show 0 ≤ _ - 1 - p.x; omega, by show _ - 1 - p.x < _; omega, hy, hh⟩

/-- The board after a quarter turn clockwise. -/
def turned (b : Board) : Board :=
  b.redrawn (Redrawing.quarterTurn b.height) b.height b.width b.inside_quarterTurn

/-- The board in a mirror. -/
def mirrored (b : Board) : Board :=
  b.redrawn (Redrawing.reflection b.width) b.width b.height b.inside_reflection

theorem ofRows_turnedRows {rows : List String} {b : Board} (h : ofRows rows = .ok b) :
    ofRows (turnedRows rows) = .ok b.turned := by
  refine b.ofRows_redrawn _ _ _ _ ?_
  rw [turnedRows_eq b.size_pos.2 (ofRows_eq_ok_iff.mp h)]
  exact significantRows_grid b.size_pos.2 _

theorem ofRows_mirroredRows {rows : List String} {b : Board} (h : ofRows rows = .ok b) :
    ofRows (mirroredRows rows) = .ok b.mirrored := by
  refine b.ofRows_redrawn _ _ _ _ ?_
  rw [significantRows_mirroredRows, ofRows_eq_ok_iff.mp h]
  exact map_reverse_grid b.width b.height _

end Board

/--
**Turning the map turns the run, and mirroring the map and the program mirrors the run.**
For a level with the board of a map, the turned and the mirrored map are maps too, their
tiles are those of the old map in their new places, and from the start of the new board
with the new facing a program leads through the new places of the old poses.
-/
theorem Level.run_turned_and_mirrored {rows : List String} {l : Level}
    (h : Board.ofRows rows = .ok l.board) :
    (∃ b, Board.ofRows (Board.turnedRows rows) = .ok b ∧
      b.width = l.board.height ∧ b.height = l.board.width ∧
      (∀ x y : Int, b.tile ⟨l.board.height - 1 - y, x⟩ = l.board.tile ⟨x, y⟩) ∧
      ∀ cs, (l.run cs).ShownAs
        (fun p => ⟨⟨l.board.height - 1 - p.position.y, p.position.x⟩, p.heading.right⟩)
        ({ l with board := b, facing := l.facing.right }.run cs)) ∧
    (∃ b, Board.ofRows (Board.mirroredRows rows) = .ok b ∧
      b.width = l.board.width ∧ b.height = l.board.height ∧
      (∀ x y : Int, b.tile ⟨l.board.width - 1 - x, y⟩ = l.board.tile ⟨x, y⟩) ∧
      ∀ cs, (l.run cs).ShownAs
        (fun p => ⟨⟨l.board.width - 1 - p.position.x, p.position.y⟩, p.heading.mirrored⟩)
        ({ l with board := b, facing := l.facing.mirrored }.run (cs.map Command.mirrored))) := by
  constructor
  · refine ⟨l.board.turned, Board.ofRows_turnedRows h, rfl, rfl, ?_, ?_⟩
    · intro x y
      exact l.board.tile_redrawn_position _ _ _ l.board.inside_quarterTurn ⟨x, y⟩
    · intro cs
      have hrun := l.shownAs_run_redrawn _ _ _ l.board.inside_quarterTurn cs
      rw [Redrawing.map_command_quarterTurn] at hrun
      exact hrun
  · refine ⟨l.board.mirrored, Board.ofRows_mirroredRows h, rfl, rfl, ?_, ?_⟩
    · intro x y
      exact l.board.tile_redrawn_position _ _ _ l.board.inside_reflection ⟨x, y⟩
    · intro cs
      have hrun := l.shownAs_run_redrawn _ _ _ l.board.inside_reflection cs
      rw [Redrawing.map_command_reflection] at hrun
      exact hrun

theorem Level.run_turned_and_mirrored_nook :
    Board.ofRows ["S.#", "..G"] = .ok nook.board ∧
    (∃ b, Board.ofRows (Board.turnedRows ["S.#", "..G"]) = .ok b ∧
      ({ nook with board := b, facing := .south }.run Program.throughNook).trace
        = [⟨⟨1, 0⟩, .south⟩, ⟨⟨1, 1⟩, .south⟩, ⟨⟨1, 1⟩, .west⟩, ⟨⟨0, 1⟩, .west⟩,
          ⟨⟨0, 1⟩, .south⟩, ⟨⟨0, 2⟩, .south⟩]) ∧
    (∃ b, Board.ofRows (Board.mirroredRows ["S.#", "..G"]) = .ok b ∧
      ({ nook with board := b, facing := .west }.run
          (Program.throughNook.map Command.mirrored)).trace
        = [⟨⟨2, 0⟩, .west⟩, ⟨⟨1, 0⟩, .west⟩, ⟨⟨1, 0⟩, .south⟩, ⟨⟨1, 1⟩, .south⟩,
          ⟨⟨1, 1⟩, .west⟩, ⟨⟨0, 1⟩, .west⟩]) := by
  have hrows : Board.ofRows ["S.#", "..G"] = .ok nook.board := rfl
  obtain ⟨⟨b, hb, -, -, -, hturned⟩, ⟨c, hc, -, -, -, hmirrored⟩⟩ :=
    run_turned_and_mirrored hrows
  exact ⟨hrows, ⟨b, hb, (hturned Program.throughNook).trace⟩,
    ⟨c, hc, (hmirrored Program.throughNook).trace⟩⟩

end RobotMaze
