/-
The edge of a board is a wall.

A map can be fenced in: a row of walls above and below, and a wall at both ends of each
row.  The fence stands where the edge was, so no run can tell the difference, except
that every square has moved one column to the east and one row to the south.  Seen as a
redrawing this is a shift of the whole plane by one square, which has room on a board
that is two columns and two rows larger; the fence is what the outside of the old board
looks like from the inside of the new one.
-/
import RobotMaze.Proofs.Redrawing

namespace RobotMaze

namespace Board

/-- The rows of a board with a fence around them. -/
def fencedRows (b : Board) : List String :=
  let fence := String.ofList (List.replicate (b.width + 2) '#')
  fence :: b.rows.map (fun row => "#" ++ row ++ "#") ++ [fence]

end Board

/-- The shift by one column to the east and one row to the south. -/
def Redrawing.shift : Redrawing where
  position p := ⟨p.x + 1, p.y + 1⟩
  source p := ⟨p.x - 1, p.y - 1⟩
  heading := id
  mirrors := false
  source_position _ := Position.ext (Int.add_sub_cancel _ _) (Int.add_sub_cancel _ _)
  position_source _ := Position.ext (Int.sub_add_cancel _ _) (Int.sub_add_cancel _ _)
  position_step _ _ := Position.ext (Int.add_right_comm _ _ _) (Int.add_right_comm _ _ _)
  heading_toward _ _ := rfl

theorem Redrawing.map_command_shift (cs : Program) : cs.map Redrawing.shift.command = cs :=
  List.map_id' cs

namespace Board

theorem inside_shift (b : Board) (p : Position) (hp : b.contains p = true) :
    Terrain.inside (b.width + 2) (b.height + 2) (Redrawing.shift.position p) = true := by
  obtain ⟨hx, hw, hy, hh⟩ := Terrain.contains_iff.mp hp
  exact decide_eq_true
    ⟨by show 0 ≤ p.x + 1; omega, by show p.x + 1 < _; omega, by show 0 ≤ p.y + 1; omega,
      by show p.y + 1 < _; omega⟩

/-- The board with a fence around it. -/
def fenced (b : Board) : Board :=
  b.redrawn Redrawing.shift (b.width + 2) (b.height + 2) b.inside_shift

/-! ### The fence is the old outside -/

/-- A range has a first entry, a last one, and a shorter range between them. -/
theorem map_range_add_two {α : Type} (n : Nat) (f : Nat → α) :
    (List.range (n + 2)).map f
      = f 0 :: (List.range n).map (fun i => f (i + 1)) ++ [f (n + 1)] := by
  rw [List.range_succ, List.map_append, List.range_succ_eq_map, List.map_cons, List.map_map]
  rfl

/-- One row of the plane around a board, from the column before it to the one behind. -/
def fencedRow (b : Board) (y : Int) : List Char :=
  (List.range (b.width + 2)).map fun x : Nat => (b.tile ⟨x - 1, y⟩).char

/-- Beside the board the plane is all wall. -/
theorem fencedRow_outside {b : Board} {y : Int} (hy : y < 0 ∨ (b.height : Int) ≤ y) :
    b.fencedRow y = List.replicate (b.width + 2) '#' := by
  have hwall : ∀ x ∈ List.range (b.width + 2), (b.tile ⟨(x : Int) - 1, y⟩).char = '#' := by
    intro x _
    have hout : ¬b.contains ⟨(x : Int) - 1, y⟩ = true := by
      rw [Terrain.contains_iff]
      show ¬(_ ∧ _ ∧ 0 ≤ y ∧ y < (b.height : Int))
      omega
    rw [tile_of_not_contains hout]
    rfl
  unfold fencedRow
  rw [List.map_congr_left hwall, List.map_const', List.length_range]

/-- A row of the board is continued by a wall at both ends. -/
theorem fencedRow_inside {b : Board} {y : Nat} (hy : y < b.height) :
    b.fencedRow y = '#' :: (b.row y).toList ++ ['#'] := by
  have hend : ∀ x : Int, x < 0 ∨ (b.width : Int) ≤ x → (b.tile ⟨x, y⟩).char = '#' := by
    intro x hx
    have hout : ¬b.contains ⟨x, y⟩ = true := by
      rw [Terrain.contains_iff]
      show ¬(0 ≤ x ∧ x < (b.width : Int) ∧ _)
      omega
    rw [tile_of_not_contains hout]
    rfl
  have hcast : ∀ x : Nat, ((x + 1 : Nat) : Int) - 1 = x := by
    intro x
    omega
  unfold fencedRow
  rw [map_range_add_two, hend _ (by omega), hend _ (by omega), row_eq hy, String.toList_ofList]
  simp only [hcast]

theorem fencedRows_eq (b : Board) :
    b.fencedRows = (grid (b.width + 2) (b.height + 2) fun p =>
      (b.tile (Redrawing.shift.source p)).char).map String.ofList := by
  have hgrid : (grid (b.width + 2) (b.height + 2) fun p =>
      (b.tile (Redrawing.shift.source p)).char)
      = (List.range (b.height + 2)).map fun y : Nat => b.fencedRow (y - 1) := rfl
  have hcast : ∀ y : Nat, ((y + 1 : Nat) : Int) - 1 = y := by
    intro y
    omega
  have hsign : "#".toList = ['#'] := rfl
  have hrow : ∀ y ∈ List.range b.height,
      "#" ++ b.row y ++ "#" = String.ofList (b.fencedRow y) := by
    intro y hy
    rw [fencedRow_inside (List.mem_range.mp hy)]
    refine String.toList_inj.mp ?_
    simp only [String.toList_append, String.toList_ofList, hsign, List.singleton_append]
  rw [hgrid, map_range_add_two, fencedRow_outside (by omega), fencedRow_outside (by omega)]
  simp only [hcast]
  unfold fencedRows rows
  simp only [List.map_append, List.map_cons, List.map_map, List.map_nil, Function.comp_def]
  rw [List.map_congr_left hrow]

theorem ofRows_fencedRows (b : Board) : ofRows b.fencedRows = .ok b.fenced := by
  refine b.ofRows_redrawn _ _ _ _ ?_
  rw [fencedRows_eq]
  exact significantRows_grid (Nat.succ_pos _) _

end Board

/--
**A fence changes nothing but the coordinates.**  The fenced rows of a board are a map,
and on its board every program leads through the old poses, shifted by one column and
one row.
-/
theorem Level.run_fenced (l : Level) :
    ∃ b, Board.ofRows l.board.fencedRows = .ok b ∧
      ∀ cs, (l.run cs).ShownAs
        (fun p => ⟨⟨p.position.x + 1, p.position.y + 1⟩, p.heading⟩)
        ({ l with board := b }.run cs) := by
  refine ⟨l.board.fenced, l.board.ofRows_fencedRows, ?_⟩
  intro cs
  have hrun := l.shownAs_run_redrawn _ _ _ l.board.inside_shift cs
  rw [Redrawing.map_command_shift] at hrun
  exact hrun

end RobotMaze
