/-
The robot never stands in a wall.

A terrain counts every square outside of its rectangle as a wall, so "not in a wall"
also says "on the terrain".  The invariant of a run is that the robot either has not
left the square it was put on or stands on a free one.  Nothing is assumed of that
first square: a robot that is put into a wall or outside of the terrain can stay there,
but the moment it moves it is on a free square and remains on free squares from then
on.  On a level the first square is the start, which a board guarantees to be free.
-/
import RobotMaze.Proofs.Run

namespace RobotMaze

/-- The invariant: never moved, or on a free square. -/
def KeepsOffWalls (t : Terrain) (first : Position) (q : Pose) : Prop :=
  q.position = first ∨ t.isWall q.position = false

theorem keepsOffWalls_goes {t : Terrain} {first : Position} {q r : Pose} (hgo : q.Goes t r)
    (h : KeepsOffWalls t first q) : KeepsOffWalls t first r := by
  rcases hgo.position with hsame | hfree
  · unfold KeepsOffWalls
    rw [hsame]
    exact h
  · exact Or.inr hfree

theorem keepsOffWalls_final (t : Terrain) (p : Pose) (cs : Program) :
    KeepsOffWalls t p.position (Program.final t p cs) :=
  Program.final_induct (fun _ _ hgo h => keepsOffWalls_goes hgo h) cs p (Or.inl rfl)

/-- On a level every run ends on a free square. -/
theorem Level.isWall_final (l : Level) (cs : Program) :
    l.board.isWall (l.run cs).final.position = false := by
  rcases keepsOffWalls_final l.board.toTerrain l.start cs with hsame | hfree
  · show l.board.isWall (Program.final l.board.toTerrain l.start cs).position = false
    rw [hsame]
    exact l.board.start_free
  · exact hfree

/-- So does every pose of a run, which is the end of the run of its first commands. -/
theorem Level.free_of_mem_trace (l : Level) {cs : Program} {q : Pose}
    (hq : q ∈ (l.run cs).trace) :
    l.board.contains q.position = true ∧ l.board.isWall q.position = false := by
  obtain ⟨k, -, rfl⟩ := Program.mem_trace_iff.mp hq
  have hfree := l.isWall_final (cs.take k)
  exact ⟨Terrain.contains_of_isWall_eq_false hfree, hfree⟩

/--
**No program walks into a wall or off the board.**  From any pose on any terrain the
end of a run is on the first square or on a free one, and on a level every pose of the
run is on a free square.
-/
theorem run_stands_on_free_squares :
    (∀ (t : Terrain) (p : Pose) (cs : Program),
      (Program.final t p cs).position = p.position ∨
        t.contains (Program.final t p cs).position = true ∧
          t.isWall (Program.final t p cs).position = false) ∧
    (∀ (l : Level) (cs : Program), ∀ q ∈ (l.run cs).trace,
      l.board.contains q.position = true ∧ l.board.isWall q.position = false) := by
  constructor
  · intro t p cs
    rcases keepsOffWalls_final t p cs with hsame | hfree
    · exact Or.inl hsame
    · exact Or.inr ⟨Terrain.contains_of_isWall_eq_false hfree, hfree⟩
  · exact fun l cs q hq => l.free_of_mem_trace hq

theorem run_stands_on_free_squares_nook :
    (⟨⟨1, 1⟩, .south⟩ : Pose) ∈ (Level.nook.run Program.throughNook).trace ∧
      Level.nook.board.contains ⟨1, 1⟩ = true ∧ Level.nook.board.isWall ⟨1, 1⟩ = false := by
  have hq : (⟨⟨1, 1⟩, .south⟩ : Pose) ∈ (Level.nook.run Program.throughNook).trace := by decide
  exact ⟨hq, run_stands_on_free_squares.2 Level.nook Program.throughNook _ hq⟩

end RobotMaze
