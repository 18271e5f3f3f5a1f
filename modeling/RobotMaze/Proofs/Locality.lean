/-
A run sees no further than its program is long.

A command looks at a square next to the robot and nowhere else, at the square ahead or at a
sensed one, and takes the robot to a neighbour at most.  So a program cannot tell two
terrains apart whose walls are the same up to a distance of as many squares as it has
commands.  What lies beyond may be free, a wall or the outside of a smaller terrain.

The induction follows the run.  With every command the distance in which the terrains agree
shrinks by one, and so does what is left of the program; the robot has moved by at most one
square, so the smaller surroundings of its new square lie within the old ones
(`AgreeNear.of_goes`).
-/
import RobotMaze.Proofs.Distance

namespace RobotMaze

namespace Terrain

/-- Two terrains have the same walls up to this distance from a square. -/
def AgreeNear (t u : Terrain) (p : Position) (n : Nat) : Prop :=
  ∀ q, p.distance q ≤ n → t.isWall q = u.isWall q

namespace AgreeNear

variable {t u : Terrain} {n : Nat}

/-! ### One command -/

theorem isWall_neighbour {p : Pose} (h : AgreeNear t u p.position (n + 1)) (k : Heading) :
    t.isWall (p.neighbour k) = u.isWall (p.neighbour k) := by
  refine h _ ?_
  have hone : p.position.distance (p.neighbour k) = 1 := p.position.distance_step k
  omega

theorem apply_action {p : Pose} (h : AgreeNear t u p.position (n + 1)) (a : Action) :
    a.apply t p = a.apply u p := by
  cases a with
  | forward =>
      have hahead : t.isWall p.ahead = u.isWall p.ahead := h.isWall_neighbour p.heading
      simp only [Action.apply, hahead]
  | left => rfl
  | right => rfl

/-- A command does the same on both terrains. -/
theorem apply_command {p : Pose} (h : AgreeNear t u p.position (n + 1)) (c : Command) :
    c.apply t p = c.apply u p := by
  cases c with
  | act a => exact h.apply_action a
  | ifWall s a =>
      have hsensed : t.senses p s = u.senses p s := h.isWall_neighbour (p.heading.toward s)
      simp only [Command.apply, hsensed, h.apply_action a]

/-- Around the robot's next square there is agreement for one square less. -/
theorem of_goes {p q : Pose} (h : AgreeNear t u p.position (n + 1)) (hgo : p.Goes t q) :
    AgreeNear t u q.position n := by
  intro r hr
  refine h r ?_
  have htriangle := p.position.distance_triangle q.position r
  have hstep : p.position.distance q.position ≤ 1 := by
    refine Nat.le_trans hgo.reachedIn.distance_le ?_
    split <;> omega
  omega

/-! ### The whole run -/

theorem trace_eq {cs : Program} : ∀ {p : Pose}, AgreeNear t u p.position cs.length →
    Program.trace t p cs = Program.trace u p cs := by
  induction cs with
  | nil => exact fun _ => rfl
  | cons c cs ih =>
      intro p h
      rw [List.length_cons] at h
      rw [Program.trace_cons, Program.trace_cons, ← h.apply_command c,
        ih (h.of_goes (c.goes_apply t p))]

end AgreeNear

end Terrain

namespace Level

/--
**A run depends on nothing that is further away than its program is long.**  Two levels
with the same start, whose boards have the same walls on all squares up to that distance,
inside and outside, have the same run.
-/
theorem run_depends_on_walls_near {l l' : Level} {cs : Program} (hstart : l'.start = l.start)
    (hwalls : ∀ q, l.start.position.distance q ≤ cs.length →
      l.board.isWall q = l'.board.isWall q) :
    (l.run cs).trace = (l'.run cs).trace := by
  show Program.trace l.board.toTerrain l.start cs = Program.trace l'.board.toTerrain l'.start cs
  rw [hstart]
  exact Terrain.AgreeNear.trace_eq hwalls

/-- A larger level with other walls and another goal, all of them too far away to matter to
the first two commands. -/
theorem run_depends_on_walls_near_nook :
    let hall : Level := {
      name := "hall"
      board := Board.ofTest 5 4 [⟨2, 0⟩, ⟨0, 2⟩, ⟨2, 1⟩].contains ⟨0, 0⟩ ⟨4, 3⟩
        (by decide) (by decide)
      facing := .east
      palette := Palette.ofKinds [.turnLeft]
      cap := 1
      solution := none }
    let cs : Program := Program.throughNook.take 2
    hall.start = nook.start ∧
      (∀ q, nook.start.position.distance q ≤ cs.length →
        nook.board.isWall q = hall.board.isWall q) ∧
      nook.board.isWall ⟨2, 1⟩ ≠ hall.board.isWall ⟨2, 1⟩ ∧
      (nook.run cs).trace = (hall.run cs).trace := by
  intro hall cs
  have hnear : ∀ x ∈ [-2, -1, 0, 1, 2], ∀ y ∈ [-2, -1, 0, 1, 2],
      (0 - x).natAbs + (0 - y).natAbs ≤ 2 →
        nook.board.isWall ⟨x, y⟩ = hall.board.isWall ⟨x, y⟩ := by
    decide
  have hwalls : ∀ q, nook.start.position.distance q ≤ cs.length →
      nook.board.isWall q = hall.board.isWall q := by
    intro q hq
    have hdistance : (0 - q.x).natAbs + (0 - q.y).natAbs ≤ 2 := hq
    exact hnear q.x (by simp; omega) q.y (by simp; omega) hdistance
  exact ⟨rfl, hwalls, by decide, run_depends_on_walls_near rfl hwalls⟩

end Level

end RobotMaze
