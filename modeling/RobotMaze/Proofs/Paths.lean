/-
A level can be solved exactly if a path of free squares joins its start to its goal.

That a solved level has a path is an invariant of runs: wherever the robot stands, a
path leads there from the square it set out from.  A step lengthens the path by the
square ahead, which `Pose.Goes` says is free, and everything else leaves the path as it
is.  So blocked moves and conditionals need no attention here.

That a path can be walked is shown by writing the program down.  Before each square the
robot turns to the right until it faces that square (`Heading.rightTurns`), and then it
goes ahead; the move is not blocked because the square is free.  The program has neither
left turns nor conditionals, so these never decide whether a level can be solved.
-/
import Mathlib.Data.List.Chain
import RobotMaze.Proofs.Run

namespace RobotMaze

namespace Terrain

/-- Free squares that lead from one square to another, each next to the one before it. -/
structure IsPath (t : Terrain) (a b : Position) (ps : List Position) : Prop where
  head : ps.head? = some a
  last : ps.getLast? = some b
  free : ∀ p ∈ ps, t.contains p = true ∧ t.isWall p = false
  adjacent : ps.IsChain fun p q => ∃ h : Heading, q = p + h.delta

namespace IsPath

variable {t : Terrain} {a b : Position}

/-! ### Every run leaves a path -/

theorem singleton (hfree : t.isWall a = false) : t.IsPath a a [a] where
  head := rfl
  last := rfl
  free := by
    intro p hp
    rw [List.mem_singleton.mp hp]
    exact ⟨contains_of_isWall_eq_false hfree, hfree⟩
  adjacent := List.isChain_singleton a

/-- A path can be continued by a free square next to its end. -/
theorem snoc {ps : List Position} (hps : t.IsPath a b ps) (h : Heading)
    (hfree : t.isWall (b.step h) = false) : t.IsPath a (b.step h) (ps ++ [b.step h]) where
  head := by
    rw [List.head?_append, hps.head]
    rfl
  last := List.getLast?_concat
  free := by
    intro p hp
    rcases List.mem_append.mp hp with hold | hnew
    · exact hps.free p hold
    · rw [List.mem_singleton.mp hnew]
      exact ⟨contains_of_isWall_eq_false hfree, hfree⟩
  adjacent := by
    refine List.isChain_append.mpr ⟨hps.adjacent, List.isChain_singleton _, ?_⟩
    intro x hx y hy
    rw [hps.last, Option.mem_some_iff] at hx
    rw [List.head?_cons, Option.mem_some_iff] at hy
    rw [← hx, ← hy]
    exact ⟨h, rfl⟩

/-- One command lengthens the path to the robot or leaves it as it is. -/
theorem exists_of_goes {q r : Pose} (hgo : q.Goes t r) (h : ∃ ps, t.IsPath a q.position ps) :
    ∃ ps, t.IsPath a r.position ps := by
  cases hgo with
  | stays => exact h
  | left => exact h
  | right => exact h
  | forward free =>
      obtain ⟨ps, hps⟩ := h
      exact ⟨_, hps.snoc q.heading free⟩

/-- Wherever a run ends that set out from a free square, a path leads there. -/
theorem exists_final {p : Pose} (hfree : t.isWall p.position = false) (cs : Program) :
    ∃ ps, t.IsPath p.position (Program.final t p cs).position ps :=
  Program.final_induct (P := fun q => ∃ ps, t.IsPath p.position q.position ps)
    (fun _ _ hgo h => exists_of_goes hgo h) cs p ⟨_, singleton hfree⟩

/-! ### The next square of a path -/

/-- The second square of a path is a free neighbour of the first, and a path sets out
from it. -/
theorem next {p q : Position} {ps : List Position} (h : t.IsPath a b (p :: q :: ps)) :
    ∃ k : Heading, t.isWall (a.step k) = false ∧ t.IsPath (a.step k) b (q :: ps) := by
  have hp : p = a := Option.some.inj h.head
  obtain ⟨⟨k, hq⟩, hchain⟩ := List.isChain_cons_cons.mp h.adjacent
  have hnext : q = a.step k := by
    rw [hq, hp]
    rfl
  have hfree : ∀ s ∈ q :: ps, t.contains s = true ∧ t.isWall s = false :=
    fun s hs => h.free s (List.mem_cons_of_mem p hs)
  have hlast : (q :: ps).getLast? = some b := by
    rw [← h.last, List.getLast?_cons_cons]
  refine ⟨k, ?_⟩
  rw [← hnext]
  exact ⟨(hfree q List.mem_cons_self).2, rfl, hlast, hfree, hchain⟩

end IsPath

end Terrain

/-! ### Every path can be walked -/

/-- How often to turn right in order to face another way. -/
def Heading.rightTurns (h k : Heading) : Nat :=
  if h = k then 0 else if h.right = k then 1 else if h.opposite = k then 2 else 3

/-- A program of steps and right turns. -/
def Program.TurnsRightOnly (cs : Program) : Prop :=
  ∀ c ∈ cs, c = .act .forward ∨ c = .act .right

namespace Program

/-- Turns right until the robot faces the other way, then goes ahead. -/
def stepTo (h k : Heading) : Program :=
  List.replicate (h.rightTurns k) (.act .right) ++ [.act .forward]

theorem turnsRightOnly_stepTo (h k : Heading) : TurnsRightOnly (stepTo h k) := by
  intro c hc
  rcases List.mem_append.mp hc with hturn | hstep
  · exact Or.inr (List.eq_of_mem_replicate hturn)
  · exact Or.inl (List.mem_singleton.mp hstep)

/-- However the robot faces, it can turn to any side by right turns. -/
theorem final_rightTurns (t : Terrain) (p : Pose) (k : Heading) :
    final t p (List.replicate (p.heading.rightTurns k) (.act .right)) = p.turnedTo k := by
  obtain ⟨a, h⟩ := p
  cases h <;> cases k <;> rfl

/-- A free square next to the robot is reached, whichever way the robot faces. -/
theorem final_stepTo {t : Terrain} {p : Pose} {k : Heading}
    (hfree : t.isWall (p.position.step k) = false) :
    final t p (stepTo p.heading k) = ⟨p.position.step k, k⟩ := by
  unfold stepTo
  rw [final_append, final_rightTurns]
  show (if t.isWall (p.position.step k) then p.turnedTo k else ⟨p.position.step k, k⟩) = _
  rw [hfree]
  rfl

/-- Every path is walked by some program of steps and right turns. -/
theorem exists_final_of_isPath {t : Terrain} {b : Position} {ps : List Position} :
    ∀ {p : Pose}, t.IsPath p.position b ps →
      ∃ cs, TurnsRightOnly cs ∧ (final t p cs).position = b := by
  induction ps with
  | nil =>
      intro p hpath
      cases hpath.head
  | cons a ps ih =>
      intro p hpath
      cases ps with
      | nil =>
          have ha : a = p.position := Option.some.inj hpath.head
          have hb : a = b := Option.some.inj hpath.last
          exact ⟨[], fun c hc => absurd hc List.not_mem_nil, ha.symm.trans hb⟩
      | cons q ps =>
          obtain ⟨k, hfree, hrest⟩ := hpath.next
          obtain ⟨cs, honly, hend⟩ := ih (p := ⟨p.position.step k, k⟩) hrest
          refine ⟨stepTo p.heading k ++ cs, ?_, ?_⟩
          · exact List.forall_mem_append.mpr ⟨turnsRightOnly_stepTo _ _, honly⟩
          · rw [final_append, final_stepTo hfree]
            exact hend

end Program

/--
**A level can be solved exactly if a path leads from its start to its goal,** and then it
can be solved by steps and right turns alone.
-/
theorem Level.solvable_iff_path (l : Level) :
    ((∃ cs, (l.run cs).solved = true) ↔ ∃ ps, l.board.IsPath l.start.position l.goal ps) ∧
    ((∃ ps, l.board.IsPath l.start.position l.goal ps) ↔
      ∃ cs, Program.TurnsRightOnly cs ∧ (l.run cs).solved = true) := by
  have hpath : (∃ cs, (l.run cs).solved = true) →
      ∃ ps, l.board.IsPath l.start.position l.goal ps := by
    intro h
    obtain ⟨cs, hcs⟩ := h
    rw [← run_solved_iff.mp hcs]
    exact Terrain.IsPath.exists_final l.board.start_free cs
  have hwalk : (∃ ps, l.board.IsPath l.start.position l.goal ps) →
      ∃ cs, Program.TurnsRightOnly cs ∧ (l.run cs).solved = true := by
    intro h
    obtain ⟨ps, hps⟩ := h
    obtain ⟨cs, honly, hend⟩ := Program.exists_final_of_isPath hps
    exact ⟨cs, honly, run_solved_iff.mpr hend⟩
  have hany : (∃ cs, Program.TurnsRightOnly cs ∧ (l.run cs).solved = true) →
      ∃ cs, (l.run cs).solved = true := by
    intro h
    obtain ⟨cs, -, hcs⟩ := h
    exact ⟨cs, hcs⟩
  exact ⟨⟨hpath, fun h => hany (hwalk h)⟩, ⟨hwalk, fun h => hpath (hany h)⟩⟩

theorem Level.solvable_iff_path_nook :
    nook.board.IsPath nook.start.position nook.goal [⟨0, 0⟩, ⟨1, 0⟩, ⟨1, 1⟩, ⟨2, 1⟩] ∧
      ∃ cs, Program.TurnsRightOnly cs ∧ (nook.run cs).solved = true := by
  have hpath : nook.board.IsPath nook.start.position nook.goal
      [⟨0, 0⟩, ⟨1, 0⟩, ⟨1, 1⟩, ⟨2, 1⟩] := {
    head := rfl
    last := rfl
    free := by decide
    adjacent := by
      refine .cons_cons ⟨.east, rfl⟩ (.cons_cons ⟨.south, rfl⟩ (.cons_cons ⟨.east, rfl⟩ ?_))
      exact .singleton _ }
  exact ⟨hpath, (solvable_iff_path nook).2.mp ⟨_, hpath⟩⟩

end RobotMaze
