/-
How far a run gets.

Squares are as far apart as the columns and the rows between them, added up.  A step to the
next square has length one, and all else that a robot does has length zero.  Lengths add up
along a run, the distance of its ends can only be smaller because the robot may come back,
and whenever it does so it gives away an even number of steps.  `ReachedIn` says both, that
the distance is not larger and that it differs by an even number, and it is made to be
composed: `ReachedIn.trans` is the triangle inequality together with its parity.

What lies between two poses of a trace is the trace of a run of its own
(`steps_trace_between`), so a statement about whole runs is one about all segments.

The second bound does not look at the trace but at the program.  Only a step ahead changes
the square, alone or as the body of a conditional, and one that waits for a wall ahead is
never taken.
-/
import RobotMaze.Proofs.Idle

namespace RobotMaze

namespace Position

/-- The columns and the rows between two squares, added up. -/
def distance (p q : Position) : Nat :=
  (p.x - q.x).natAbs + (p.y - q.y).natAbs

@[simp] theorem distance_self (p : Position) : p.distance p = 0 := by
  simp [distance]

@[simp] theorem distance_step (p : Position) (h : Heading) : p.distance (p.step h) = 1 := by
  cases h <;> simp only [distance, step, Heading.delta, add_x, add_y] <;> omega

theorem distance_triangle (p q r : Position) : p.distance r ≤ p.distance q + q.distance r := by
  unfold distance
  omega

theorem natAbs_sub_parity (a b c : Int) :
    (a - c).natAbs % 2 = ((a - b).natAbs + (b - c).natAbs) % 2 := by
  omega

/-- A detour is longer by an even number. -/
theorem distance_parity (p q r : Position) :
    p.distance r % 2 = (p.distance q + q.distance r) % 2 := by
  unfold distance
  rw [Nat.add_mod, natAbs_sub_parity p.x q.x r.x, natAbs_sub_parity p.y q.y r.y, ← Nat.add_mod,
    Nat.add_add_add_comm]

theorem step_ne (p : Position) (h : Heading) : p.step h ≠ p := by
  intro he
  have hone := distance_step p h
  rw [he, distance_self] at hone
  omega

/-- A square is no further from another than this many steps, and if it is nearer, then by
an even number. -/
structure ReachedIn (p q : Position) (n : Nat) : Prop where
  distance_le : p.distance q ≤ n
  parity : p.distance q % 2 = n % 2

namespace ReachedIn

variable {p q r : Position} {m n : Nat}

theorem refl (p : Position) : p.ReachedIn p 0 := by
  constructor <;> simp

theorem trans (h : p.ReachedIn q m) (h' : q.ReachedIn r n) : p.ReachedIn r (m + n) where
  distance_le := by
    have htriangle := distance_triangle p q r
    have hpq := h.distance_le
    have hqr := h'.distance_le
    omega
  parity := by
    have hparity := distance_parity p q r
    have hpq := h.parity
    have hqr := h'.parity
    omega

end ReachedIn

end Position

/-- The number of steps of a trace that changed the square, from the pose with the first
index to the pose with the second. -/
def Trace.movesBetween (r : Trace) (i j : Nat) : Nat :=
  ((r.steps.take j).drop i).countP fun s => s.1.position != s.2.position

/-- Whether a command can change the square at all. -/
def Command.mayAdvance : Command → Bool
  | act a => a == .forward
  | ifWall s a => a == .forward && s != .ahead

/-- One step is as long as the square ahead is away, or has no length. -/
theorem Pose.Goes.reachedIn {t : Terrain} {p q : Pose} (h : p.Goes t q) :
    p.position.ReachedIn q.position (if p.position != q.position then 1 else 0) := by
  cases h with
  | stays => simpa using Position.ReachedIn.refl p.position
  | left => simpa [Pose.turnedTo] using Position.ReachedIn.refl p.position
  | right => simpa [Pose.turnedTo] using Position.ReachedIn.refl p.position
  | forward free =>
      have hne : p.position ≠ p.ahead := (p.position.step_ne p.heading).symm
      have hone : p.position.distance p.ahead = 1 := p.position.distance_step p.heading
      constructor <;> simp [Pose.movedTo, hne, hone]

theorem Command.position_eq_of_not_mayAdvance {t : Terrain} {p : Pose} {c : Command}
    (h : c.mayAdvance = false) : (c.apply t p).position = p.position := by
  by_cases ha : c.action = .forward
  · cases c with
    | act a =>
        rw [show a = .forward from ha] at h
        simp [mayAdvance] at h
    | ifWall s a =>
        rw [show a = .forward from ha] at h ⊢
        have hs : s = .ahead := by simpa [mayAdvance] using h
        rw [hs, apply_ifWall_ahead_forward]
  · exact position_apply ha

namespace Program

variable {t : Terrain}

/-! ### Segments of a run -/

theorem take_append_drop_take {cs : Program} {i j : Nat} (hij : i ≤ j) :
    cs.take i ++ (cs.take j).drop i = cs.take j := by
  have hcut := List.take_append_drop i (cs.take j)
  rw [List.take_take, Nat.min_eq_left hij] at hcut
  exact hcut

theorem final_between {cs : Program} {i j : Nat} (hij : i ≤ j) (p : Pose) :
    final t (final t p (cs.take i)) ((cs.take j).drop i) = final t p (cs.take j) := by
  rw [← final_append, take_append_drop_take hij]

/-- The steps between two poses of a run are those of the commands between them. -/
theorem steps_trace_between {cs : Program} {i j : Nat} (hij : i ≤ j) (hj : j ≤ cs.length)
    (p : Pose) :
    ((trace t p cs).steps.take j).drop i
      = (trace t (final t p (cs.take i)) ((cs.take j).drop i)).steps := by
  have hlength : ∀ k, k ≤ cs.length → (trace t p (cs.take k)).steps.length = k := by
    intro k hk
    rw [length_steps_trace, List.length_take, Nat.min_eq_left hk]
  have hbefore : (trace t p cs).steps.take j = (trace t p (cs.take j)).steps := by
    rw [← List.take_left' (hlength j hj), ← steps_trace_append, List.take_append_drop]
  rw [hbefore, ← take_append_drop_take hij, steps_trace_append,
    List.drop_left' (hlength i (Nat.le_trans hij hj)), take_append_drop_take hij]

/-! ### Lengths along a run -/

/-- The end of a run is reached in as many steps as changed the square. -/
theorem reachedIn_final (cs : Program) : ∀ p : Pose,
    p.position.ReachedIn (final t p cs).position
      ((trace t p cs).steps.countP fun s => s.1.position != s.2.position) := by
  induction cs with
  | nil => exact fun p => Position.ReachedIn.refl p.position
  | cons c cs ih =>
      intro p
      rw [steps_trace_cons, List.countP_cons, Nat.add_comm]
      exact (c.goes_apply t p).reachedIn.trans (ih _)

/-- There are at most as many steps to another square as commands that may take one. -/
theorem countP_moved_le (cs : Program) : ∀ p : Pose,
    ((trace t p cs).steps.countP fun s => s.1.position != s.2.position)
      ≤ cs.countP Command.mayAdvance := by
  induction cs with
  | nil => exact fun p => Nat.le_refl 0
  | cons c cs ih =>
      intro p
      have hrest := ih (c.apply t p)
      rw [steps_trace_cons, List.countP_cons, List.countP_cons]
      by_cases hc : c.mayAdvance = true
      · rw [if_pos hc]
        split <;> omega
      · have hstay := Command.position_eq_of_not_mayAdvance (t := t) (p := p)
          (Bool.eq_false_iff.mpr hc)
        simp [hc, hstay]
        omega

end Program

namespace Level

/-- Between any two poses of a run, the squares are as far apart as the steps allow. -/
theorem reachedIn_run (l : Level) (cs : Program) {i j : Nat} {p q : Pose} (hij : i ≤ j)
    (hp : (l.run cs).trace[i]? = some p) (hq : (l.run cs).trace[j]? = some q) :
    p.position.ReachedIn q.position ((l.run cs).trace.movesBetween i j) := by
  have hj : j ≤ cs.length := by
    have hlt := (List.getElem?_eq_some_iff.mp hq).1
    have hlength : (l.run cs).trace.length = cs.length + 1 := Program.length_trace _ _ _
    omega
  have hpend := (Program.getElem?_trace (Nat.le_trans hij hj)).symm.trans hp
  have hqend := (Program.getElem?_trace hj).symm.trans hq
  rw [← Option.some.inj hpend, ← Option.some.inj hqend, ← Program.final_between hij]
  unfold Trace.movesBetween
  show Position.ReachedIn _ _
    ((((Program.trace l.board.toTerrain l.start cs).steps.take j).drop i).countP _)
  rw [Program.steps_trace_between hij hj]
  exact Program.reachedIn_final _ _

/--
**A robot is never further away than it went, and only by an even number nearer.**  This
holds between any two poses of a run, so a run that solves a level goes at least as many
squares as the goal is away.  It goes at most as many squares as the program has commands
that step ahead and do not wait for a wall to do so.
-/
theorem run_distance_and_parity (l : Level) (cs : Program) :
    (∀ (i j : Nat) (p q : Pose), i ≤ j →
      (l.run cs).trace[i]? = some p → (l.run cs).trace[j]? = some q →
        p.position.ReachedIn q.position ((l.run cs).trace.movesBetween i j)) ∧
    (l.run cs).cellsMoved ≤ cs.countP Command.mayAdvance ∧
    ((l.run cs).solved = true →
      l.start.position.ReachedIn l.goal (l.run cs).cellsMoved) := by
  refine ⟨?_, Program.countP_moved_le cs l.start, ?_⟩
  · intro i j p q hij hp hq
    exact l.reachedIn_run cs hij hp hq
  · intro hsolved
    rw [← run_solved_iff.mp hsolved]
    exact Program.reachedIn_final cs l.start

/-- From the second pose to the last one the robot goes two squares and turns twice. -/
theorem run_distance_and_parity_nook :
    let r := (nook.run Program.throughNook).trace
    1 ≤ 5 ∧ r[1]? = some ⟨⟨1, 0⟩, .east⟩ ∧ r[5]? = some ⟨⟨2, 1⟩, .east⟩ ∧
      (⟨1, 0⟩ : Position).ReachedIn ⟨2, 1⟩ (r.movesBetween 1 5) ∧ r.movesBetween 1 5 = 2 ∧
      (nook.run Program.throughNook).solved = true ∧
      nook.start.position.ReachedIn nook.goal (nook.run Program.throughNook).cellsMoved := by
  intro r
  have hfirst : r[1]? = some ⟨⟨1, 0⟩, .east⟩ := rfl
  have hlast : r[5]? = some ⟨⟨2, 1⟩, .east⟩ := rfl
  have hsolved : (nook.run Program.throughNook).solved = true := rfl
  obtain ⟨hsegment, -, hgoal⟩ := run_distance_and_parity nook Program.throughNook
  exact ⟨by omega, hfirst, hlast, hsegment 1 5 _ _ (by omega) hfirst hlast, rfl, hsolved,
    hgoal hsolved⟩

end Level

end RobotMaze
