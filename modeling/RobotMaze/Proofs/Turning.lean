/-
Turning on the spot.

Turns do not look at the walls and do not move the robot, so all that a block of turns does
is to change the heading, and it changes it by as many quarters as there are right turns
more than left ones.  Their order does not matter, and four quarters to one side are none
(`Heading.turned`, which counts quarters modulo four).

The rest of a program sees nothing of a block but the heading it leaves behind.  A block
whose quarters are a multiple of four leaves the pose as it was, and can be inserted anywhere
and deleted anywhere: what comes after it runs through the same poses.
-/
import Mathlib.Dynamics.PeriodicPts.Defs
import RobotMaze.Proofs.Resumption
import RobotMaze.Proofs.Rules

namespace RobotMaze

namespace Heading

/-- The heading that is this many quarters further clockwise; a negative number counts
counter-clockwise. -/
def turned (h : Heading) (quarters : Int) : Heading :=
  right^[(quarters % 4).toNat] h

theorem isPeriodicPt_right (h : Heading) : Function.IsPeriodicPt right 4 h := by
  cases h <;> rfl

/-- Right turns can be counted by any number that agrees with the quarters modulo four. -/
theorem turned_eq_iterate (h : Heading) {quarters : Int} {n : Nat} (hn : quarters % 4 = n % 4) :
    h.turned quarters = right^[n] h := by
  have hmod : (quarters % 4).toNat = n % 4 := by omega
  unfold turned
  rw [hmod]
  exact h.isPeriodicPt_right.iterate_mod_apply n

theorem turned_one (h : Heading) : h.turned 1 = h.right := rfl

/-- A quarter counter-clockwise is three quarters clockwise. -/
theorem turned_neg_one (h : Heading) : h.turned (-1) = h.left :=
  h.right_right_right

theorem turned_turned (h : Heading) (a b : Int) : (h.turned a).turned b = h.turned (a + b) := by
  have hsum : (a + b) % 4 = (((b % 4).toNat + (a % 4).toNat : Nat) : Int) % 4 := by omega
  rw [turned_eq_iterate h hsum, Function.iterate_add_apply]
  rfl

theorem turned_of_dvd {quarters : Int} (h : Heading) (hfull : 4 ∣ quarters) :
    h.turned quarters = h := by
  unfold turned
  rw [Int.emod_eq_zero_of_dvd hfull]
  rfl

end Heading

namespace Program

variable {t : Terrain}

/-- A block of turns. -/
def TurnsOnly (ts : Program) : Prop :=
  ∀ c ∈ ts, c = .act .left ∨ c = .act .right

/-- The quarters that the turns of a program add up to, clockwise. -/
def quarters (ts : Program) : Int :=
  ts.count (.act .right) - ts.count (.act .left)

theorem quarters_cons (c : Command) (ts : Program) :
    quarters (c :: ts) = quarters [c] + quarters ts := by
  unfold quarters
  rw [← List.singleton_append, List.count_append, List.count_append]
  omega

theorem TurnsOnly.action_ne {ts : Program} (h : ts.TurnsOnly) {c : Command} (hc : c ∈ ts) :
    c.action ≠ .forward := by
  rcases h c hc with rfl | rfl
  · exact Action.noConfusion
  · exact Action.noConfusion

theorem apply_turn {c : Command} (h : c = .act .left ∨ c = .act .right) (p : Pose) :
    c.apply t p = p.turnedTo (p.heading.turned (quarters [c])) := by
  rcases h with rfl | rfl
  · exact congrArg p.turnedTo p.heading.turned_neg_one.symm
  · exact congrArg p.turnedTo p.heading.turned_one.symm

/-- Turns leave the robot on its square, with its heading advanced by their quarters. -/
theorem final_turns {ts : Program} : ∀ {p : Pose}, ts.TurnsOnly →
    final t p ts = p.turnedTo (p.heading.turned ts.quarters) := by
  induction ts with
  | nil => exact fun _ => rfl
  | cons c ts ih =>
      intro p h
      obtain ⟨hc, hts⟩ := List.forall_mem_cons.mp h
      rw [final_cons, apply_turn hc, ih hts, quarters_cons c ts, ← Heading.turned_turned]
      rfl

/-- No step of a block of turns changes the square. -/
theorem countP_moved_turns {ts : Program} (h : ts.TurnsOnly) (p : Pose) :
    ((trace t p ts).steps.countP fun s => s.1.position != s.2.position) = 0 := by
  refine List.countP_eq_zero.mpr fun s hs => ?_
  obtain ⟨c, hc, hstep⟩ := exists_command_of_mem_steps hs
  have hsame : s.2.position = s.1.position := by
    rw [hstep]
    exact Command.position_apply (h.action_ne hc)
  simp [hsame]

end Program

namespace Level

/--
**Turns add up modulo four.**  During a block of turns the robot stays on its square, and
after each of them its heading is the one before the block advanced by the quarters so far,
one for each right turn and one back for each left turn.  A block whose quarters are a
multiple of four can be left out: the program ends in the same pose with the same success,
has moved over as many squares, and what follows the block runs through the same poses.
-/
theorem run_turns_add_up (l : Level) (before behind : Program) {ts : Program}
    (hturns : ts.TurnsOnly) :
    let s := (l.run before).final
    let whole := l.run (before ++ ts ++ behind)
    let without := l.run (before ++ behind)
    (∀ j, j ≤ ts.length → whole.trace[before.length + j]?
      = some ⟨s.position, s.heading.turned (Program.quarters (ts.take j))⟩) ∧
    (4 ∣ ts.quarters →
      whole.final = without.final ∧
      whole.solved = without.solved ∧
      whole.cellsMoved = without.cellsMoved ∧
      whole.trace.drop (before ++ ts).length = without.trace.drop before.length) := by
  intro s whole without
  constructor
  · intro j hj
    have hcut : (before ++ ts ++ behind).take (before.length + j) = before ++ ts.take j := by
      rw [List.append_assoc, List.take_length_add_append, List.take_append_of_le_length hj]
    have hlength : before.length + j ≤ (before ++ ts ++ behind).length := by
      rw [List.length_append, List.length_append]
      omega
    have hfirst : Program.TurnsOnly (ts.take j) := fun c hc => hturns c (List.mem_of_mem_take hc)
    show (Program.trace _ _ _)[_]? = _
    rw [Program.getElem?_trace hlength, hcut, Program.final_append, Program.final_turns hfirst]
    rfl
  · intro hfull
    have hback : Program.final l.board.toTerrain l.start (before ++ ts) = s := by
      rw [Program.final_append, Program.final_turns hturns, Heading.turned_of_dvd _ hfull]
      rfl
    have hfinal : whole.final = without.final := by
      show Program.final _ _ _ = Program.final _ _ _
      rw [Program.final_append, hback, Program.final_append]
      rfl
    refine ⟨hfinal, congrArg (fun p : Pose => p.position == l.goal) hfinal, ?_, ?_⟩
    · show (Program.trace _ _ _).steps.countP _ = (Program.trace _ _ _).steps.countP _
      rw [Program.steps_trace_append, hback, Program.steps_trace_append,
        Program.steps_trace_append, List.countP_append, List.countP_append, List.countP_append,
        Program.countP_moved_turns hturns, Nat.add_zero]
      rfl
    · show (Program.trace _ _ _).drop _ = (Program.trace _ _ _).drop _
      rw [Program.drop_trace_append, hback, Program.drop_trace_append]
      rfl

/-- Six turns in the middle of a program, five to the right and one to the left. -/
theorem run_turns_add_up_nook :
    let ts : Program := [.right, .right, .left, .right, .right, .right].map .act
    let before := Program.throughNook.take 2
    let behind := Program.throughNook.drop 2
    let whole := nook.run (before ++ ts ++ behind)
    ts.TurnsOnly ∧ 4 ∣ ts.quarters ∧ 3 ≤ ts.length ∧
      whole.trace[before.length + 3]? = some ⟨⟨1, 0⟩, .west⟩ ∧
      whole.final = (nook.run Program.throughNook).final ∧ whole.solved = true := by
  intro ts before behind whole
  have hturns : ts.TurnsOnly := by
    unfold Program.TurnsOnly
    decide
  have hfull : 4 ∣ ts.quarters := by decide
  obtain ⟨hduring, hwithout⟩ := run_turns_add_up nook before behind hturns
  obtain ⟨hfinal, hsolved, -, -⟩ := hwithout hfull
  exact ⟨hturns, hfull, by decide, hduring 3 (by decide), hfinal, hsolved⟩

end Level

end RobotMaze
