/-
The way back.

A robot that has gone somewhere can go back: it turns round, does everything that it did in
the opposite order, turning to the other side wherever it turned, and turns round again.
The program of the way back is made from the commands alone, without a look at the board.

It works because each command can be undone by its counterpart (`Action.apply_mirrored`).
A turn to one side is undone by a turn to the other, whichever way the robot faces.  A step
is undone by a step of the robot that faces the other way, and nothing is in its way then:
the square that it comes from was free, since the robot stood there.  So the steps of the
way back are the old steps, the last one first, with before and after exchanged and every
pose turned round (`Program.run_back`); what is counted in them is the same.

The commands must be plain actions that did something.  A blocked move would be undone by a
move that nothing blocks, and a conditional by one that senses another square.
-/
import RobotMaze.Proofs.Account
import RobotMaze.Proofs.Redrawing

namespace RobotMaze

/-- The same square, with the back to where the face was. -/
def Pose.reversed (p : Pose) : Pose :=
  p.turnedTo p.heading.opposite

namespace Program

/-- The commands of the way back, for a robot that has turned round. -/
def back (cs : Program) : Program :=
  (cs.map Command.mirrored).reverse

def turnRound : Program :=
  [.act .right, .act .right]

/-- There, and back to the start in the first pose. -/
def thereAndBack (cs : Program) : Program :=
  cs ++ turnRound ++ cs.back ++ turnRound

end Program

namespace Heading

theorem left_opposite_right (h : Heading) : h.left.opposite.right = h.opposite := by
  cases h <;> rfl

theorem right_opposite_left (h : Heading) : h.right.opposite.left = h.opposite := by
  cases h <;> rfl

end Heading

theorem Position.step_opposite (p : Position) (h : Heading) : (p.step h).step h.opposite = p := by
  cases h <;> ext <;> simp only [step, Heading.delta, Heading.opposite, add_x, add_y] <;> omega

namespace Pose

theorem reversed_reversed (p : Pose) : p.reversed.reversed = p := by
  simp [reversed, turnedTo, Heading.opposite_opposite]

theorem reversed_injective {p q : Pose} (h : p.reversed = q.reversed) : p = q := by
  rw [← p.reversed_reversed, h, q.reversed_reversed]

end Pose

/-- An action that did something is undone by its counterpart. -/
theorem Action.apply_mirrored {t : Terrain} {p : Pose} (hfree : t.isWall p.position = false)
    {a : Action} (hmoved : a.apply t p ≠ p) :
    a.mirrored.apply t (a.apply t p).reversed = p.reversed := by
  cases a with
  | forward =>
      have hahead : t.isWall p.ahead = false := by
        by_contra hwall
        exact hmoved (apply_eq_self_iff.mpr ⟨rfl, by simpa using hwall⟩)
      have hgone : forward.apply t p = p.movedTo p.ahead := by simp [Action.apply, hahead]
      have hbehind : (p.movedTo p.ahead).reversed.ahead = p.position :=
        p.position.step_opposite p.heading
      rw [hgone]
      simp only [mirrored, Action.apply, hbehind, hfree]
      rfl
  | left => exact congrArg (Pose.mk p.position) p.heading.left_opposite_right
  | right => exact congrArg (Pose.mk p.position) p.heading.right_opposite_left

namespace Program

variable {t : Terrain}

theorem back_cons (c : Command) (cs : Program) : back (c :: cs) = back cs ++ [c.mirrored] := by
  simp [back]

/-- A step as it looks on the way back. -/
def undone (s : Pose × Pose) : Pose × Pose :=
  (s.2.reversed, s.1.reversed)

theorem final_turnRound (t : Terrain) (p : Pose) : final t p turnRound = p.reversed := by
  show p.turnedTo p.heading.right.right = p.reversed
  rw [Heading.right_right]
  rfl

/-- The robot turns round by two right turns on one square. -/
theorem steps_turnRound (t : Terrain) (p : Pose) :
    (trace t p turnRound).steps
      = [(p, p.turnedTo p.heading.right), (p.turnedTo p.heading.right, p.reversed)] := by
  rw [← final_turnRound t]
  rfl

/-- The way back ends where the way there began, and its steps are the old ones undone. -/
theorem run_back {cs : Program} : ∀ {p : Pose}, (∀ c ∈ cs, ∃ a, c = .act a) →
    t.isWall p.position = false → (∀ s ∈ (trace t p cs).steps, s.1 ≠ s.2) →
      final t (final t p cs).reversed cs.back = p.reversed ∧
      (trace t (final t p cs).reversed cs.back).steps
        = ((trace t p cs).steps.map undone).reverse := by
  induction cs with
  | nil => exact fun _ _ _ => ⟨rfl, rfl⟩
  | cons c cs ih =>
      intro p hplain hfree hmoved
      obtain ⟨⟨a, rfl⟩, hplains⟩ := List.forall_mem_cons.mp hplain
      rw [steps_trace_cons] at hmoved
      obtain ⟨hstep, hsteps⟩ := List.forall_mem_cons.mp hmoved
      have hnext : t.isWall (a.apply t p).position = false := by
        rcases (a.goes_apply t p).position with hsame | hother
        · rw [hsame]
          exact hfree
        · exact hother
      obtain ⟨hend, hback⟩ := ih hplains hnext hsteps
      have hundo : (Command.mirrored (.act a)).apply t (a.apply t p).reversed = p.reversed :=
        Action.apply_mirrored hfree hstep.symm
      have hfinal : final t p (.act a :: cs) = final t (a.apply t p) cs := rfl
      rw [back_cons, hfinal, final_append, steps_trace_append, hend, hback, final_cons,
        steps_trace_cons, steps_trace_cons, hundo, List.map_cons, List.reverse_cons]
      exact ⟨rfl, rfl⟩

theorem final_thereAndBack {cs : Program} {p : Pose} (hplain : ∀ c ∈ cs, ∃ a, c = .act a)
    (hfree : t.isWall p.position = false) (hmoved : ∀ s ∈ (trace t p cs).steps, s.1 ≠ s.2) :
    final t p cs.thereAndBack = p := by
  unfold thereAndBack
  rw [final_append, final_append, final_append, final_turnRound, final_turnRound,
    (run_back hplain hfree hmoved).1, Pose.reversed_reversed]

/-! ### What the way back has in common with the way there -/

theorem rests_undone (s : Pose × Pose) : ((undone s).1 == (undone s).2) = (s.1 == s.2) := by
  rw [Bool.eq_iff_iff, beq_iff_eq, beq_iff_eq]
  exact ⟨fun h => (Pose.reversed_injective h).symm, fun h => congrArg Pose.reversed h.symm⟩

theorem moves_undone (s : Pose × Pose) :
    ((undone s).1.position != (undone s).2.position) = (s.1.position != s.2.position) :=
  bne_comm

theorem countP_rests_turnRound (t : Terrain) (p : Pose) :
    ((trace t p turnRound).steps.countP fun s => s.1 == s.2) = 0 := by
  have hright : p.heading ≠ p.heading.right := p.heading.right_ne.symm
  have hreversed : p.heading.right ≠ p.heading.opposite := by
    rw [← Heading.right_right]
    exact p.heading.right.right_ne.symm
  simp [steps_turnRound, Pose.ext_iff, Pose.turnedTo, Pose.reversed, hright, hreversed]

theorem countP_moves_turnRound (t : Terrain) (p : Pose) :
    ((trace t p turnRound).steps.countP fun s => s.1.position != s.2.position) = 0 := by
  simp [steps_turnRound, Pose.turnedTo, Pose.reversed]

/-- What turns do not count for, and what an undone step counts for as much as the step, is
counted twice. -/
theorem countP_thereAndBack {cs : Program} {p : Pose} (hplain : ∀ c ∈ cs, ∃ a, c = .act a)
    (hfree : t.isWall p.position = false) (hmoved : ∀ s ∈ (trace t p cs).steps, s.1 ≠ s.2)
    {f : Pose × Pose → Bool} (hundone : ∀ s, f (undone s) = f s)
    (hturn : ∀ q : Pose, (trace t q turnRound).steps.countP f = 0) :
    (trace t p cs.thereAndBack).steps.countP f = 2 * (trace t p cs).steps.countP f := by
  have hback : (((trace t p cs).steps.map undone).reverse).countP f
      = (trace t p cs).steps.countP f := by
    rw [List.countP_reverse, List.countP_map]
    exact List.countP_congr fun s _ => by rw [Function.comp_apply, hundone]
  unfold thereAndBack
  rw [steps_trace_append, steps_trace_append, steps_trace_append, final_append, final_turnRound,
    (run_back hplain hfree hmoved).2]
  simp only [List.countP_append, hturn, hback]
  omega

end Program

namespace Level

/--
**Whoever walks can walk back.**  If every command of a program of plain actions does
something, the robot returns to its start and to its first heading by turning round, by the
same actions in the opposite order with left and right exchanged, and by turning round
again.  Nothing blocks it on the way, and it goes as many squares back as it went there.
-/
theorem run_returns_to_start {l : Level} {cs : Program} (hplain : ∀ c ∈ cs, ∃ a, c = .act a)
    (hidle : (l.run cs).idleSteps = 0) :
    (l.run cs.thereAndBack).final = l.start ∧
    (l.run cs.thereAndBack).idleSteps = 0 ∧
    (l.run cs.thereAndBack).cellsMoved = 2 * (l.run cs).cellsMoved := by
  have hfree : l.board.isWall l.start.position = false := l.board.start_free
  have hmoved : ∀ s ∈ (Program.trace l.board.toTerrain l.start cs).steps, s.1 ≠ s.2 := by
    intro s hs hsame
    exact List.countP_eq_zero.mp hidle s hs (beq_iff_eq.mpr hsame)
  refine ⟨Program.final_thereAndBack hplain hfree hmoved, ?_, ?_⟩
  · have htwice : (l.run cs.thereAndBack).idleSteps = 2 * (l.run cs).idleSteps :=
      Program.countP_thereAndBack hplain hfree hmoved Program.rests_undone
        (Program.countP_rests_turnRound _)
    rw [htwice, hidle]
  · exact Program.countP_thereAndBack hplain hfree hmoved Program.moves_undone
      (Program.countP_moves_turnRound _)

/-- Three squares and a turn to either side, there and back. -/
theorem run_returns_to_start_nook :
    let cs : Program := [.forward, .right, .forward, .left, .forward].map .act
    (∀ c ∈ cs, ∃ a, c = .act a) ∧ (nook.run cs).idleSteps = 0 ∧
      (nook.run cs).final = ⟨⟨2, 1⟩, .east⟩ ∧ (nook.run cs).cellsMoved = 3 ∧
      (nook.run cs.thereAndBack).final = nook.start ∧
      (nook.run cs.thereAndBack).idleSteps = 0 ∧ (nook.run cs.thereAndBack).cellsMoved = 6 := by
  intro cs
  have hplain : ∀ c ∈ cs, ∃ a, c = .act a := by
    intro c hc
    obtain ⟨a, -, rfl⟩ := List.mem_map.mp hc
    exact ⟨a, rfl⟩
  have hidle : (nook.run cs).idleSteps = 0 := rfl
  exact ⟨hplain, hidle, rfl, rfl, run_returns_to_start hplain hidle⟩

end Level

end RobotMaze
