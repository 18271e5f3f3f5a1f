/-
What one command does, and what a run keeps.

A command does one of four things to a robot: nothing, a turn to either side, or a
step to the square ahead, and the step only if that square is free.  `Pose.Goes` says
so once, with conditionals and blocked moves included, and the invariants of a run are
derived from it without looking into a command again.

The trace of a run is tied to the fold that computes its end: the poses of the trace
are the ends of the runs of the program's prefixes.  An invariant therefore needs to
be carried along the fold only, which is `final_induct`.  Where it depends on the
program whether a step keeps the invariant, `final_induct_of_mem` says which command
took the step, and `exists_command_of_mem_steps` says so of the steps themselves.
-/
import RobotMaze.Proofs.Creation
import RobotMaze.Run

namespace RobotMaze

/-- What one command may do to a robot on a terrain. -/
inductive Pose.Goes (t : Terrain) (p : Pose) : Pose → Prop
  | stays : Goes t p p
  | left : Goes t p (p.turnedTo p.heading.left)
  | right : Goes t p (p.turnedTo p.heading.right)
  | forward (free : t.isWall p.ahead = false) : Goes t p (p.movedTo p.ahead)

theorem Action.goes_apply (t : Terrain) (p : Pose) (a : Action) : p.Goes t (a.apply t p) := by
  cases a with
  | forward =>
      show p.Goes t (if t.isWall p.ahead then p else p.movedTo p.ahead)
      by_cases hw : t.isWall p.ahead = true
      · rw [if_pos hw]
        exact Pose.Goes.stays
      · rw [if_neg hw]
        exact Pose.Goes.forward (Bool.eq_false_iff.mpr hw)
  | left => exact Pose.Goes.left
  | right => exact Pose.Goes.right

theorem Command.apply_of_fires {t : Terrain} {p : Pose} {c : Command} (h : c.fires t p = true) :
    c.apply t p = c.action.apply t p := by
  cases c with
  | act a => rfl
  | ifWall s a => exact if_pos h

theorem Command.apply_of_not_fires {t : Terrain} {p : Pose} {c : Command}
    (h : c.fires t p = false) : c.apply t p = p := by
  cases c with
  | act a => simp [fires] at h
  | ifWall s a => exact if_neg (Bool.eq_false_iff.mp h)

/-- A command carries out its action or does nothing. -/
theorem Command.apply_eq_or (t : Terrain) (p : Pose) (c : Command) :
    c.apply t p = p ∨ c.apply t p = c.action.apply t p := by
  by_cases hf : c.fires t p = true
  · exact Or.inr (apply_of_fires hf)
  · exact Or.inl (apply_of_not_fires (Bool.eq_false_iff.mpr hf))

theorem Command.goes_apply (t : Terrain) (p : Pose) (c : Command) : p.Goes t (c.apply t p) := by
  rcases c.apply_eq_or t p with hstay | hact
  · rw [hstay]
    exact Pose.Goes.stays
  · rw [hact]
    exact c.action.goes_apply t p

/-- The side that an action turns the robot to; a step turns it nowhere. -/
def Action.side : Action → Sense
  | forward => .ahead
  | left => .left
  | right => .right

theorem Action.side_injective {a b : Action} (h : a.side = b.side) : a = b := by
  cases a <;> cases b <;> revert h <;> decide

theorem Action.heading_apply (t : Terrain) (p : Pose) (a : Action) :
    (a.apply t p).heading = p.heading.toward a.side := by
  cases a with
  | forward =>
      show (if t.isWall p.ahead then p else p.movedTo p.ahead).heading = p.heading
      split <;> rfl
  | left => rfl
  | right => rfl

/-- Whoever leaves a square stands on a free one afterwards. -/
theorem Pose.Goes.position {t : Terrain} {p q : Pose} (h : p.Goes t q) :
    q.position = p.position ∨ t.isWall q.position = false := by
  cases h with
  | stays => exact Or.inl rfl
  | left => exact Or.inl rfl
  | right => exact Or.inl rfl
  | forward free => exact Or.inr free

namespace Program

/-! ### The trace and the end of a run -/

@[simp] theorem final_nil (t : Terrain) (p : Pose) : final t p [] = p := rfl

@[simp] theorem final_cons (t : Terrain) (p : Pose) (c : Command) (cs : Program) :
    final t p (c :: cs) = final t (c.apply t p) cs := rfl

/-- A run goes on from where it stood after its first commands. -/
theorem final_append (t : Terrain) (p : Pose) (cs ds : Program) :
    final t p (cs ++ ds) = final t (final t p cs) ds :=
  List.foldl_append

/-- The poses of a run are the ends of the runs of its first commands. -/
theorem mem_trace_iff {t : Terrain} {q : Pose} {cs : Program} :
    ∀ {p : Pose}, q ∈ trace t p cs ↔ ∃ k, k ≤ cs.length ∧ q = final t p (cs.take k) := by
  induction cs with
  | nil => intro p; simp [trace]
  | cons c cs ih =>
      intro p
      rw [trace, List.mem_cons, ih]
      constructor
      · intro h
        rcases h with rfl | ⟨k, hk, hq⟩
        · exact ⟨0, Nat.zero_le _, rfl⟩
        · exact ⟨k + 1, Nat.succ_le_succ hk, hq⟩
      · intro h
        obtain ⟨k, hk, hq⟩ := h
        cases k with
        | zero => exact Or.inl hq
        | succ k => exact Or.inr ⟨k, Nat.le_of_succ_le_succ hk, hq⟩

/-- The pose at an index of the trace is the end of the run of as many commands. -/
theorem getElem?_trace {t : Terrain} {cs : Program} :
    ∀ {p : Pose} {k : Nat}, k ≤ cs.length → (trace t p cs)[k]? = some (final t p (cs.take k)) := by
  induction cs with
  | nil =>
      intro p k hk
      have hzero : k = 0 := by simpa using hk
      subst hzero
      rfl
  | cons c cs ih =>
      intro p k hk
      cases k with
      | zero => rfl
      | succ k => exact ih (Nat.le_of_succ_le_succ hk)

/-- What each command of a program keeps, its run keeps. -/
theorem final_induct_of_mem {t : Terrain} {P : Pose → Prop} {cs : Program}
    (hstep : ∀ c ∈ cs, ∀ q : Pose, P q → P (c.apply t q)) :
    ∀ p : Pose, P p → P (final t p cs) := by
  induction cs with
  | nil => intro p hp; exact hp
  | cons c cs ih =>
      intro p hp
      exact ih (fun d hd => hstep d (List.mem_cons_of_mem c hd)) _
        (hstep c List.mem_cons_self p hp)

/-- What every command keeps, a run keeps. -/
theorem final_induct {t : Terrain} {P : Pose → Prop}
    (hstep : ∀ q r : Pose, q.Goes t r → P q → P r) (cs : Program) :
    ∀ p : Pose, P p → P (final t p cs) :=
  final_induct_of_mem fun c _ q hq => hstep q _ (c.goes_apply t q) hq

theorem trace_cons (t : Terrain) (p : Pose) (c : Command) (cs : Program) :
    trace t p (c :: cs) = p :: trace t (c.apply t p) cs := rfl

theorem trace_eq_cons (t : Terrain) (p : Pose) (cs : Program) :
    trace t p cs = p :: (trace t p cs).tail := by
  cases cs <;> rfl

theorem length_trace (t : Terrain) (cs : Program) :
    ∀ p : Pose, (trace t p cs).length = cs.length + 1 := by
  induction cs with
  | nil => intro p; rfl
  | cons c cs ih => intro p; exact congrArg Nat.succ (ih _)

theorem length_steps_trace (t : Terrain) (p : Pose) (cs : Program) :
    (trace t p cs).steps.length = cs.length := by
  unfold Trace.steps
  rw [List.length_zip, List.length_tail, length_trace]
  omega

/-- The first step of a run is that of the first command. -/
theorem steps_trace_cons (t : Terrain) (p : Pose) (c : Command) (cs : Program) :
    (trace t p (c :: cs)).steps = (p, c.apply t p) :: (trace t (c.apply t p) cs).steps := by
  cases cs <;> rfl

/-- The steps of a run are those of its first commands and those of the rest from there. -/
theorem steps_trace_append (t : Terrain) (cs ds : Program) : ∀ p : Pose,
    (trace t p (cs ++ ds)).steps
      = (trace t p cs).steps ++ (trace t (final t p cs) ds).steps := by
  induction cs with
  | nil => exact fun p => (List.nil_append _).symm
  | cons c cs ih =>
      intro p
      rw [List.cons_append, steps_trace_cons, steps_trace_cons, ih, final_cons, List.cons_append]

/-- Every step of a run is what one of its commands does. -/
theorem exists_command_of_mem_steps {t : Terrain} {s : Pose × Pose} {cs : Program} :
    ∀ {p : Pose}, s ∈ (trace t p cs).steps → ∃ c ∈ cs, s.2 = c.apply t s.1 := by
  induction cs with
  | nil => intro p hs; cases hs
  | cons c cs ih =>
      intro p hs
      rw [steps_trace_cons, List.mem_cons] at hs
      rcases hs with rfl | hlater
      · exact ⟨c, List.mem_cons_self, rfl⟩
      · obtain ⟨d, hd, hs⟩ := ih hlater
        exact ⟨d, List.mem_cons_of_mem c hd, hs⟩

end Program

theorem Level.trace_run_ne_nil (l : Level) (cs : Program) : (l.run cs).trace ≠ [] := by
  show Program.trace _ _ cs ≠ []
  rw [Program.trace_eq_cons]
  exact List.cons_ne_nil _ _

/-- A level is solved by a run that ends on its goal. -/
theorem Level.run_solved_iff {l : Level} {cs : Program} :
    (l.run cs).solved = true ↔
      (Program.final l.board.toTerrain l.start cs).position = l.goal :=
  beq_iff_eq

/-! ### A small level

Three columns, two rows and one wall, with a program that needs all of it: the wall
tells the robot where to turn.
-/

def Level.nook : Level where
  name := "nook"
  board := Board.ofTest 3 2 (· == ⟨2, 0⟩) ⟨0, 0⟩ ⟨2, 1⟩ (by decide) (by decide)
  facing := .east
  palette := Palette.ofKinds Kind.all
  cap := 5
  solution := none

def Program.throughNook : Program :=
  [.act .forward, .ifWall .ahead .right, .act .forward, .act .left, .act .forward]

end RobotMaze
