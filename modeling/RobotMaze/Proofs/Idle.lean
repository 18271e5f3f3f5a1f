/-
Steps that change nothing can be left out.

The essence of a program is made from one of its runs: the commands whose step left the
robot as it was are dropped, and of every other conditional its action is kept.  It is a
program of plain actions, and it moves the robot as the program did, without the pauses.

All of this rests on one look at the first step of a run, which changes something or does
not; `stepwise` is the induction over runs with these two cases.  A command that changed
something has carried out its action (`Command.apply_action`), so in the second case the
essence takes the same step, and in the first it takes none.  Counts and checks follow from
what the steps of the essence are (`steps_essence`).

Programs with the same essence do the same.  A command that does nothing where it stands
is not in the essence and can be deleted (`essence_delete`), and a step ahead that waits for
a wall ahead does nothing anywhere.
-/
import Mathlib.Data.List.Destutter
import RobotMaze.Proofs.Rules

namespace RobotMaze

/-- The commands that changed something in a run with this trace, as plain actions. -/
def Program.essence (cs : Program) (t : Trace) : Program :=
  (cs.zip t.steps).filterMap fun s => if s.2.1 = s.2.2 then none else some (.act s.1.action)

/-- Two results that differ only in how long the robot pauses on the way. -/
structure Outcome.MovesAs (o o' : Outcome) : Prop where
  trace : o'.trace.destutter (· ≠ ·) = o.trace.destutter (· ≠ ·)
  final : o'.final = o.final
  solved : o'.solved = o.solved
  cellsMoved : o'.cellsMoved = o.cellsMoved

theorem Outcome.MovesAs.symm {o o' : Outcome} (h : o.MovesAs o') : o'.MovesAs o :=
  ⟨h.trace.symm, h.final.symm, h.solved.symm, h.cellsMoved.symm⟩

theorem Outcome.MovesAs.trans {o o' o'' : Outcome} (h : o.MovesAs o') (h' : o'.MovesAs o'') :
    o.MovesAs o'' :=
  ⟨h'.trace.trans h.trace, h'.final.trans h.final, h'.solved.trans h.solved,
    h'.cellsMoved.trans h.cellsMoved⟩

namespace Command

variable {t : Terrain} {p : Pose} {c : Command}

/-- A command that changed something has carried out its action. -/
theorem apply_action (h : c.apply t p ≠ p) : (act c.action).apply t p = c.apply t p :=
  ((c.apply_eq_or t p).resolve_left h).symm

/-- Whoever waits for a wall ahead cannot go ahead then. -/
theorem apply_ifWall_ahead_forward (t : Terrain) (p : Pose) :
    (ifWall .ahead .forward).apply t p = p := by
  show (if t.isWall p.ahead then (if t.isWall p.ahead then p else p.movedTo p.ahead) else p) = p
  by_cases hw : t.isWall p.ahead = true
  · rw [if_pos hw, if_pos hw]
  · rw [if_neg hw]

end Command

namespace Program

variable {t : Terrain}

/-! ### One step of a run -/

/-- What holds of all runs: the first step changes nothing or something. -/
theorem stepwise (t : Terrain) {P : Pose → Program → Prop} (nil : ∀ p, P p [])
    (idle : ∀ p c cs, c.apply t p = p → P p cs → P p (c :: cs))
    (moved : ∀ p c cs, c.apply t p ≠ p → P (c.apply t p) cs → P p (c :: cs)) :
    ∀ (cs : Program) (p : Pose), P p cs := by
  intro cs
  induction cs with
  | nil => exact nil
  | cons c cs ih =>
      intro p
      by_cases hc : c.apply t p = p
      · exact idle p c cs hc (ih p)
      · exact moved p c cs hc (ih _)

theorem destutter_trace_idle {p : Pose} {c : Command} (hc : c.apply t p = p) (cs : Program) :
    (trace t p (c :: cs)).destutter (· ≠ ·) = (trace t p cs).destutter (· ≠ ·) := by
  rw [trace_cons, hc, trace_eq_cons, List.destutter_cons', List.destutter_cons',
    List.destutter'_cons_neg _ (by simp)]

theorem destutter_trace_moved {p : Pose} {c : Command} (hc : c.apply t p ≠ p) (cs : Program) :
    (trace t p (c :: cs)).destutter (· ≠ ·)
      = p :: (trace t (c.apply t p) cs).destutter (· ≠ ·) := by
  rw [trace_cons, trace_eq_cons, List.destutter_cons', List.destutter_cons',
    List.destutter'_cons_pos _ (Ne.symm hc)]

theorem essence_idle {p : Pose} {c : Command} (hc : c.apply t p = p) (cs : Program) :
    essence (c :: cs) (trace t p (c :: cs)) = essence cs (trace t p cs) := by
  unfold essence
  rw [steps_trace_cons, hc]
  simp

theorem essence_moved {p : Pose} {c : Command} (hc : c.apply t p ≠ p) (cs : Program) :
    essence (c :: cs) (trace t p (c :: cs))
      = .act c.action :: essence cs (trace t (c.apply t p) cs) := by
  unfold essence
  rw [steps_trace_cons]
  simp [Ne.symm hc]

/-! ### The run of the essence -/

/-- The essence shows the poses of the run without the pauses. -/
theorem trace_essence (t : Terrain) : ∀ (cs : Program) (p : Pose),
    trace t p (essence cs (trace t p cs)) = (trace t p cs).destutter (· ≠ ·) := by
  refine stepwise t ?_ ?_ ?_
  · intro p
    rfl
  · intro p c cs hc ih
    rw [essence_idle hc, destutter_trace_idle hc, ih]
  · intro p c cs hc ih
    rw [essence_moved hc, destutter_trace_moved hc, trace_cons, Command.apply_action hc, ih]

/-- The steps of the essence are those that change something. -/
theorem steps_essence (t : Terrain) : ∀ (cs : Program) (p : Pose),
    (trace t p (essence cs (trace t p cs))).steps
      = (trace t p cs).steps.filter fun s => s.1 != s.2 := by
  refine stepwise t ?_ ?_ ?_
  · intro p
    rfl
  · intro p c cs hc ih
    rw [essence_idle hc, ih, steps_trace_cons, hc]
    simp
  · intro p c cs hc ih
    rw [essence_moved hc, steps_trace_cons, Command.apply_action hc, ih, steps_trace_cons]
    simp [Ne.symm hc]

theorem final_essence (t : Terrain) : ∀ (cs : Program) (p : Pose),
    final t p (essence cs (trace t p cs)) = final t p cs := by
  refine stepwise t ?_ ?_ ?_
  · intro p
    rfl
  · intro p c cs hc ih
    rw [essence_idle hc, ih, final_cons, hc]
  · intro p c cs hc ih
    rw [essence_moved hc, final_cons, Command.apply_action hc, ih, final_cons]

/-- A command that does nothing where it stands leaves no mark on the essence. -/
theorem essence_delete {c : Command} (behind : Program) : ∀ (before : Program) (p : Pose),
    c.apply t (final t p before) = final t p before →
      essence (before ++ c :: behind) (trace t p (before ++ c :: behind))
        = essence (before ++ behind) (trace t p (before ++ behind)) := by
  refine stepwise t ?_ ?_ ?_
  · intro p hidle
    exact essence_idle hidle behind
  · intro p d before hd ih hidle
    rw [final_cons, hd] at hidle
    rw [List.cons_append, List.cons_append, essence_idle hd, essence_idle hd, ih hidle]
  · intro p d before hd ih hidle
    rw [List.cons_append, List.cons_append, essence_moved hd, essence_moved hd, ih hidle]

/-! ### What the essence consists of -/

theorem exists_of_mem_essence {cs : Program} {r : Trace} {d : Command} (hd : d ∈ essence cs r) :
    ∃ c ∈ cs, d = .act c.action := by
  obtain ⟨s, hs, hkept⟩ := List.mem_filterMap.mp hd
  have hmem : s.1 ∈ cs := (List.of_mem_zip hs).1
  by_cases hidle : s.2.1 = s.2.2
  · rw [if_pos hidle] at hkept
    cases hkept
  · rw [if_neg hidle] at hkept
    exact ⟨s.1, hmem, (Option.some.inj hkept).symm⟩

end Program

namespace Level

variable {l : Level} {cs : Program}

/-- The essence of a program in its run on a level. -/
def essence (l : Level) (cs : Program) : Program :=
  cs.essence (l.run cs).trace

theorem trace_run_essence (l : Level) (cs : Program) :
    (l.run (l.essence cs)).trace = (l.run cs).trace.destutter (· ≠ ·) :=
  Program.trace_essence l.board.toTerrain cs l.start

theorem steps_run_essence (l : Level) (cs : Program) :
    (l.run (l.essence cs)).trace.steps = (l.run cs).trace.steps.filter fun s => s.1 != s.2 :=
  Program.steps_essence l.board.toTerrain cs l.start

/-- The essence moves the robot as the program does. -/
theorem movesAs_essence (l : Level) (cs : Program) : (l.run cs).MovesAs (l.run (l.essence cs)) := by
  have hfinal : (l.run (l.essence cs)).final = (l.run cs).final :=
    Program.final_essence l.board.toTerrain cs l.start
  exact {
    trace := by rw [trace_run_essence, List.destutter_idem]
    final := hfinal
    solved := congrArg (fun p : Pose => p.position == l.goal) hfinal
    cellsMoved := by
      unfold Outcome.cellsMoved
      rw [steps_run_essence, List.countP_filter]
      refine List.countP_congr fun s _ => ?_
      rw [Bool.and_eq_true, bne_iff_ne, bne_iff_ne, and_iff_left_iff_imp]
      exact fun hpos hsame => hpos (congrArg Pose.position hsame) }

theorem idleSteps_essence (l : Level) (cs : Program) : (l.run (l.essence cs)).idleSteps = 0 := by
  unfold Outcome.idleSteps
  rw [steps_run_essence, List.countP_filter, List.countP_eq_zero]
  intro s _
  simp

/-- A program is as long as its essence and its pauses together. -/
theorem length_essence (l : Level) (cs : Program) :
    (l.essence cs).length + (l.run cs).idleSteps = cs.length := by
  have hkept : (l.essence cs).length = (l.run cs).trace.steps.countP fun s => s.1 != s.2 := by
    rw [List.countP_eq_length_filter, ← steps_run_essence]
    exact (Program.length_steps_trace _ _ _).symm
  have hall := List.length_eq_countP_add_countP (fun s : Pose × Pose => s.1 == s.2)
    (l := (l.run cs).trace.steps)
  have hlength : (l.run cs).trace.steps.length = cs.length := Program.length_steps_trace _ _ _
  unfold Outcome.idleSteps
  rw [hkept, ← hlength, hall, Nat.add_comm]
  simp only [bne, decide_not, Bool.decide_eq_true]

/-- The essence keeps to the rules of the level if the program does. -/
theorem Admits.essence (h : l.Admits cs) : l.Admits (l.essence cs) where
  length_le := by
    have hlength := l.length_essence cs
    have hcap := h.length_le
    omega
  allows := by
    intro d hd k hk
    obtain ⟨c, hc, rfl⟩ := Program.exists_of_mem_essence hd
    rw [Command.required, List.mem_singleton] at hk
    rw [hk]
    exact h.allows_action hc

/-- A command that does nothing where it stands can be deleted. -/
theorem movesAs_delete (l : Level) {c : Command} {before : Program} (behind : Program)
    (hidle : c.apply l.board.toTerrain (Program.final l.board.toTerrain l.start before)
      = Program.final l.board.toTerrain l.start before) :
    (l.run (before ++ c :: behind)).MovesAs (l.run (before ++ behind)) := by
  have hsame : l.essence (before ++ c :: behind) = l.essence (before ++ behind) :=
    Program.essence_delete behind before l.start hidle
  refine (l.movesAs_essence _).trans ?_
  rw [hsame]
  exact (l.movesAs_essence _).symm

/--
**The essence of a program does the same without pauses and conditionals.**  Its run shows
the poses of the program's run with repetitions merged, it is shorter by the number of
pauses, and the level accepts it if it accepts the program.  In every program a step ahead
that waits for a wall ahead can be deleted.
-/
theorem essence_runs_without_pauses (l : Level) (cs : Program) :
    (l.run (l.essence cs)).trace = (l.run cs).trace.destutter (· ≠ ·) ∧
    (l.run cs).MovesAs (l.run (l.essence cs)) ∧
    (∀ c ∈ l.essence cs, ∃ a, c = .act a) ∧
    (l.run (l.essence cs)).idleSteps = 0 ∧
    (l.essence cs).length + (l.run cs).idleSteps = cs.length ∧
    (l.check cs = .ok () → l.check (l.essence cs) = .ok ()) ∧
    (∀ before behind : Program,
      (l.run (before ++ .ifWall .ahead .forward :: behind)).MovesAs
        (l.run (before ++ behind))) := by
  refine ⟨l.trace_run_essence cs, l.movesAs_essence cs, ?_, l.idleSteps_essence cs,
    l.length_essence cs, ?_, ?_⟩
  · intro d hd
    obtain ⟨c, -, rfl⟩ := Program.exists_of_mem_essence hd
    exact ⟨c.action, rfl⟩
  · intro h
    exact check_eq_ok_iff.mpr (check_eq_ok_iff.mp h).essence
  · intro before behind
    exact l.movesAs_delete behind (Command.apply_ifWall_ahead_forward _ _)

/-- A program with a blocked move and a conditional that senses nothing among its commands. -/
theorem essence_runs_without_pauses_nook :
    let cs : Program := [.act .forward, .act .forward, .ifWall .ahead .right, .ifWall .right .left,
      .act .forward]
    nook.check cs = .ok () ∧ nook.check (nook.essence cs) = .ok () ∧
      nook.essence cs = [.act .forward, .act .right, .act .forward] := by
  intro cs
  have hcheck : nook.check cs = .ok () := rfl
  exact ⟨hcheck, (essence_runs_without_pauses nook cs).2.2.2.2.2.1 hcheck, rfl⟩

end Level

end RobotMaze
