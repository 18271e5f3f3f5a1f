/-
A run can be taken up where another one ended.

The trace of a program that has two parts is the trace of the first part and then what the
second part leads to from there (`trace_append`).  A run knows nothing of how the robot came
to its place: it depends on the walls, the pose and the commands, and on neither of the
marked squares.  So the second part can as well be run on a level of its own, whose start
is moved to the end of the first run.  That there is such a level is the safety of runs
again: the robot ends on a free square, and a free square can bear the start.
-/
import RobotMaze.CommandLine
import RobotMaze.Proofs.Grammar
import RobotMaze.Proofs.Locality
import RobotMaze.Proofs.Walls

namespace RobotMaze

namespace Program

variable {t : Terrain}

/-- The poses that commands lead to from a pose on, one for each command. -/
inductive Leads (t : Terrain) : Pose → Program → List Pose → Prop
  | nil (p : Pose) : Leads t p [] []
  | cons {p : Pose} {c : Command} {cs : Program} {qs : List Pose}
      (h : Leads t (c.apply t p) cs qs) : Leads t p (c :: cs) (c.apply t p :: qs)

/-- The trace of a run is its first pose and what the commands lead to. -/
theorem leads_tail_trace (cs : Program) : ∀ p : Pose, Leads t p cs (trace t p cs).tail := by
  induction cs with
  | nil => exact Leads.nil
  | cons c cs ih =>
      intro p
      rw [trace_cons, List.tail_cons, trace_eq_cons]
      exact .cons (ih _)

theorem trace_append (t : Terrain) (cs ds : Program) : ∀ p : Pose,
    trace t p (cs ++ ds) = trace t p cs ++ (trace t (final t p cs) ds).tail := by
  induction cs with
  | nil => exact fun p => trace_eq_cons t p ds
  | cons c cs ih =>
      intro p
      rw [List.cons_append, trace_cons, trace_cons, ih, final_cons, List.cons_append]

/-- What follows the trace of the first part is a trace of its own. -/
theorem drop_trace_append (t : Terrain) (p : Pose) (cs ds : Program) :
    (trace t p (cs ++ ds)).drop cs.length = trace t (final t p cs) ds := by
  induction cs generalizing p with
  | nil => rfl
  | cons c cs ih => exact ih _

theorem getLast?_trace (t : Terrain) (p : Pose) (cs : Program) :
    (trace t p cs).getLast? = some (final t p cs) := by
  rw [List.getLast?_eq_getElem?, length_trace, Nat.add_sub_cancel, getElem?_trace (Nat.le_refl _),
    List.take_length]

end Program

/-- The pose after each command has the text of the command as its label. -/
theorem CommandLine.getElem?_labels {cs : Program} {c : Command} {k : Nat} (hc : cs[k]? = some c) :
    (labels cs)[k + 1]? = some c.text := by
  unfold labels
  rw [List.getElem?_cons_succ, List.getElem?_map, hc]
  rfl

/-- Every board can be described. -/
theorem Board.exists_walls (b : Board) :
    ∃ walls, create b.width b.height walls b.start b.goal = .ok b := by
  have hcreated := b.depicts_drawing.created
  rw [rowLength_drawing, length_drawing] at hcreated
  exact ⟨_, hcreated⟩

namespace Level

/-- A run on a level that starts where another run ended, with the same walls and the same
goal, is the rest of a run. -/
theorem run_of_start_eq {l l' : Level} {cs : Program} (ds : Program)
    (hwalls : ∀ q, l'.board.isWall q = l.board.isWall q) (hgoal : l'.goal = l.goal)
    (hstart : l'.start = (l.run cs).final) :
    (l'.run ds).trace = (l.run (cs ++ ds)).trace.drop cs.length ∧
      (l'.run ds).solved = (l.run (cs ++ ds)).solved := by
  have htrace : (l'.run ds).trace = Program.trace l.board.toTerrain (l.run cs).final ds := by
    show Program.trace l'.board.toTerrain l'.start ds = _
    rw [hstart]
    exact Terrain.AgreeNear.trace_eq fun q _ => hwalls q
  have hfinal : (l'.run ds).final = Program.final l.board.toTerrain (l.run cs).final ds := by
    have hlast : (l'.run ds).trace.getLast? = some (l'.run ds).final :=
      Program.getLast?_trace _ _ _
    rw [htrace, Program.getLast?_trace] at hlast
    exact (Option.some.inj hlast).symm
  constructor
  · rw [htrace]
    exact (Program.drop_trace_append _ _ cs ds).symm
  · show ((l'.run ds).final.position == l'.goal) = _
    rw [hfinal, hgoal]
    show _ = ((Program.final l.board.toTerrain l.start (cs ++ ds)).position == l.goal)
    rw [Program.final_append]
    rfl

/--
**A run goes on from where it stood, and so does a level.**  The run of a program in two
parts is the run of the first part and then one pose for each command of the second; its
pose after some commands is the end of the run of these commands, and each has its label.
Any description of the board can have its start moved to the end of the first run, and on a
level with that board the second part runs as it does in the whole program.
-/
theorem run_resumes (l : Level) (cs ds : Program) :
    let s := (l.run cs).final
    let whole := l.run (cs ++ ds)
    (∃ qs, Program.Leads l.board.toTerrain s ds qs ∧ whole.trace = (l.run cs).trace ++ qs) ∧
    whole.trace.length = cs.length + ds.length + 1 ∧
    (∀ k, k ≤ cs.length + ds.length →
      whole.trace[k]? = some (l.run ((cs ++ ds).take k)).final) ∧
    (∀ k q, whole.trace[k + 1]? = some q → ∃ c, (cs ++ ds)[k]? = some c ∧
      (CommandLine.labels (cs ++ ds))[k + 1]? = some c.text) ∧
    (∃ walls, Board.create l.board.width l.board.height walls l.start.position l.goal
      = .ok l.board) ∧
    (∀ width height walls start, Board.create width height walls start l.goal = .ok l.board →
      ∃ b, Board.create width height walls s.position l.goal = .ok b ∧
        ∀ l' : Level, l'.board = b → l'.facing = s.heading →
          (l'.run ds).trace = whole.trace.drop cs.length ∧ (l'.run ds).solved = whole.solved) ∧
    (whole.solved = true ↔ ∃ q, whole.trace.getLast? = some q ∧ q.position = l.goal) := by
  intro s whole
  have hlength : whole.trace.length = cs.length + ds.length + 1 := by
    rw [← List.length_append]
    exact Program.length_trace _ _ _
  refine ⟨?_, hlength, ?_, ?_, ?_, ?_, ?_⟩
  · exact ⟨_, Program.leads_tail_trace ds s, Program.trace_append _ cs ds l.start⟩
  · intro k hk
    rw [← List.length_append] at hk
    exact Program.getElem?_trace hk
  · intro k q hq
    have hk : k < (cs ++ ds).length := by
      have hlt := (List.getElem?_eq_some_iff.mp hq).1
      rw [List.length_append]
      omega
    have hc := List.getElem?_eq_getElem hk
    exact ⟨_, hc, CommandLine.getElem?_labels hc⟩
  · exact l.board.exists_walls
  · intro width height walls start hboard
    obtain ⟨b, hb, hwalls, hstart, hgoal⟩ :=
      Board.exists_create_of_isWall hboard (l.isWall_final cs)
    refine ⟨b, hb, ?_⟩
    rintro l' rfl hfacing
    exact run_of_start_eq ds hwalls hgoal (Pose.ext hstart hfacing)
  · have hlast : whole.trace.getLast? = some whole.final := Program.getLast?_trace _ _ _
    rw [hlast, run_solved_iff]
    simp only [Option.some.injEq, exists_eq_left']
    rfl

/-- The second part of a program, on a level that starts between the parts. -/
theorem run_resumes_nook :
    let first : Program := Program.throughNook.take 2
    let second : Program := Program.throughNook.drop 2
    let s : Pose := ⟨⟨1, 0⟩, .south⟩
    (nook.run first).final = s ∧
      Board.create 3 2 [⟨2, 0⟩] nook.start.position nook.goal = .ok nook.board ∧
      ∃ b, Board.create 3 2 [⟨2, 0⟩] s.position nook.goal = .ok b ∧
        ∀ l' : Level, l'.board = b → l'.facing = s.heading →
          (l'.run second).trace = [s, ⟨⟨1, 1⟩, .south⟩, ⟨⟨1, 1⟩, .east⟩, ⟨⟨2, 1⟩, .east⟩] ∧
            (l'.run second).solved = true := by
  intro first second s
  have hboard : Board.create 3 2 [⟨2, 0⟩] nook.start.position nook.goal = .ok nook.board := rfl
  obtain ⟨-, -, -, -, -, hresume, -⟩ := run_resumes nook first second
  exact ⟨rfl, hboard, hresume 3 2 [⟨2, 0⟩] nook.start.position hboard⟩

end Level

end RobotMaze
