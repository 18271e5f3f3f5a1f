/-
A redrawn board is the same puzzle.

A redrawing says how a board is shown in another place or from another side: where each
square goes, what becomes of each heading, and whether left and right change places on
the way.  Its laws are those of a rigid motion of the whole plane.  They do not mention
a board, so squares outside of a board are moved like all others, and sensing or
bumping into the edge needs no case of its own.

On two terrains whose walls correspond under a redrawing, a command and its counterpart
lead corresponding poses to corresponding poses (`apply_command`).  Runs follow by
induction (`trace_command`, `final_command`), and what is counted in a trace or read
off its end is the same on both sides because a redrawing never identifies two poses
(`pose_injective`).

`Board.redrawn` is the board that a redrawing makes of another.  Its size is given by
whoever redraws it, who must leave room for all of its squares.
-/
import RobotMaze.Proofs.Drawing
import RobotMaze.Proofs.Run

namespace RobotMaze

/-! ### Left and right change places -/

/-- The sense after left and right have changed places. -/
def Sense.mirrored : Sense → Sense
  | ahead => ahead
  | left => right
  | right => left

/-- The action after left and right have changed places. -/
def Action.mirrored : Action → Action
  | forward => forward
  | left => right
  | right => left

/-- The command after left and right have changed places, in what it senses and in what
it does. -/
def Command.mirrored : Command → Command
  | act a => act a.mirrored
  | ifWall s a => ifWall s.mirrored a.mirrored

theorem Heading.delta_injective {h k : Heading} (he : h.delta = k.delta) : h = k := by
  cases h <;> cases k <;> revert he <;> decide

/-- Different headings lead to different squares. -/
theorem Position.step_injective {p : Position} {h k : Heading} (he : p.step h = p.step k) :
    h = k := by
  have hx : h.delta.x = k.delta.x := Int.add_left_cancel (congrArg Position.x he)
  have hy : h.delta.y = k.delta.y := Int.add_left_cancel (congrArg Position.y he)
  exact Heading.delta_injective (Position.ext hx hy)

/-- Two results that differ only in where and which way the poses are shown. -/
structure Outcome.ShownAs (f : Pose → Pose) (o o' : Outcome) : Prop where
  trace : o'.trace = o.trace.map f
  solved : o'.solved = o.solved
  idleSteps : o'.idleSteps = o.idleSteps
  cellsMoved : o'.cellsMoved = o.cellsMoved

/-- A rigid motion of the plane, with what it does to headings. -/
structure Redrawing where
  /-- Where a square is shown. -/
  position : Position → Position
  /-- Which square is shown there. -/
  source : Position → Position
  /-- What becomes of a heading. -/
  heading : Heading → Heading
  /-- Whether left and right change places. -/
  mirrors : Bool
  source_position : ∀ p, source (position p) = p
  position_source : ∀ p, position (source p) = p
  position_step : ∀ p h, position (p.step h) = (position p).step (heading h)
  heading_toward : ∀ h s,
    heading (h.toward s) = (heading h).toward (if mirrors then s.mirrored else s)

namespace Redrawing

variable (r : Redrawing)

/-- What becomes of a pose. -/
def pose (p : Pose) : Pose :=
  { position := r.position p.position, heading := r.heading p.heading }

/-- The counterpart of a sense. -/
def sense (s : Sense) : Sense :=
  if r.mirrors then s.mirrored else s

/-- The counterpart of an action. -/
def action (a : Action) : Action :=
  if r.mirrors then a.mirrored else a

/-- The counterpart of a command. -/
def command (c : Command) : Command :=
  if r.mirrors then c.mirrored else c

/-- What becomes of the result of a run. -/
def outcome (o : Outcome) : Outcome :=
  { trace := o.trace.map r.pose, solved := o.solved, final := r.pose o.final }

theorem command_act (a : Action) : r.command (.act a) = .act (r.action a) := by
  unfold command action
  split <;> rfl

theorem command_ifWall (s : Sense) (a : Action) :
    r.command (.ifWall s a) = .ifWall (r.sense s) (r.action a) := by
  unfold command sense action
  split <;> rfl

/-! ### No two poses are shown as one -/

theorem position_injective {p q : Position} (h : r.position p = r.position q) : p = q := by
  rw [← r.source_position p, h, r.source_position]

/-- Different headings lead to different squares, so a motion cannot identify them. -/
theorem heading_injective {h k : Heading} (he : r.heading h = r.heading k) : h = k := by
  have hstep : ∀ p : Position, r.position (p.step h) = r.position (p.step k) := by
    intro p
    rw [r.position_step, r.position_step, he]
  exact Position.step_injective (r.position_injective (hstep ⟨0, 0⟩))

theorem pose_injective {p q : Pose} (h : r.pose p = r.pose q) : p = q := by
  have hposition := r.position_injective (congrArg Pose.position h)
  have hheading := r.heading_injective (congrArg Pose.heading h)
  exact Pose.ext hposition hheading

/-! ### Corresponding terrains -/

theorem side_action (a : Action) : (r.action a).side = r.sense a.side := by
  unfold action sense
  split
  · cases a <;> rfl
  · rfl

theorem action_forward : r.action .forward = .forward := by
  unfold action
  split <;> rfl

section Terrains

variable {r} {t u : Terrain} (hwall : ∀ p, u.isWall (r.position p) = t.isWall p)
include hwall

theorem isWall_neighbour (p : Pose) (h : Heading) :
    u.isWall ((r.pose p).neighbour (r.heading h)) = t.isWall (p.neighbour h) := by
  rw [← hwall]
  exact congrArg u.isWall (r.position_step p.position h).symm

theorem senses_sense (p : Pose) (s : Sense) :
    u.senses (r.pose p) (r.sense s) = t.senses p s := by
  have hsensed : (r.pose p).sensed (r.sense s)
      = (r.pose p).neighbour (r.heading (p.heading.toward s)) :=
    congrArg (r.pose p).neighbour (r.heading_toward p.heading s).symm
  unfold Terrain.senses
  rw [hsensed]
  exact isWall_neighbour hwall p _

theorem apply_action (p : Pose) (a : Action) :
    (r.action a).apply u (r.pose p) = r.pose (a.apply t p) := by
  refine Pose.ext ?_ ?_
  · cases a with
    | forward =>
        have hahead : (r.pose p).ahead = r.position p.ahead :=
          (r.position_step p.position p.heading).symm
        rw [r.action_forward]
        show (if u.isWall (r.pose p).ahead then r.pose p
            else (r.pose p).movedTo (r.pose p).ahead).position
          = (r.pose (if t.isWall p.ahead then p else p.movedTo p.ahead)).position
        rw [hahead, hwall]
        split <;> rfl
    | left =>
        unfold action
        split <;> rfl
    | right =>
        unfold action
        split <;> rfl
  · rw [Action.heading_apply, r.side_action]
    show (r.heading p.heading).toward (r.sense a.side) = r.heading (a.apply t p).heading
    rw [Action.heading_apply]
    exact (r.heading_toward p.heading a.side).symm

/-- **Counterparts of commands lead counterparts of poses to counterparts of poses.** -/
theorem apply_command (p : Pose) (c : Command) :
    (r.command c).apply u (r.pose p) = r.pose (c.apply t p) := by
  cases c with
  | act a =>
      rw [r.command_act]
      exact apply_action hwall p a
  | ifWall s a =>
      rw [r.command_ifWall]
      show (if u.senses (r.pose p) (r.sense s) then (r.action a).apply u (r.pose p) else r.pose p)
        = r.pose (if t.senses p s then a.apply t p else p)
      rw [senses_sense hwall, apply_action hwall]
      split <;> rfl

theorem trace_command (cs : Program) :
    ∀ p : Pose, Program.trace u (r.pose p) (cs.map r.command)
      = (Program.trace t p cs).map r.pose := by
  induction cs with
  | nil => intro p; rfl
  | cons c cs ih =>
      intro p
      rw [List.map_cons, Program.trace, Program.trace, List.map_cons, apply_command hwall, ih]

theorem final_command (cs : Program) :
    ∀ p : Pose, Program.final u (r.pose p) (cs.map r.command) = r.pose (Program.final t p cs) := by
  induction cs with
  | nil => intro p; rfl
  | cons c cs ih =>
      intro p
      rw [List.map_cons, Program.final_cons, Program.final_cons, apply_command hwall, ih]

end Terrains

/-! ### What is read off a result -/

theorem position_beq (p q : Position) : (r.position p == r.position q) = (p == q) := by
  rw [Bool.eq_iff_iff, beq_iff_eq, beq_iff_eq]
  exact ⟨r.position_injective, congrArg r.position⟩

theorem steps_map (t : Trace) :
    Trace.steps (t.map r.pose) = t.steps.map (Prod.map r.pose r.pose) := by
  unfold Trace.steps
  rw [← List.map_tail, List.zip_map]

theorem idleSteps_outcome (o : Outcome) : (r.outcome o).idleSteps = o.idleSteps := by
  unfold Outcome.idleSteps
  show (Trace.steps (o.trace.map r.pose)).countP _ = _
  rw [r.steps_map, List.countP_map]
  refine List.countP_congr ?_
  intro s _
  show (r.pose s.1 == r.pose s.2) = true ↔ (s.1 == s.2) = true
  rw [beq_iff_eq, beq_iff_eq]
  exact ⟨r.pose_injective, congrArg r.pose⟩

theorem cellsMoved_outcome (o : Outcome) : (r.outcome o).cellsMoved = o.cellsMoved := by
  unfold Outcome.cellsMoved
  show (Trace.steps (o.trace.map r.pose)).countP _ = _
  rw [r.steps_map, List.countP_map]
  refine List.countP_congr ?_
  intro s _
  show (!(r.position s.1.position == r.position s.2.position)) = true
    ↔ (s.1.position != s.2.position) = true
  rw [r.position_beq]
  rfl

theorem shownAs_outcome (o : Outcome) : o.ShownAs r.pose (r.outcome o) :=
  ⟨rfl, rfl, r.idleSteps_outcome o, r.cellsMoved_outcome o⟩

end Redrawing

/-! ### Redrawn boards -/

namespace Board

section Redrawn

variable (b : Board) (r : Redrawing) (width height : Nat)
  (hroom : ∀ p, b.contains p = true → Terrain.inside width height (r.position p) = true)

include hroom in
theorem inside_of_free (p : Position) (hfree : b.isWall (r.source p) = false) :
    Terrain.inside width height p = true := by
  rw [← r.position_source p]
  exact hroom _ (Terrain.contains_of_isWall_eq_false hfree)

include hroom in
theorem free_position {p : Position} (hfree : b.isWall p = false) :
    Terrain.inside width height (r.position p) = true ∧
      b.isWall (r.source (r.position p)) = false :=
  ⟨hroom _ (Terrain.contains_of_isWall_eq_false hfree), by rw [r.source_position, hfree]⟩

/-- The board as a redrawing shows it, on a rectangle with room for all of its squares. -/
def redrawn : Board :=
  ofTest width height (fun p => b.isWall (r.source p)) (r.position b.start) (r.position b.goal)
    (b.free_position r width height hroom b.start_free)
    (b.free_position r width height hroom b.goal_free)

theorem isWall_redrawn (p : Position) :
    (b.redrawn r width height hroom).isWall p = b.isWall (r.source p) :=
  isWall_ofTest (b.inside_of_free r width height hroom) p

theorem tile_redrawn (p : Position) :
    (b.redrawn r width height hroom).tile p = b.tile (r.source p) := by
  have hmark : ∀ s, decide (p = r.position s) = decide (r.source p = s) := by
    intro s
    refine decide_eq_decide.mpr ⟨?_, ?_⟩
    · intro h
      subst h
      exact r.source_position s
    · intro h
      subst h
      exact (r.position_source p).symm
  refine Tile.eq_of_marks ?_ ?_ ?_
  · rw [isWall_tile, isWall_tile, isWall_redrawn]
  · rw [isStart_tile, isStart_tile]
    exact hmark b.start
  · rw [isGoal_tile, isGoal_tile]
    exact hmark b.goal

theorem tile_redrawn_position (p : Position) :
    (b.redrawn r width height hroom).tile (r.position p) = b.tile p := by
  rw [tile_redrawn, r.source_position]

/-- Rows that show the redrawn tiles are a map of the redrawn board. -/
theorem ofRows_redrawn {rows : List String}
    (hrows : significantRows rows = grid width height fun p => (b.tile (r.source p)).char) :
    ofRows rows = .ok (b.redrawn r width height hroom) := by
  refine ofRows_eq_ok_iff.mpr ?_
  rw [hrows]
  unfold drawing
  simp only [tile_redrawn]
  rfl

end Redrawn

end Board

namespace Level

variable (l : Level) (r : Redrawing) (width height : Nat)
  (hroom : ∀ p, l.board.contains p = true → Terrain.inside width height (r.position p) = true)

/-- The level on the redrawn board, with the facing that belongs to it. -/
def redrawn : Level :=
  { l with board := l.board.redrawn r width height hroom, facing := r.heading l.facing }

/-- **On a redrawn board the counterpart of a program has the counterpart of its result.** -/
theorem run_redrawn (cs : Program) :
    (l.redrawn r width height hroom).run (cs.map r.command) = r.outcome (l.run cs) := by
  have hwall : ∀ p, (l.redrawn r width height hroom).board.isWall (r.position p)
      = l.board.isWall p := by
    intro p
    refine (l.board.isWall_redrawn r width height hroom _).trans ?_
    rw [r.source_position]
  have htrace := r.trace_command hwall cs l.start
  have hfinal := r.final_command hwall cs l.start
  show Outcome.mk (Program.trace _ (r.pose l.start) _)
      ((Program.final _ (r.pose l.start) _).position == r.position l.goal)
      (Program.final _ (r.pose l.start) _) = _
  rw [htrace, hfinal]
  show Outcome.mk _ (r.position _ == r.position l.goal) _ = _
  rw [r.position_beq]
  rfl

theorem shownAs_run_redrawn (cs : Program) :
    (l.run cs).ShownAs r.pose ((l.redrawn r width height hroom).run (cs.map r.command)) := by
  rw [run_redrawn]
  exact r.shownAs_outcome (l.run cs)

end Level

end RobotMaze
