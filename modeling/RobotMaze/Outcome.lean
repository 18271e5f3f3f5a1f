/-
What a run of a program leaves behind.

The trace holds the pose before every command and the pose at the end, so it is one
longer than the program.  The counts below look at neighbouring entries of the trace,
that is, at single steps.
-/
import RobotMaze.Pose

namespace RobotMaze

/-- The poses of a run, the one at the start first. -/
abbrev Trace := List Pose

namespace Trace

/-- The steps of a trace, each with the pose before and the pose after it. -/
def steps (t : Trace) : List (Pose × Pose) :=
  t.zip t.tail

/-- The squares that the robot stood on. -/
def positions (t : Trace) : List Position :=
  t.map Pose.position

end Trace

structure Outcome where
  trace : Trace
  /-- Whether the run ended on the goal. -/
  solved : Bool
  final : Pose
deriving DecidableEq

namespace Outcome

/-- The number of steps that changed neither square nor heading: blocked moves, and
conditionals that sensed a free square. -/
def idleSteps (o : Outcome) : Nat :=
  o.trace.steps.countP fun s => s.1 == s.2

/-- The number of steps that changed the square. -/
def cellsMoved (o : Outcome) : Nat :=
  o.trace.steps.countP fun s => s.1.position != s.2.position

/-- The status that a process exits with after a run: 0 on the goal, 1 anywhere else. -/
def exitStatus (o : Outcome) : Nat :=
  if o.solved then 0 else 1

end Outcome

end RobotMaze
