/-
What a program does.

Every command maps a pose to the next one on a given terrain.  Nothing here can fail:
a blocked move and a conditional that senses a free square leave the pose as it is.
-/
import RobotMaze.Event
import RobotMaze.Level
import RobotMaze.Outcome

namespace RobotMaze

/-- Whether the square that a sense looks at is a wall or outside the terrain. -/
def Terrain.senses (t : Terrain) (p : Pose) (s : Sense) : Bool :=
  t.isWall (p.sensed s)

def Action.apply (t : Terrain) (p : Pose) : Action → Pose
  | .forward => if t.isWall p.ahead then p else p.movedTo p.ahead
  | .left => p.turnedTo p.heading.left
  | .right => p.turnedTo p.heading.right

/-- The pose after a command. -/
def Command.apply (t : Terrain) (p : Pose) : Command → Pose
  | .act a => a.apply t p
  | .ifWall s a => if t.senses p s then a.apply t p else p

/-- Whether a command carries out its action. -/
def Command.fires (t : Terrain) (p : Pose) : Command → Bool
  | .act _ => true
  | .ifWall s _ => t.senses p s

/-- Whether a command tries to move into a wall. -/
def Command.blocked (t : Terrain) (p : Pose) (c : Command) : Bool :=
  c.fires t p && c.action == .forward && t.isWall p.ahead

namespace Program

/-- The poses of a run on a terrain, the given one first. -/
def trace (t : Terrain) (p : Pose) : Program → Trace
  | [] => [p]
  | c :: cs => p :: trace t (c.apply t p) cs

/-- The pose at the end of a run. -/
def final (t : Terrain) (p : Pose) (cs : Program) : Pose :=
  cs.foldl (fun q c => c.apply t q) p

/-- The poses in which a run tries to move into a wall, in order. -/
def blockedPoses (t : Terrain) (p : Pose) : Program → List Pose
  | [] => []
  | c :: cs =>
    let later := blockedPoses t (c.apply t p) cs
    if c.blocked t p then p :: later else later

end Program

/-- Runs a program from the start of a level.  It is a success if the run ends on the
goal; passing over the goal earlier does not count. -/
def Level.run (l : Level) (cs : Program) : Outcome :=
  let final := Program.final l.board.toTerrain l.start cs
  { trace := Program.trace l.board.toTerrain l.start cs
    solved := final.position == l.goal
    final }

def Pose.blockedEvent (p : Pose) : Event :=
  .moveBlocked p p.ahead

/-- The events of a run: every blocked move, then the end. -/
def Level.runEvents (l : Level) (cs : Program) : List Event :=
  let o := l.run cs
  (Program.blockedPoses l.board.toTerrain l.start cs).map Pose.blockedEvent
    ++ [.programFinished l.name cs.length o.solved o.final]

end RobotMaze
