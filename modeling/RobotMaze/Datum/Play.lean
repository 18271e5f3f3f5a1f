/-
The written forms of what belongs to playing: outcomes, stages and settings.

Every setting has a value of its own when it is not given, so an empty record stands for
the default settings.
-/
import RobotMaze.Datum.Puzzle
import RobotMaze.Event
import RobotMaze.Outcome

namespace RobotMaze

open Datum Form

instance : Form Outcome where
  write o := .record [("trace", write o.trace), ("success", write o.solved),
    ("final_state", write o.final)]
  read? f d := do
    let field ← d.fields? f ["trace", "success", "final_state"]
    let trace ← required? f (field "trace")
    let solved ← required? f (field "success")
    let final ← required? f (field "final_state")
    some { trace, solved, final }

/-- A stage is a name, or a record of one field when it comes with the number of a level. -/
instance : Form Stage where
  write
    | .notStarted => .text "NotStarted"
    | .inProgress i => .record [("InProgress", write i)]
    | .solved i => .record [("Solved", write i)]
    | .allComplete => .text "AllComplete"
  read? f
    | .text "NotStarted" => some .notStarted
    | .text "AllComplete" => some .allComplete
    | .record [("NotStarted", d)] => if f.isUnit d then some .notStarted else none
    | .record [("AllComplete", d)] => if f.isUnit d then some .allComplete else none
    | .record [("InProgress", d)] => (read? f d).map .inProgress
    | .record [("Solved", d)] => (read? f d).map .solved
    | _ => none

instance : Form ReplaySettings where
  write s := .record [("step_interval_ms", write s.stepInterval)]
  read? f d := do
    let field ← d.fields? f ["step_interval_ms"]
    some { stepInterval := ← optional? f 400 (field "step_interval_ms") }

instance : Form CampaignSettings where
  write s := .record [("auto_advance", write s.autoAdvance)]
  read? f d := do
    let field ← d.fields? f ["auto_advance"]
    some { autoAdvance := ← optional? f true (field "auto_advance") }

instance : Form Settings where
  write s := .record [("catalog", write s.catalog), ("playback", write s.replay),
    ("progression", write s.campaign)]
  read? f d := do
    let field ← d.fields? f ["catalog", "playback", "progression"]
    let catalog ← optional? f none (field "catalog")
    let replay ← optional? f {} (field "playback")
    let campaign ← optional? f {} (field "progression")
    some { catalog, replay, campaign }

end RobotMaze
