/-
Settings: which catalog to play, how fast to show a run, and when to go on.
-/
import RobotMaze.Text.Decimal
import RobotMaze.Text.Quoted

namespace RobotMaze

/-- A millisecond.  Time is counted in nanoseconds. -/
def millisecond : Nat := 1000000

/-- How a run is shown. -/
structure ReplaySettings where
  /-- The time between two frames, in milliseconds. -/
  stepInterval : Nat := 400
deriving DecidableEq, Inhabited

/-- The time between two frames that is really kept: never less than a millisecond. -/
def ReplaySettings.interval (s : ReplaySettings) : Nat :=
  max s.stepInterval 1 * millisecond

/-- How a player proceeds from level to level. -/
structure CampaignSettings where
  /-- Go straight to the next level after a success. -/
  autoAdvance : Bool := true
deriving DecidableEq, Inhabited

structure Settings where
  /-- The file that the levels come from; the bundled levels if there is none. -/
  catalog : Option String := none
  replay : ReplaySettings := {}
  campaign : CampaignSettings := {}
deriving DecidableEq, Inhabited

namespace Settings

def flagText (b : Bool) : String :=
  if b then "true" else "false"

/-- The catalog as the log shows it. -/
def catalogText : Option String → String
  | none => "None"
  | some path => "Some(" ++ Text.quoted path ++ ")"

def text (s : Settings) : String :=
  "Config \x7b catalog: " ++ catalogText s.catalog
    ++ ", playback: PlaybackConfig \x7b step_interval_ms: " ++ Text.ofNat s.replay.stepInterval
    ++ " \x7d, progression: ProgressionConfig \x7b auto_advance: "
    ++ flagText s.campaign.autoAdvance ++ " \x7d \x7d"

end Settings

end RobotMaze
