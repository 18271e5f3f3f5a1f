/-
The log.

An event says what happened, as data; `entry` is the form in which a log shows it.
Functions that report events return them beside their result, in the order in which
they happened.
-/
import RobotMaze.Pose
import RobotMaze.Settings

namespace RobotMaze

/-- Where a player is in a list of levels, which are numbered from 0. -/
inductive Stage where
  | notStarted
  | inProgress (level : Nat)
  /-- This level has just been solved. -/
  | solved (level : Nat)
  | allComplete
deriving DecidableEq, Inhabited

def Stage.text : Stage → String
  | notStarted => "NotStarted"
  | inProgress i => "InProgress(" ++ Text.ofNat i ++ ")"
  | solved i => "Solved(" ++ Text.ofNat i ++ ")"
  | allComplete => "AllComplete"

/-- Something that the log takes note of. -/
inductive Event where
  /-- The robot tried to move from this pose into the wall at this square. -/
  | moveBlocked (pose : Pose) (wall : Position)
  /-- A run of a program of this length on a level ended. -/
  | programFinished (level : String) (length : Nat) (solved : Bool) (final : Pose)
  /-- The player went from one stage to another. -/
  | progressed (left entered : Stage)
  /-- A level was solved, at this attempt. -/
  | levelSolved (level : String) (index attempts : Nat)
  /-- A replay was stopped by whoever was shown this frame. -/
  | replayStopped (frame : Nat)
  | replayFinished (frames : Nat)
  | catalogLoaded (path : String) (levels : Nat)
  | settingsLoaded (path : String) (settings : Settings)
deriving DecidableEq

namespace Event

/-- How much an event matters. -/
inductive Severity where
  | info
  | debug
  | trace
deriving DecidableEq

def Severity.name : Severity → String
  | info => "INFO"
  | debug => "DEBUG"
  | trace => "TRACE"

/-- A value that an event carries. -/
inductive Field where
  | text (s : String)
  | number (i : Int)
  | flag (b : Bool)
deriving DecidableEq

structure Entry where
  severity : Severity
  /-- The part of the program that the entry comes from. -/
  target : String
  message : String
  fields : List (String × Field)
deriving DecidableEq

def entry : Event → Entry
  | moveBlocked pose wall => {
      severity := .trace
      target := "grid_robot::interpreter"
      message := "move blocked"
      fields := [("from", .text pose.text), ("x", .number wall.x), ("y", .number wall.y)] }
  | programFinished level length solved final => {
      severity := .debug
      target := "grid_robot::interpreter"
      message := "program finished"
      fields := [("level", .text level), ("instructions", .number length),
        ("success", .flag solved), ("final_state", .text final.text)] }
  | progressed left entered => {
      severity := .debug
      target := "grid_robot::progression"
      message := "progression"
      fields := [("from", .text left.text), ("to", .text entered.text)] }
  | levelSolved level index attempts => {
      severity := .info
      target := "grid_robot::progression"
      message := "level solved"
      fields := [("level", .text level), ("index", .number index),
        ("attempts", .number attempts)] }
  | replayStopped frame => {
      severity := .debug
      target := "grid_robot::playback"
      message := "replay stopped by frame handler"
      fields := [("at", .number frame)] }
  | replayFinished frames => {
      severity := .debug
      target := "grid_robot::playback"
      message := "replay finished"
      fields := [("frames", .number frames)] }
  | catalogLoaded path levels => {
      severity := .info
      target := "grid_robot::catalog"
      message := "loaded level catalog"
      fields := [("path", .text path), ("levels", .number levels)] }
  | settingsLoaded path settings => {
      severity := .debug
      target := "grid_robot::config"
      message := "loaded config"
      fields := [("path", .text path), ("config", .text settings.text)] }

end Event

end RobotMaze
