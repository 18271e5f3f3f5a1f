/-
The program on the command line.

`run` does everything but print: it takes the arguments, a notation for documents and a
way to read files, and gives the lines to show, each with the time at which it is due, and
the status to exit with.  It works in any monad, so it can be run on real files and on a
folder in memory.
-/
import RobotMaze.Catalog.Bundled
import RobotMaze.CommandLine.Arguments
import RobotMaze.Replay
import RobotMaze.Run

namespace RobotMaze.CommandLine

structure Line where
  /-- When it is due, in nanoseconds from the start. -/
  time : Nat
  text : String
deriving DecidableEq

/-- What the program shows and how it exits. -/
structure Output where
  /-- The lines for the standard output, in order. -/
  lines : List Line
  /-- The report for the error output. -/
  report : String
  code : Nat
deriving DecidableEq

def Output.text (o : Output) : String :=
  Text.join "" (o.lines.map Line.text)

/-- The exit status for arguments that cannot be understood. -/
def usageStatus : Nat := 2

/-! ### Listing levels -/

def listLine (index : Nat) (l : Level) : String :=
  Text.padLeft 3 (Text.ofNat index) ++ "  " ++ Text.padRight 24 l.name ++ " "
    ++ sizeText l.board.width l.board.height ++ "  max " ++ Text.padLeft 2 (Text.ofNat l.cap)
    ++ "  [" ++ Text.join ", " (l.palette.kinds.map Kind.name) ++ "]\n"

def listLines (c : Catalog) : List Line :=
  c.levels.zipIdx.map fun l => { time := 0, text := listLine l.2 l.1 }

/-! ### Showing a run -/

/-- The words beside the poses of a run: the start, then each command. -/
def labels (p : Program) : List String :=
  "start" :: p.map Command.text

/-- The line about a pose and the command before it. -/
def stepLine (index : Nat) (label : String) (pose : Pose) : String :=
  Text.padLeft 3 (Text.ofNat index) ++ "  " ++ Text.padRight 24 label ++ " " ++ pose.text ++ "\n"

/-- The lines of a run that is shown at once: the map, then every pose. -/
def plainLines (l : Level) (p : Program) (o : Outcome) : List Line :=
  { time := 0, text := l.board.text }
    :: (o.trace.zip (labels p)).zipIdx.map fun s =>
      { time := 0, text := stepLine s.2 s.1.2 s.1.1 }

def frameLine (index : Nat) (pose : Pose) : String :=
  Text.padLeft 3 (Text.ofNat index) ++ "  " ++ pose.text ++ "\n"

/-- The replay of a run that nobody interferes with. -/
def animation (settings : ReplaySettings) (o : Outcome) : Replay.Report :=
  Replay.run o.trace settings .quiet

def animatedLines (r : Replay.Report) : List Line :=
  r.shown.map fun s => { time := s.time, text := frameLine s.index s.pose }

/-- The last line, about the whole run. -/
def verdict (l : Level) (p : Program) (o : Outcome) : String :=
  if o.solved then
    "Solved " ++ Text.quoted l.name ++ " in " ++ Text.ofNat p.length ++ " instructions.\n"
  else "Stopped at " ++ o.final.text ++ "; the goal is at " ++ l.goal.text ++ ".\n"

def shown (animate : Bool) (settings : ReplaySettings) (l : Level) (p : Program) : Output :=
  let o := l.run p
  let r := animation settings o
  let lines := if animate then animatedLines r else plainLines l p o
  let finished := if animate then r.elapsed else 0
  { lines := lines ++ [{ time := finished, text := verdict l p o }]
    report := ""
    code := o.exitStatus }

/-! ### Reporting errors -/

/-- The causes below a message, numbered if there are several. -/
def causeLines : List String → String
  | [] => ""
  | [cause] => "\nCaused by:\n    " ++ cause ++ "\n"
  | causes =>
    "\nCaused by:\n" ++ Text.join "" (causes.zipIdx.map fun c =>
      Text.padLeft 5 (Text.ofNat c.2) ++ ": " ++ c.1 ++ "\n")

/-- The report about an error, from its message down to its deepest cause. -/
def reportText : List String → String
  | [] => "Error: \n"
  | message :: causes => "Error: " ++ message ++ "\n" ++ causeLines causes

def Output.ofError (e : SelectionError) : Output :=
  { lines := [], report := reportText e.chain, code := 1 }

/-! ### Everything together -/

variable {m : Type → Type} [Monad m] (codec : Codec)
  (read : String → m (Except FileFault String))

/-- The settings that the arguments ask for. -/
def settingsFor (a : Arguments) : m (Except SelectionError Settings) :=
  match a.config with
  | none => pure (.ok {})
  | some path => do
    let (result, _) ← Settings.load codec read path
    pure (result.mapError (.settings path))

/-- The catalog that the arguments ask for, or else the settings. -/
def catalogFor (a : Arguments) (s : Settings) : m (Except SelectionError Catalog) :=
  match a.catalog.or s.catalog with
  | none => pure (.ok .bundled)
  | some path => do
    let (result, _) ← Catalog.load codec read path
    pure (result.mapError (.catalog path))

/-- What the program shows once settings and catalog are there. -/
def play (a : Arguments) (s : Settings) (c : Catalog) : Except SelectionError Output :=
  if a.list then .ok { lines := listLines c, report := "", code := 0 }
  else do
    let level ← c.select a.selector
    let program ← level.prepare a.source (!a.noCheck)
    .ok (shown a.animate s.replay level program)

/-- What the program shows for arguments that were understood. -/
def runWith (a : Arguments) : m Output := do
  match ← settingsFor codec read a with
  | .error e => pure (.ofError e)
  | .ok settings =>
    match ← catalogFor codec read a settings with
    | .error e => pure (.ofError e)
    | .ok catalog =>
      match play a settings catalog with
      | .error e => pure (.ofError e)
      | .ok output => pure output

/-- A reminder of how the program is called. -/
def usage : String :=
  "Run a robot navigation program against a puzzle level\n\n"
    ++ "Usage: grid-runner [OPTIONS] [PROGRAM]...\n\n"
    ++ "Options:\n"
    ++ "      --config <CONFIG>    Config file (TOML)\n"
    ++ "      --catalog <CATALOG>  Level catalog to use instead of the bundled one\n"
    ++ "  -l, --level <LEVEL>      Level index (0-based) or name [default: 0]\n"
    ++ "      --list               List the catalog's levels and exit\n"
    ++ "      --solution           Run the level's bundled reference solution\n"
    ++ "      --no-check           Skip the level's instruction palette and length checks\n"
    ++ "      --animate            Replay the trace frame by frame\n"
    ++ "  -h, --help               Print help\n"

/-- The program: what it shows for its arguments. -/
def run (args : List String) : m Output :=
  match Arguments.read args with
  | .rejected => pure { lines := [], report := usage, code := usageStatus }
  | .help => pure { lines := [{ time := 0, text := usage }], report := "", code := 0 }
  | .accepted a => runWith codec read a

end RobotMaze.CommandLine
