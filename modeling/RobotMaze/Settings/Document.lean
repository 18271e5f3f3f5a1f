/-
Settings as a document.

A document may leave out any setting, and all of them.  A file of settings names its
catalog relative to the folder that it lies in itself.
-/
import RobotMaze.Codec
import RobotMaze.Datum.Play
import RobotMaze.Storage

namespace RobotMaze

/-- Why there are no settings. -/
inductive SettingsError where
  | file (fault : FileFault)
  /-- The text is no document, or not one of settings. -/
  | notSettings
deriving DecidableEq

namespace SettingsError

def message : SettingsError → String
  | file fault => "IO error: " ++ fault.message
  | notSettings => "TOML error: " ++ Codec.faultText

def causes : SettingsError → List String
  | file fault => [fault.message]
  | notSettings => [Codec.faultText]

end SettingsError

namespace Settings

def ofText (codec : Codec) (s : String) : Except SettingsError Settings :=
  match (codec.read? s).bind (Form.read? .toml) with
  | none => .error .notSettings
  | some settings => .ok settings

/-- The settings of a file at `path`, with the path of the catalog seen from where the
path of the file is seen from. -/
def locatedAt (s : Settings) (path : String) : Settings :=
  match s.catalog, Path.parent? path with
  | some catalog, some folder => { s with catalog := some (Path.join folder catalog) }
  | _, _ => s

/-- Reads settings from a file by means of `read`. -/
def load {m : Type → Type} [Monad m] (codec : Codec)
    (read : String → m (Except FileFault String)) (path : String) :
    m (Except SettingsError Settings × List Event) := do
  match ← read path with
  | .error fault => pure (.error (.file fault), [])
  | .ok text =>
    match ofText codec text with
    | .error e => pure (.error e, [])
    | .ok s => pure (.ok (s.locatedAt path), [.settingsLoaded path (s.locatedAt path)])

end Settings

end RobotMaze
