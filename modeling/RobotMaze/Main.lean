/-
The program itself: it reads real files, and shows every line when it is due.
-/
import RobotMaze.CommandLine
import RobotMaze.Toml

namespace RobotMaze

/-- Why reading a file failed. -/
def FileFault.ofError : IO.Error → FileFault
  | .noFileOrDirectory .. => .missing
  | e => .other e.toString

def readFile (path : String) : IO (Except FileFault String) := do
  if path.toList.contains '\x00' then return .error .badName
  try
    let bytes ← IO.FS.readBinFile path
    match String.fromUTF8? bytes with
    | some text => return .ok text
    | none => return .error .notText
  catch e => return .error (.ofError e)

end RobotMaze

open RobotMaze in
/-- Runs the program with the arguments of the process. -/
def main (args : List String) : IO UInt32 := do
  let output ← CommandLine.run Toml.codec readFile args
  let stdout ← IO.getStdout
  let mut now := 0
  for line in output.lines do
    if now < line.time then
      IO.sleep (UInt32.ofNat ((line.time - now) / millisecond))
      now := line.time
    stdout.putStr line.text
    stdout.flush
  (← IO.getStderr).putStr output.report
  return UInt32.ofNat output.code
