/-
The arguments of the program.

Options begin with dashes and may each be given once.  A value follows its option as the
next argument, which then may not begin with a dash, or after a sign of equality; the
short form takes it without either as well.  After two dashes everything is a word of the
robot's program.  The recommended program and a program of one's own exclude each other.
-/
import RobotMaze.Selection

namespace RobotMaze.CommandLine

/-- What the arguments ask for. -/
structure Arguments where
  config : Option String := none
  catalog : Option String := none
  /-- The number or the name of a level. -/
  level : Option String := none
  list : Bool := false
  solution : Bool := false
  /-- Do not hold the program against the rules of the level. -/
  noCheck : Bool := false
  animate : Bool := false
  program : List String := []
deriving DecidableEq

/-- What becomes of arguments. -/
inductive Verdict where
  | accepted (a : Arguments)
  | help
  | rejected
deriving DecidableEq

/-- An option with a value. -/
inductive Setting where
  | config
  | catalog
  | level
deriving DecidableEq

/-- An option without a value. -/
inductive Flag where
  | list
  | solution
  | noCheck
  | animate
deriving DecidableEq

inductive Item where
  /-- An option that takes a value, and the value if it is attached. -/
  | setting (s : Setting) (attached : Option String)
  | flag (f : Flag)
  | help
  /-- The two dashes after which there are no options. -/
  | dashes
  | word (w : String)
  | unknown
deriving DecidableEq

/-- A long option by its name, with the value that is attached to it, if any. -/
def longOption (name : String) (attached : Option String) : Item :=
  match name, attached with
  | "config", v => .setting .config v
  | "catalog", v => .setting .catalog v
  | "level", v => .setting .level v
  | "list", none => .flag .list
  | "solution", none => .flag .solution
  | "no-check", none => .flag .noCheck
  | "animate", none => .flag .animate
  | "help", none => .help
  | _, _ => .unknown

/-- A short option with what is attached to it. -/
def shortOption : List Char → Item
  | ['l'] => .setting .level none
  | 'l' :: '=' :: v => .setting .level (some (String.ofList v))
  | 'l' :: v => .setting .level (some (String.ofList v))
  | 'h' :: _ => .help
  | _ => .unknown

/-- What an argument is, where options may stand. -/
def Item.ofArgument (a : String) : Item :=
  match a.toList with
  | ['-', '-'] => .dashes
  | '-' :: '-' :: cs =>
    let name := cs.takeWhile (· != '=')
    match cs.drop name.length with
    | _ :: v => longOption (String.ofList name) (some (String.ofList v))
    | [] => longOption (String.ofList name) none
  | ['-'] => .word a
  | '-' :: cs => shortOption cs
  | _ => .word a

/-- Whether an argument can be the value of the option before it. -/
def canBeValue (a : String) : Bool :=
  a == "-" || a.toList.head? != some '-'

namespace Arguments

/-- Gives an option its value, unless it has one.  A path may not be empty. -/
def put (a : Arguments) : Setting → String → Option Arguments
  | .config, v =>
    if a.config.isSome || v.isEmpty then none else some { a with config := some v }
  | .catalog, v =>
    if a.catalog.isSome || v.isEmpty then none else some { a with catalog := some v }
  | .level, v => if a.level.isSome then none else some { a with level := some v }

/-- Raises a flag, unless it is up. -/
def raise (a : Arguments) : Flag → Option Arguments
  | .list => if a.list then none else some { a with list := true }
  | .solution => if a.solution then none else some { a with solution := true }
  | .noCheck => if a.noCheck then none else some { a with noCheck := true }
  | .animate => if a.animate then none else some { a with animate := true }

def addWords (a : Arguments) (ws : List String) : Arguments :=
  { a with program := a.program ++ ws }

/-- The verdict when all arguments have been read. -/
def finish (a : Arguments) : Verdict :=
  if a.solution && !a.program.isEmpty then .rejected else .accepted a

/-- Reads the arguments that are left. -/
def readFrom (a : Arguments) : List String → Verdict
  | [] => a.finish
  | arg :: rest =>
    match Item.ofArgument arg with
    | .dashes => (a.addWords rest).finish
    | .word w => readFrom (a.addWords [w]) rest
    | .help => .help
    | .unknown => .rejected
    | .flag f =>
      match a.raise f with
      | some a => readFrom a rest
      | none => .rejected
    | .setting s (some v) =>
      match a.put s v with
      | some a => readFrom a rest
      | none => .rejected
    | .setting s none =>
      match rest with
      | [] => .rejected
      | v :: rest =>
        if canBeValue v then
          match a.put s v with
          | some a => readFrom a rest
          | none => .rejected
        else .rejected

def read (args : List String) : Verdict :=
  readFrom {} args

/-- The level that is selected; the first one if there is no selector. -/
def selector (a : Arguments) : String :=
  a.level.getD "0"

def source (a : Arguments) : ProgramSource :=
  if a.solution then .solution else .tokens a.program

end Arguments

end RobotMaze.CommandLine
