/-
The text form of programs.

A program is written as words between blanks or commas.  A plain word is an action; a
conditional is `if-wall-`, a sense, a colon and an action.  Printing uses the first
spelling of each and single spaces; reading takes every spelling in any letter case.
-/
import RobotMaze.Command
import RobotMaze.Text.Align
import RobotMaze.Text.Decimal

namespace RobotMaze

/-- Why a program is refused. -/
inductive ProgramError where
  /-- The program has more commands than the level allows. -/
  | tooLong (length cap : Nat)
  /-- The command at this index needs a kind that the level does not offer. -/
  | unsupported (index : Nat) (kind : Kind)
  | unknownInstruction (text : String)
deriving DecidableEq

def ProgramError.message : ProgramError → String
  | tooLong length cap =>
    "program has " ++ Text.ofNat length ++ " instructions, level allows " ++ Text.ofNat cap
  | unsupported index kind =>
    "instruction " ++ Text.ofNat index ++ " uses " ++ kind.name
      ++ ", which this level does not offer"
  | unknownInstruction text => "unknown instruction " ++ Text.quoted text

namespace Action

/-- Reads one action; the error shows the text as it was given. -/
def ofText (s : String) : Except ProgramError Action :=
  match ofText? s with
  | some a => .ok a
  | none => .error (.unknownInstruction s)

end Action

namespace Command

/-- The word for a command in a program text. -/
def text : Command → String
  | act a => a.word
  | ifWall s a => "if-wall-" ++ s.name ++ ":" ++ a.word

def conditionalOpening : List Char := "if-wall-".toList

/-- Reads what follows the opening of a conditional: a sense, the first colon, an action. -/
def conditional? (cs : List Char) : Option Command :=
  match cs.span (· ≠ ':') with
  | (sense, _ :: body) =>
    match Sense.ofText (String.ofList sense), Action.ofText? (String.ofList body) with
    | .ok s, some a => some (.ifWall s a)
    | _, _ => none
  | (_, []) => none

/-- Reads one word without blanks around it. -/
def ofWord? (word : List Char) : Option Command :=
  match Text.after? conditionalOpening (Text.lower word) with
  | some rest => conditional? rest
  | none => (Action.ofText? (String.ofList word)).map .act

/-- Reads one command; the error shows the text without the blanks around it. -/
def ofText (s : String) : Except ProgramError Command :=
  let word := Text.trim s.toList
  match ofWord? word with
  | some c => .ok c
  | none => .error (.unknownInstruction (String.ofList word))

end Command

namespace Program

/-- What separates the words of a program text. -/
def isSeparator (c : Char) : Bool :=
  Text.isBlank c || c == ','

def words (s : String) : List String :=
  (Text.fields isSeparator s.toList).map String.ofList

/-- Reads a program text; the error names the first word that is no command. -/
def ofText (s : String) : Except ProgramError Program :=
  (words s).mapM Command.ofText

/-- The text of a program, its words separated by single spaces. -/
def text (p : Program) : String :=
  Text.join " " (p.map Command.text)

end Program

end RobotMaze
