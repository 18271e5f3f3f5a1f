/-
Writing documents.

A document is written in blocks with a blank line between them: first the values that
belong to the document itself, then its tables and the elements of its lists of tables,
in order.  Inside a block every key has a line of its own.  A text gets the plainest
quotation marks that need no escape; `Marks.of` says which.
-/
import RobotMaze.Datum
import RobotMaze.Text.Decimal

namespace RobotMaze.Toml

/-! ### Texts -/

/-- Whether a text can only be written with escapes on account of this character. -/
def isControl (c : Char) : Bool :=
  (c.toNat < 0x20 && c != '\t' && c != '\n') || c.toNat == 0x7F

/-- The length of the longest run of a character, given the length of the run before. -/
def longestRun (mark : Char) : Nat → List Char → Nat
  | run, [] => run
  | run, c :: cs =>
    if c = mark then longestRun mark (run + 1) cs else max run (longestRun mark 0 cs)

inductive Marks where
  | basic
  | literal
  | basicLines
  | literalLines
deriving DecidableEq

/-- The quotation marks for a text: the first of the four kinds that shows the text as it
is, and otherwise marks with escapes, over several lines if the text has several. -/
def Marks.of (cs : List Char) : Marks :=
  let control := cs.any isControl
  let backslash := cs.contains '\\'
  let lines := cs.contains '\n'
  let doubles := longestRun '"' 0 cs
  let singles := longestRun '\'' 0 cs
  if !control && !backslash && doubles == 0 && !lines then .basic
  else if !control && singles == 0 && !lines then .literal
  else if !control && !backslash && doubles ≤ 2 then .basicLines
  else if !control && singles ≤ 2 then .literalLines
  else if lines then .basicLines
  else .basic

def hexDigit (n : Nat) : Char :=
  (Nat.digitChar (n % 16)).toUpper

/-- A control written by its number. -/
def controlEscape (c : Char) : List Char :=
  ['\\', 'u', '0', '0', hexDigit (c.toNat / 16), hexDigit c.toNat]

/-- One character between basic marks, a quotation mark and a line feed apart. -/
def escapeBasic (c : Char) : List Char :=
  if c = '\x08' then ['\\', 'b']
  else if c = '\t' then ['\\', 't']
  else if c = '\x0c' then ['\\', 'f']
  else if c = '\r' then ['\\', 'r']
  else if c = '\\' then ['\\', '\\']
  else if isControl c then controlEscape c
  else [c]

/-- A text between basic marks on one line. -/
def basicChars (cs : List Char) : List Char :=
  cs.flatMap fun c =>
    if c = '"' then ['\\', '"'] else if c = '\n' then ['\\', 'n'] else escapeBasic c

/-- A text between basic marks over several lines.  Two quotation marks in a row stand as
they are and the third is escaped; `run` counts those since the last escape. -/
def basicLineChars : Nat → List Char → List Char
  | _, [] => []
  | run, c :: cs =>
    if c = '"' then
      if run < 2 then '"' :: basicLineChars (run + 1) cs
      else '\\' :: '"' :: basicLineChars 0 cs
    else if c = '\n' then '\n' :: basicLineChars 0 cs
    else escapeBasic c ++ basicLineChars 0 cs

/-- A text over several lines begins on a line of its own if it really has several. -/
def opening (cs : List Char) : List Char :=
  if cs.contains '\n' then ['\n'] else []

/-- A text with its quotation marks. -/
def textChars (cs : List Char) : List Char :=
  match Marks.of cs with
  | .basic => '"' :: basicChars cs ++ ['"']
  | .literal => '\'' :: cs ++ ['\'']
  | .basicLines => "\"\"\"".toList ++ opening cs ++ basicLineChars 0 cs ++ "\"\"\"".toList
  | .literalLines => "'''".toList ++ opening cs ++ cs ++ "'''".toList

/-! ### Values on one line -/

mutual

/-- A value on one line.  Integers beyond 64 bits, missing values and tables have no such
form. -/
def inlineChars? : Datum → Option (List Char)
  | .bool true => some "true".toList
  | .bool false => some "false".toList
  | .int i =>
    if -0x8000000000000000 ≤ i ∧ i < 0x8000000000000000 then some (Text.intChars i) else none
  | .text s => some (textChars s.toList)
  | .list items => (itemChars? items).map fun parts =>
      '[' :: ", ".toList.intercalate parts ++ [']']
  | _ => none

/-- The items of a list, each on one line. -/
def itemChars? : List Datum → Option (List (List Char))
  | [] => some []
  | d :: ds => do
    let first ← inlineChars? d
    let more ← itemChars? ds
    some (first :: more)

end

/-- A key and its value on a line. -/
def lineChars? (key : String) (d : Datum) : Option (List Char) :=
  (inlineChars? d).map fun v => key.toList ++ " = ".toList ++ v ++ ['\n']

/-! ### Blocks -/

/-- A part of a document: the line that opens it, if any, and its keys. -/
structure Block where
  header : List Char
  fields : List (String × Datum)

def Block.chars? (b : Block) : Option (List Char) :=
  (b.fields.mapM fun f => lineChars? f.1 f.2).map fun lines => b.header ++ lines.flatten

/-- The fields of a table. -/
def recordFields? : Datum → Option (List (String × Datum))
  | .record fs => some fs
  | _ => none

/-- The blocks that stand for a field of the document; a value needs none. -/
def fieldBlocks (key : String) : Datum → List Block
  | .record fs => [{ header := '[' :: key.toList ++ "]\n".toList, fields := fs }]
  | .list items =>
    if items.isEmpty then []
    else
      match items.mapM recordFields? with
      | some tables => tables.map fun fs =>
          { header := "[[".toList ++ key.toList ++ "]]\n".toList, fields := fs }
      | none => []
  | _ => []

def blocks (fs : List (String × Datum)) : List Block :=
  let values := fs.filter fun f => (fieldBlocks f.1 f.2).isEmpty
  let tables := fs.flatMap fun f => fieldBlocks f.1 f.2
  if values.isEmpty then tables else { header := [], fields := values } :: tables

/-- Writes a document.  Keys have to be such that they need no quotation marks. -/
def print? : Datum → Option String
  | .record fs =>
    ((blocks fs).mapM Block.chars?).map fun parts => String.ofList (['\n'].intercalate parts)
  | _ => none

end RobotMaze.Toml
