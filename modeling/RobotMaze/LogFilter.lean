/-
Which events are shown.

A filter is a list of directives, separated by commas.  A directive sets how much is
shown of the parts of the program whose names begin with its target; the longest target
that fits decides, and of two directives with one target the later.  A directive
without a target is for everything.  A target may name a span in brackets; nothing here
happens inside of spans, so such a directive has no effect.
-/
import RobotMaze.Text.Blank
import RobotMaze.Text.Decimal

namespace RobotMaze

namespace Text

/-- The number of a numeral of up to 64 bits, which may have a plus sign. -/
def readIndex? (s : String) : Option Nat :=
  let digits :=
    match s.toList with
    | '+' :: cs => cs
    | cs => cs
  (readNat? digits).bind fun n => if n < 0x10000000000000000 then some n else none

end Text

/-- How much is shown: nothing at 0, errors at 1, and so on to everything at 5. -/
abbrev Verbosity := Nat

namespace Verbosity

/-- The names from nothing to everything. -/
def names : List String := ["off", "error", "warn", "info", "debug", "trace"]

def everything : Verbosity := 5

/-- Reads a name in any letter case, or a number. -/
def ofText? (s : String) : Option Verbosity :=
  match Text.readIndex? s with
  | some n => if n ≤ everything then some n else none
  | none => names.findIdx? (Text.sameLetters s)

end Verbosity

/-- A rule about what is shown. -/
structure Directive where
  /-- What the names of the parts begin with. -/
  target : Option String
  verbosity : Verbosity
deriving DecidableEq

abbrev LogFilter := List Directive

namespace Directive

/-- Whether a directive may begin with this character. -/
def canBegin (c : Char) : Bool :=
  c.isAlphanum || 0x80 ≤ c.toNat || c == '-' || c == ':' || c == '_'

/-- Reads what follows the sign of equality: everything is shown if that is nothing. -/
def verbosity? (s : List Char) : Option Verbosity :=
  if s.isEmpty then some Verbosity.everything else Verbosity.ofText? (String.ofList s)

/-- Reads what follows the opening bracket of a span. -/
def isSpan (cs : List Char) : Bool :=
  match cs.dropWhile (· != ']') with
  | [_] => true
  | _ :: '=' :: level => (verbosity? level).isSome
  | _ => false

/-- Reads a directive; one about a span is read and has no effect.  Where its parts end is
counted from its first character that is not blank. -/
def ofText? (piece : List Char) : Option (Option Directive) :=
  let body := Text.trim piece
  match body.head? with
  | none => none
  | some '[' => if isSpan (body.drop 1) then some none else none
  | some c =>
    if !canBegin c then none
    else
      let name := body.takeWhile fun c => c != '=' && c != '['
      match body.drop name.length with
      | '[' :: span => if isSpan span then some none else none
      | '=' :: _ =>
        (verbosity? (piece.drop (name.length + 1))).map fun v =>
          some { target := some (String.ofList (piece.take name.length)), verbosity := v }
      | _ =>
        match Verbosity.ofText? (String.ofList piece) with
        | some v => some (some { target := none, verbosity := v })
        | none => some (some { target := some (String.ofList piece), verbosity := 5 })

/-- Whether a directive is about a part of the program. -/
def concerns (d : Directive) (part : String) : Bool :=
  match d.target with
  | none => true
  | some target => target.toList.isPrefixOf part.toList

/-- How narrow a directive is. -/
def narrowness (d : Directive) : Nat :=
  match d.target with
  | none => 0
  | some target => target.utf8ByteSize + 1

end Directive

namespace LogFilter

/-- The filter that applies when there is no other. -/
def standard : LogFilter := [{ target := some "grid_robot", verbosity := 3 }]

/-- Reads a filter; empty pieces between commas have no effect. -/
def ofText? (s : String) : Option LogFilter :=
  ((Text.fields (· == ',') s.toList).mapM Directive.ofText?).map fun ds => ds.filterMap id

/-- The filter of a setting, which may be missing, blank or wrong. -/
def ofSetting (s : Option String) : LogFilter :=
  match s with
  | none => standard
  | some s => if (Text.trim s.toList).isEmpty then standard else (ofText? s).getD standard

/-- The narrower of two directives, the later if they are equally narrow. -/
def narrower (best : Option Directive) (d : Directive) : Option Directive :=
  match best with
  | none => some d
  | some b => if b.narrowness ≤ d.narrowness then some d else some b

/-- How much is shown of a part of the program; nothing if no directive is about it. -/
def verbosityOf (f : LogFilter) (part : String) : Verbosity :=
  match (f.filter fun d => d.concerns part).foldl narrower none with
  | some d => d.verbosity
  | none => 0

end LogFilter

end RobotMaze
