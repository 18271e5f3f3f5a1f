/-
Data trees, and how values are read from them.

A `Datum` is what a document holds once its notation is forgotten.  Two notations are in
use and they differ in a few rules of reading, which a `Format` lists; everything else
about the form of a value is the same for both.  A `Form` gives a type its written form:
`write` produces it, and `read?` accepts it and the other spellings that the format
allows.
-/
namespace RobotMaze

/-- A tree of data. -/
inductive Datum where
  | null
  | bool (b : Bool)
  | int (i : Int)
  /-- A number that is written with a fraction or an exponent.  Nothing reads one, so its
  value is not kept. -/
  | real
  | text (s : String)
  /-- A date, a time or both.  Nothing reads one, so its value is not kept. -/
  | moment
  | list (items : List Datum)
  | record (fields : List (String × Datum))
deriving Inhabited

namespace Datum

/-- The rules of reading in which the notations differ. -/
structure Format where
  /-- Whether a record that is given as a list may have more items than fields. -/
  surplus : Bool
  /-- Whether a date or time passes for a record of which no field is known. -/
  momentIsRecord : Bool
  /-- What may stand beside a name that needs nothing beside it. -/
  isUnit : Datum → Bool

namespace Format

/-- The rules for requests. -/
def json : Format where
  surplus := false
  momentIsRecord := false
  isUnit
    | null => true
    | _ => false

/-- The rules inside a record that says by a tag which record it is. -/
def tagged : Format where
  surplus := false
  momentIsRecord := false
  isUnit
    | null => true
    | record [] => true
    | _ => false

/-- The rules for documents. -/
def toml : Format where
  surplus := true
  momentIsRecord := true
  isUnit
    | list [] => true
    | record [] => true
    | _ => false

end Format

/-- Looks fields up in a record.  A record may also be given as the list of its fields in
order, from which fields at the end may be missing. -/
def fields? (f : Format) (names : List String) : Datum → Option (String → Option Datum)
  | record fs => some fun name => List.lookup name fs
  | list items =>
    if items.length ≤ names.length || f.surplus then
      some fun name => items[names.idxOf name]?
    else none
  | moment => if f.momentIsRecord then some fun _ => none else none
  | _ => none

/-- Reads one of finitely many names.  A name may also be given as the only field of a
record, with nothing of interest beside it. -/
def choice? {α : Type} (f : Format) (all : List α) (name : α → String) : Datum → Option α
  | text s => all.find? fun a => name a == s
  | record [(s, payload)] =>
    if f.isUnit payload then all.find? fun a => name a == s else none
  | _ => none

end Datum

/-- A type whose values have a written form. -/
class Form (α : Type) where
  write : α → Datum
  /-- The value of a written form. -/
  read? : Datum.Format → Datum → Option α

namespace Form

open Datum

/-- Reads a field that has to be there. -/
def required? {α : Type} [Form α] (f : Format) (field : Option Datum) : Option α :=
  field.bind (read? f)

/-- Reads a field that has a value of its own when it is not there. -/
def optional? {α : Type} [Form α] (f : Format) (fallback : α) (field : Option Datum) :
    Option α :=
  match field with
  | none => some fallback
  | some d => read? f d

instance : Form Bool where
  write := .bool
  read? _
    | .bool b => some b
    | _ => none

instance : Form String where
  write := .text
  read? _
    | .text s => some s
    | _ => none

/-- Natural numbers are read up to 64 bits. -/
instance : Form Nat where
  write n := .int n
  read? _
    | .int i => if 0 ≤ i ∧ i < 0x10000000000000000 then some i.toNat else none
    | _ => none

/-- Integers are coordinates and are read up to 32 bits. -/
instance : Form Int where
  write := .int
  read? _
    | .int i => if -0x80000000 ≤ i ∧ i < 0x80000000 then some i else none
    | _ => none

instance {α : Type} [Form α] : Form (Option α) where
  write
    | none => .null
    | some a => write a
  read? f
    | .null => some none
    | d => (read? f d).map some

instance {α : Type} [Form α] : Form (List α) where
  write as := .list (as.map write)
  read? f
    | .list items => items.mapM (read? f)
    | _ => none

end Form

end RobotMaze
