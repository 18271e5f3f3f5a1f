/-
Tables under construction.

A document names its tables in several ways, and which of them may name the same table
again depends on how the table came about.  `Origin` remembers that.  A table that a
header passed through on its way may get its own header later; one that a dotted key
brought about may only get more dotted keys; all others are complete.  Where a path
leads through a list of tables, it goes on in the last of them.
-/
import RobotMaze.Datum

namespace RobotMaze.Toml

/-- How a table came about. -/
inductive Origin where
  /-- It has a header of its own, or is the whole document. -/
  | stated
  /-- The header of a table inside of it passed through it. -/
  | passed
  /-- A dotted key passed through it. -/
  | dotted
deriving DecidableEq

/-- What stands under a key. -/
inductive Node where
  | value (d : Datum)
  | table (origin : Origin) (entries : List (String × Node))
  /-- A list of tables, each with a header of its own. -/
  | tables (elements : List (List (String × Node)))

/-- The keys of a table and what stands under them, in order. -/
abbrev Entries := List (String × Node)

namespace Entries

def find? (key : String) (es : Entries) : Option Node :=
  List.lookup key es

/-- Puts something under a key, in the place of what stood there or else at the end. -/
def put (key : String) (n : Node) : Entries → Entries
  | [] => [(key, n)]
  | (k, m) :: es => if k = key then (k, n) :: es else (k, m) :: put key n es

/-- After something is put under a key it stands there, and all else stands as before. -/
theorem find?_put (key other : String) (n : Node) (es : Entries) :
    find? other (put key n es) = if other = key then some n else find? other es := by
  unfold find?
  induction es with
  | nil =>
    by_cases h : other = key
    · simp [put, h]
    · simp [put, List.lookup_cons, beq_eq_false_iff_ne.mpr h, h]
  | cons e es ih =>
    obtain ⟨k, m⟩ := e
    by_cases hk : k = key
    · subst hk
      by_cases h : other = k
      · simp [put, h]
      · simp [put, List.lookup_cons, beq_eq_false_iff_ne.mpr h, h]
    · by_cases h : other = k
      · subst h
        simp [put, hk]
      · simp [put, List.lookup_cons, beq_eq_false_iff_ne.mpr h, hk, ih]

/-- Changes the table that a path leads to.  Tables that are not there are brought about,
by a dotted key or by a header; a dotted key may not pass through a table that has a
header of its own. -/
def change (dotted : Bool) (f : Origin → Entries → Option Entries) :
    List String → Origin → Entries → Option Entries
  | [], origin, es => f origin es
  | key :: path, _, es =>
    match find? key es with
    | none =>
      let origin := if dotted then Origin.dotted else Origin.passed
      (change dotted f path origin []).map fun inner => put key (.table origin inner) es
    | some (.value _) => none
    | some (.table origin inner) =>
      if dotted && origin == .stated then none
      else (change dotted f path origin inner).map fun inner => put key (.table origin inner) es
    | some (.tables elements) =>
      match elements.reverse with
      | [] => none
      | last :: before =>
        (change dotted f path .stated last).map fun last =>
          put key (.tables (last :: before).reverse) es

/-- Adds a value under a key that is not in use. -/
def add (key : String) (d : Datum) (es : Entries) : Option Entries :=
  match find? key es with
  | none => some (put key (.value d) es)
  | some _ => none

/-- Adds a value under a dotted key.  Its last table has to be one that dotted keys brought
about, so that keys with dots and keys without do not meet in one table. -/
def addDotted (path : List String) (key : String) (d : Datum) (es : Entries) :
    Option Entries :=
  change true
    (fun origin es => if (origin == .dotted) == path.isEmpty then none else add key d es)
    path .stated es

/-- States a table by a header.  It has to be new, or one that headers only passed through. -/
def state (path : List String) (key : String) (es : Entries) : Option Entries :=
  change false
    (fun _ es =>
      match find? key es with
      | none => some (put key (.table .stated []) es)
      | some (.table .passed inner) => some (put key (.table .stated inner) es)
      | some _ => none)
    path .stated es

/-- States one more table of a list of tables. -/
def stateElement (path : List String) (key : String) (es : Entries) : Option Entries :=
  change false
    (fun _ es =>
      match find? key es with
      | none => some (put key (.tables [[]]) es)
      | some (.tables elements) => some (put key (.tables (elements ++ [[]])) es)
      | some _ => none)
    path .stated es

end Entries

/-! ### The finished tree -/

mutual

/-- The tree of what stands under a key. -/
def Node.datum : Node → Datum
  | .value d => d
  | .table _ entries => .record (fieldsOf entries)
  | .tables elements => .list (itemsOf elements)

def fieldsOf : List (String × Node) → List (String × Datum)
  | [] => []
  | (key, n) :: es => (key, n.datum) :: fieldsOf es

def itemsOf : List (List (String × Node)) → List Datum
  | [] => []
  | entries :: more => .record (fieldsOf entries) :: itemsOf more

end

end RobotMaze.Toml
