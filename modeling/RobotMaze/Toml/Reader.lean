/-
Readers: functions that take something off the front of a text.

A reader that succeeds always leaves less than it was given.  That is what lets a list of
items be read by a loop whose end needs no counter.
-/
namespace RobotMaze.Toml

/-- What a reader gives: a value, and the text that follows it. -/
abbrev Result (α : Type) := Option (α × List Char)

/-- A reader, with the reason why it makes progress. -/
structure Reader (α : Type) where
  run : List Char → Result α
  /-- What is left is shorter than what was given. -/
  progress : ∀ {cs : List Char} {a : α} {rest : List Char},
    run cs = some (a, rest) → rest.length < cs.length

/-- Puts a character in front of a text that has been read. -/
def push (c : Char) (r : Result (List Char)) : Result (List Char) :=
  r.map fun p => (c :: p.1, p.2)

theorem push_eq_some {c : Char} {r : Result (List Char)} {text rest : List Char} :
    push c r = some (text, rest) ↔ ∃ t, r = some (t, rest) ∧ text = c :: t := by
  simp only [push, Option.map_eq_some_iff]
  constructor
  · rintro ⟨⟨t, rest'⟩, h, heq⟩
    simp only [Prod.mk.injEq] at heq
    obtain ⟨rfl, rfl⟩ := heq
    exact ⟨t, h, rfl⟩
  · rintro ⟨t, h, rfl⟩
    exact ⟨(t, rest), h, rfl⟩

/-! ### Blanks, comments and the ends of lines -/

/-- The blanks within a line. -/
def isSpace (c : Char) : Bool :=
  c == ' ' || c == '\t'

/-- Whether a character may stand in a comment: no control but the tab. -/
def isPlain (c : Char) : Bool :=
  c == '\t' || (0x20 ≤ c.toNat && c.toNat != 0x7F)

/-- Skips the blanks within a line. -/
def skipSpaces (cs : List Char) : List Char :=
  cs.dropWhile isSpace

theorem length_skipSpaces_le (cs : List Char) : (skipSpaces cs).length ≤ cs.length :=
  (List.dropWhile_sublist isSpace).length_le

theorem length_lt_of_skipSpaces {cs rest : List Char} {c : Char}
    (h : skipSpaces cs = c :: rest) : rest.length < cs.length := by
  have := length_skipSpaces_le cs
  rw [h] at this
  exact this

/-- Skips blanks, ends of lines and comments, inside a comment or not.  A comment may not
hold a control, and a carriage return stands only before a line feed. -/
def skipLines : Bool → List Char → Option (List Char)
  | _, [] => some []
  | _, '\n' :: cs => skipLines false cs
  | _, '\r' :: '\n' :: cs => skipLines false cs
  | true, c :: cs => if isPlain c then skipLines true cs else none
  | false, c :: cs =>
    if isSpace c then skipLines false cs
    else if c = '#' then skipLines true cs
    else some (c :: cs)

theorem length_le_of_skipLines {comment : Bool} {cs rest : List Char}
    (h : skipLines comment cs = some rest) : rest.length ≤ cs.length := by
  fun_induction skipLines comment cs with
  | case1 => simp_all
  | case2 _ _ ih => exact Nat.le_succ_of_le (ih h)
  | case3 _ _ ih => exact Nat.le_succ_of_le (Nat.le_succ_of_le (ih h))
  | case4 _ _ _ _ _ ih => exact Nat.le_succ_of_le (ih h)
  | case5 => simp at h
  | case6 _ _ _ _ _ ih => exact Nat.le_succ_of_le (ih h)
  | case7 _ _ _ _ ih => exact Nat.le_succ_of_le (ih h)
  | case8 => simp_all

/-- Skips what may stand between a statement and the end of its line, and that end. -/
def endLine : Bool → List Char → Option (List Char)
  | _, [] => some []
  | _, '\n' :: cs => some cs
  | _, '\r' :: '\n' :: cs => some cs
  | true, c :: cs => if isPlain c then endLine true cs else none
  | false, c :: cs =>
    if isSpace c then endLine false cs
    else if c = '#' then endLine true cs
    else none

theorem length_le_of_endLine {comment : Bool} {cs rest : List Char}
    (h : endLine comment cs = some rest) : rest.length ≤ cs.length := by
  fun_induction endLine comment cs with
  | case1 => simp_all
  | case2 => simp_all
  | case3 =>
    simp only [Option.some.injEq] at h
    simp only [← h, List.length_cons]
    omega
  | case4 _ _ _ _ _ ih => exact Nat.le_succ_of_le (ih h)
  | case5 => simp at h
  | case6 _ _ _ _ _ ih => exact Nat.le_succ_of_le (ih h)
  | case7 _ _ _ _ ih => exact Nat.le_succ_of_le (ih h)
  | case8 => simp at h

end RobotMaze.Toml
