/-
Which characters are blank, and the words of a text.

Maps, program texts and names all ignore blank characters, and all of them mean the
same ones: the Unicode property White_Space.  `fields` cuts a text at its separators
and keeps the maximal runs of everything else, so where the separators stand and how
many there are does not show in its result.
-/
namespace RobotMaze.Text

/-- The property White_Space: the six controls, the space, and the spaces and
separators beyond ASCII.  It holds neither the zero-width space nor the byte order mark. -/
def isBlank (c : Char) : Bool :=
  let n := c.toNat
  (0x9 ≤ n && n ≤ 0xD) || n == 0x20 || n == 0x85 || n == 0xA0 || n == 0x1680
    || (0x2000 ≤ n && n ≤ 0x200A) || n == 0x2028 || n == 0x2029 || n == 0x202F
    || n == 0x205F || n == 0x3000

/-- The code points with the property White_Space. -/
def whiteSpace : List Nat :=
  [0x9, 0xA, 0xB, 0xC, 0xD, 0x20, 0x85, 0xA0, 0x1680, 0x2000, 0x2001, 0x2002, 0x2003, 0x2004,
    0x2005, 0x2006, 0x2007, 0x2008, 0x2009, 0x200A, 0x2028, 0x2029, 0x202F, 0x205F, 0x3000]

theorem isBlank_iff {c : Char} : isBlank c = true ↔ c.toNat ∈ whiteSpace := by
  simp only [isBlank, whiteSpace, List.mem_cons, List.not_mem_nil, or_false, Bool.or_eq_true,
    Bool.and_eq_true, decide_eq_true_eq, beq_iff_eq]
  omega

/-- The characters that are not blank, in order. -/
def withoutBlanks (cs : List Char) : List Char :=
  cs.filter fun c => !isBlank c

/-- Removes blank characters from both ends. -/
def trim (cs : List Char) : List Char :=
  ((cs.dropWhile isBlank).reverse.dropWhile isBlank).reverse

/-- The maximal runs of characters that are no separators, from left to right. -/
def fields (isSeparator : Char → Bool) (cs : List Char) : List (List Char) :=
  (cs.splitOnP isSeparator).filter fun run => !run.isEmpty

/-- What follows `opening` in a text that begins with it. -/
def after? (opening cs : List Char) : Option (List Char) :=
  if opening.isPrefixOf cs then some (cs.drop opening.length) else none

theorem length_le_of_after? {opening cs rest : List Char} (h : after? opening cs = some rest) :
    rest.length ≤ cs.length := by
  simp only [after?] at h
  split at h
  · simp only [Option.some.injEq] at h
    simp [← h]
  · simp at h

/-- Lower case for the letters of ASCII; every other character is itself. -/
def lower (cs : List Char) : List Char :=
  cs.map Char.toLower

/-- Whether two texts are equal up to the case of ASCII letters. -/
def sameLetters (a b : String) : Bool :=
  lower a.toList == lower b.toList

/-- A name as a reader types it: blanks around it and the case of letters do not count. -/
def nameKey (s : String) : String :=
  String.ofList (lower (trim s.toList))

end RobotMaze.Text
