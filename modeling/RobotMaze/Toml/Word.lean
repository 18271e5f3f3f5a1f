/-
Values without quotation marks: truth values, numbers, dates and times.

Such a value is a maximal run of word characters, and nothing that may follow a value is
one of them, so a run is read as a whole or not at all.  Only a date may be followed by
a space and a time that belongs to it.
-/
import RobotMaze.Datum
import RobotMaze.Toml.Reader

namespace RobotMaze.Toml

/-- The characters of keys that stand without quotation marks. -/
def isKeyChar (c : Char) : Bool :=
  c.isAlphanum || c == '_' || c == '-'

/-- The characters of values that stand without quotation marks. -/
def isWordChar (c : Char) : Bool :=
  isKeyChar c || c == '+' || c == '.' || c == ':'

/-! ### Integers -/

/-- Leaves out the underscores, each of which has to stand between two digits. -/
def ungroup? (isDigit : Char → Bool) (cs : List Char) : Option (List Char) :=
  let groups := cs.splitOnP (· == '_')
  if groups.all fun g => !g.isEmpty && g.all isDigit then some groups.flatten else none

/-- The digits of a decimal numeral, which begins with a zero only if it is zero. -/
def decimalDigits? (cs : List Char) : Option (List Char) :=
  match ungroup? Char.isDigit cs with
  | some ['0'] => some ['0']
  | some ('0' :: _) => none
  | other => other

/-- Splits off a sign: whether it is a minus sign, and what follows. -/
def unsigned : List Char → Bool × List Char
  | '-' :: cs => (true, cs)
  | '+' :: cs => (false, cs)
  | cs => (false, cs)

/-- The number of digits to a base up to sixteen. -/
def ofDigits (base : Nat) (cs : List Char) : Nat :=
  cs.foldl (fun n c =>
    base * n + (if c.isDigit then c.toNat - '0'.toNat else c.toLower.toNat - 'a'.toNat + 10)) 0

def isHexDigit (c : Char) : Bool :=
  c.isDigit || ('a' ≤ c && c ≤ 'f') || ('A' ≤ c && c ≤ 'F')

/-- A digit to a base of eight or two. -/
def isDigitBelow (base : Nat) (c : Char) : Bool :=
  c.isDigit && c.toNat < '0'.toNat + base

/-- The integers that a document can hold: those of 64 bits with a sign. -/
def inRange? (i : Int) : Option Int :=
  if -0x8000000000000000 ≤ i ∧ i < 0x8000000000000000 then some i else none

/-- Reads an integer.  Other bases than ten have no sign and may begin with zeros. -/
def integer? (word : List Char) : Option Int :=
  match word with
  | '0' :: 'x' :: cs => (ungroup? isHexDigit cs).bind fun ds => inRange? (ofDigits 16 ds)
  | '0' :: 'o' :: cs => (ungroup? (isDigitBelow 8) cs).bind fun ds => inRange? (ofDigits 8 ds)
  | '0' :: 'b' :: cs => (ungroup? (isDigitBelow 2) cs).bind fun ds => inRange? (ofDigits 2 ds)
  | _ =>
    let (negative, cs) := unsigned word
    (decimalDigits? cs).bind fun ds =>
      let n : Int := Nat.ofDigitChars 10 ds 0
      inRange? (if negative then -n else n)

/-! ### Numbers with a fraction or an exponent -/

/-- Whether digits times a power of ten round to more than any number of double
precision: whether they reach the middle between the greatest and the next power of two. -/
def overflows (digits : List Char) (exponent : Int) : Bool :=
  let n := Nat.ofDigitChars 10 digits 0
  let size : Int := (Nat.toDigits 10 n).length + exponent
  if n = 0 || size < 300 then false
  else if 320 < size then true
  else
    let limit := Nat.pow 2 1024 - Nat.pow 2 970
    let scale := Nat.pow 10 exponent.natAbs
    if exponent < 0 then limit * scale ≤ n else limit ≤ n * scale

/-- The value of an exponent, without its letter. -/
def exponent? (cs : List Char) : Option Int :=
  let (negative, cs) := unsigned cs
  (ungroup? Char.isDigit cs).map fun ds =>
    let n : Int := Nat.ofDigitChars 10 ds 0
    if negative then -n else n

/-- Whether a word is a number with a fraction, an exponent or both.  A positive number
that is too great to be represented is refused. -/
def isReal (word : List Char) : Bool :=
  let (negative, cs) := unsigned word
  if cs == "inf".toList || cs == "nan".toList then true
  else
    let (mantissa, power) := cs.span fun c => c != 'e' && c != 'E'
    let (whole, fraction) := mantissa.span (· != '.')
    if power.isEmpty && fraction.isEmpty then false
    else
      let fractionDigits? :=
        match fraction with
        | [] => some []
        | _ :: ds => ungroup? Char.isDigit ds
      let exponentValue? :=
        match power with
        | [] => some 0
        | _ :: ds => exponent? ds
      match decimalDigits? whole, fractionDigits?, exponentValue? with
      | some w, some f, some e => negative || !overflows (w ++ f) (e - f.length)
      | _, _, _ => false

/-! ### Dates and times -/

/-- The number that exactly these digits stand for. -/
def number? (cs : List Char) : Option Nat :=
  if cs.all Char.isDigit then some (Nat.ofDigitChars 10 cs 0) else none

def daysIn (year month : Nat) : Nat :=
  if month = 2 then
    if year % 4 = 0 ∧ (year % 100 ≠ 0 ∨ year % 400 = 0) then 29 else 28
  else if month = 4 ∨ month = 6 ∨ month = 9 ∨ month = 11 then 30
  else 31

/-- Takes a date off the front of a word. -/
def afterDate? : List Char → Option (List Char)
  | y₁ :: y₂ :: y₃ :: y₄ :: '-' :: m₁ :: m₂ :: '-' :: d₁ :: d₂ :: rest => do
    let year ← number? [y₁, y₂, y₃, y₄]
    let month ← number? [m₁, m₂]
    let day ← number? [d₁, d₂]
    if 1 ≤ month && month ≤ 12 && 1 ≤ day && day ≤ daysIn year month then some rest else none
  | _ => none

/-- Takes hours and minutes off the front of a word. -/
def afterClock? : List Char → Option (List Char)
  | h₁ :: h₂ :: ':' :: m₁ :: m₂ :: rest => do
    let hour ← number? [h₁, h₂]
    let minute ← number? [m₁, m₂]
    if hour ≤ 23 && minute ≤ 59 then some rest else none
  | _ => none

/-- Takes a time of day off the front of a word.  A minute may have a leap second. -/
def afterTime? (cs : List Char) : Option (List Char) := do
  match ← afterClock? cs with
  | ':' :: s₁ :: s₂ :: rest =>
    let second ← number? [s₁, s₂]
    if 60 < second then none
    match rest with
    | '.' :: digits =>
      if (digits.takeWhile Char.isDigit).isEmpty then none
      else some (digits.dropWhile Char.isDigit)
    | rest => some rest
  | _ => none

/-- Whether the end of a word is the distance of a time zone, or nothing. -/
def isZone : List Char → Bool
  | [] => true
  | ['Z'] => true
  | ['z'] => true
  | '+' :: cs => afterClock? cs == some []
  | '-' :: cs => afterClock? cs == some []
  | _ => false

/-- Whether a word is a date, a time, or a date and a time with or without a zone. -/
def isMoment (word : List Char) : Bool :=
  match afterDate? word with
  | some [] => true
  | some (c :: cs) =>
    (c == 'T' || c == 't' || c == ' ') && ((afterTime? cs).map isZone).getD false
  | none => afterTime? word == some []

/-! ### Any of them -/

def word? (word : List Char) : Option Datum :=
  if word == "true".toList then some (.bool true)
  else if word == "false".toList then some (.bool false)
  else
    match integer? word with
    | some i => some (.int i)
    | none =>
      if isReal word then some .real
      else if isMoment word then some .moment
      else none

/-- The run of word characters that a text begins with.  If it is a date before a space
and a digit, the time that follows belongs to it. -/
def wordAhead (cs : List Char) : List Char :=
  let run := cs.takeWhile isWordChar
  match cs.drop run.length with
  | ' ' :: c :: rest =>
    if c.isDigit && afterDate? run == some [] then
      run ++ ' ' :: (c :: rest).takeWhile isWordChar
    else run
  | _ => run

/-- Reads a value without quotation marks. -/
def scalar? (cs : List Char) : Result Datum :=
  let word := wordAhead cs
  if word.isEmpty then none else (word? word).map fun d => (d, cs.drop word.length)

theorem length_lt_of_scalar? {cs rest : List Char} {d : Datum}
    (h : scalar? cs = some (d, rest)) : rest.length < cs.length := by
  simp only [scalar?] at h
  split at h
  · simp at h
  · next hne =>
    simp only [Option.map_eq_some_iff, Prod.mk.injEq] at h
    obtain ⟨_, _, _, rfl⟩ := h
    have hpos : 0 < (wordAhead cs).length := by
      cases hw : wordAhead cs with
      | nil => simp [hw] at hne
      | cons => simp
    have hcs : cs ≠ [] := by
      rintro rfl
      simp [wordAhead] at hpos
    have := List.length_pos_iff.2 hcs
    rw [List.length_drop]
    omega

end RobotMaze.Toml
