/-
Whole numbers in decimal.

`natChars` and `intChars` write the shortest numeral; `readNat?` reads any run of
digits, with leading zeros or not.
-/
namespace RobotMaze.Text

/-- The decimal numeral of a natural number, without leading zeros. -/
def natChars (n : Nat) : List Char :=
  Nat.toDigits 10 n

/-- The decimal numeral of an integer: a minus sign, if it is negative, and the digits. -/
def intChars (i : Int) : List Char :=
  if i < 0 then '-' :: natChars i.natAbs else natChars i.natAbs

def ofNat (n : Nat) : String :=
  String.ofList (natChars n)

def ofInt (i : Int) : String :=
  String.ofList (intChars i)

/-- The number that a run of decimal digits stands for; nothing for an empty run or one
with any other character. -/
def readNat? (cs : List Char) : Option Nat :=
  if !cs.isEmpty && cs.all Char.isDigit then some (Nat.ofDigitChars 10 cs 0) else none

theorem readNat?_natChars (n : Nat) : readNat? (natChars n) = some n := by
  have hne : (natChars n).isEmpty = false := by
    cases h : natChars n with
    | nil => exact absurd h Nat.toDigits_ne_nil
    | cons c r => rfl
  have hall : (natChars n).all Char.isDigit = true :=
    List.all_eq_true.2 fun c hc => Nat.isDigit_of_mem_toDigits (by decide) (by decide) hc
  simp only [readNat?, hne, hall, Bool.not_false, Bool.and_self, if_true]
  exact congrArg some (Nat.ofDigitChars_toDigits (by decide) (by decide))

end RobotMaze.Text
