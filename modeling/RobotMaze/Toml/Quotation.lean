/-
Quoted texts.

There are four kinds: basic and literal texts on one line, and the two forms that go over
several lines between three quotation marks.  Basic texts have escapes and literal ones
do not.  Each reader here begins after the opening marks and ends after the closing ones.
-/
import RobotMaze.Toml.Reader

namespace RobotMaze.Toml

/-! ### Escapes -/

def hexValue? (c : Char) : Option Nat :=
  if '0' ≤ c && c ≤ '9' then some (c.toNat - '0'.toNat)
  else if 'a' ≤ c && c ≤ 'f' then some (c.toNat - 'a'.toNat + 10)
  else if 'A' ≤ c && c ≤ 'F' then some (c.toNat - 'A'.toNat + 10)
  else none

/-- The number that hexadecimal digits stand for. -/
def hexNumber? (cs : List Char) : Option Nat :=
  cs.foldlM (fun n c => (hexValue? c).map fun d => 16 * n + d) 0

/-- The character of a code point; surrogates and numbers past the last one have none. -/
def charOfCode? (n : Nat) : Option Char :=
  if n < 0xD800 || (0xDFFF < n && n < 0x110000) then some (Char.ofNat n) else none

/-- Reads a code point of exactly `count` hexadecimal digits. -/
def codePoint? (count : Nat) (cs : List Char) : Result Char :=
  if count ≤ cs.length then
    ((hexNumber? (cs.take count)).bind charOfCode?).map fun c => (c, cs.drop count)
  else none

/-- Reads what follows the backslash of an escape. -/
def escape? : List Char → Result Char
  | 'b' :: cs => some ('\x08', cs)
  | 't' :: cs => some ('\t', cs)
  | 'n' :: cs => some ('\n', cs)
  | 'f' :: cs => some ('\x0c', cs)
  | 'r' :: cs => some ('\r', cs)
  | '"' :: cs => some ('"', cs)
  | '\\' :: cs => some ('\\', cs)
  | 'u' :: cs => codePoint? 4 cs
  | 'U' :: cs => codePoint? 8 cs
  | _ => none

theorem length_le_of_codePoint? {count : Nat} {cs rest : List Char} {c : Char}
    (h : codePoint? count cs = some (c, rest)) : rest.length ≤ cs.length := by
  simp only [codePoint?] at h
  split at h
  · simp only [Option.map_eq_some_iff, Prod.mk.injEq] at h
    obtain ⟨_, _, _, rfl⟩ := h
    simp
  · simp at h

theorem length_lt_of_escape? {cs rest : List Char} {c : Char}
    (h : escape? cs = some (c, rest)) : rest.length < cs.length := by
  unfold escape? at h
  split at h
  case h_8 => exact Nat.lt_succ_of_le (length_le_of_codePoint? h)
  case h_9 => exact Nat.lt_succ_of_le (length_le_of_codePoint? h)
  case h_10 => simp at h
  all_goals
    simp only [Option.some.injEq, Prod.mk.injEq] at h
    simp [← h.2]

/-! ### Texts on one line -/

/-- Reads a basic text up to its closing mark. -/
def basic (cs : List Char) : Result (List Char) :=
  match cs with
  | [] => none
  | '"' :: rest => some ([], rest)
  | '\\' :: rest =>
    match h : escape? rest with
    | none => none
    | some (c, rest') =>
      have := length_lt_of_escape? h
      push c (basic rest')
  | c :: rest => if isPlain c then push c (basic rest) else none
termination_by cs.length
decreasing_by
  · simp only [List.length_cons]
    omega
  · simp

/-- Reads a literal text up to its closing mark. -/
def literal : List Char → Result (List Char)
  | [] => none
  | '\'' :: rest => some ([], rest)
  | c :: rest => if isPlain c then push c (literal rest) else none

theorem length_lt_of_basic {cs text rest : List Char} (h : basic cs = some (text, rest)) :
    rest.length < cs.length := by
  fun_induction basic cs generalizing text with
  | case1 => simp at h
  | case2 =>
    simp only [Option.some.injEq, Prod.mk.injEq] at h
    simp [← h.2]
  | case3 => simp at h
  | case4 _ _ _ _ hlt ih =>
    obtain ⟨t, ht, -⟩ := push_eq_some.1 h
    have := ih ht
    simp only [List.length_cons]
    omega
  | case5 _ _ _ _ _ ih =>
    obtain ⟨t, ht, -⟩ := push_eq_some.1 h
    exact Nat.lt_succ_of_lt (ih ht)
  | case6 => simp at h

theorem length_lt_of_literal {cs text rest : List Char} (h : literal cs = some (text, rest)) :
    rest.length < cs.length := by
  fun_induction literal cs generalizing text with
  | case1 => simp at h
  | case2 =>
    simp only [Option.some.injEq, Prod.mk.injEq] at h
    simp [← h.2]
  | case3 _ _ _ _ ih =>
    obtain ⟨t, ht, -⟩ := push_eq_some.1 h
    exact Nat.lt_succ_of_lt (ih ht)
  | case4 => simp at h

/-! ### Texts over several lines -/

/-- Leaves out the line feed that may follow the opening marks. -/
def dropFirstLine : List Char → List Char
  | '\n' :: cs => cs
  | '\r' :: '\n' :: cs => cs
  | cs => cs

theorem length_dropFirstLine_le (cs : List Char) : (dropFirstLine cs).length ≤ cs.length := by
  unfold dropFirstLine
  split
  · exact Nat.le_succ _
  · exact Nat.le_succ_of_le (Nat.le_succ _)
  · exact Nat.le_refl _

/-- Whether only blanks follow on the line, of which there has to be an end. -/
def lineEnds (cs : List Char) : Bool :=
  match skipSpaces cs with
  | '\n' :: _ => true
  | '\r' :: '\n' :: _ => true
  | _ => false

/-- Skips blanks and ends of lines. -/
def skipGap : List Char → List Char
  | '\n' :: cs => skipGap cs
  | '\r' :: '\n' :: cs => skipGap cs
  | c :: cs => if isSpace c then skipGap cs else c :: cs
  | [] => []

theorem length_skipGap_le (cs : List Char) : (skipGap cs).length ≤ cs.length := by
  fun_induction skipGap cs with
  | case1 _ ih => exact Nat.le_succ_of_le ih
  | case2 _ ih => exact Nat.le_succ_of_le (Nat.le_succ_of_le ih)
  | case3 _ _ _ _ _ ih => exact Nat.le_succ_of_le ih
  | case4 => exact Nat.le_refl _
  | case5 => exact Nat.le_refl _

/-- How many closing marks in a row stand at the front of a text, five at most. -/
def countMarks (mark : Char) (cs : List Char) : Nat :=
  min 5 (cs.takeWhile fun c => c == mark).length

/-- Reads the closing marks.  Up to two marks before the three that close belong to the
text; with fewer than three in a row the text goes on. -/
def closing? (mark : Char) (cs : List Char) : Result (List Char) :=
  if 3 ≤ countMarks mark cs then
    some (List.replicate (countMarks mark cs - 3) mark, cs.drop (countMarks mark cs))
  else none

theorem countMarks_le (mark : Char) (cs : List Char) : countMarks mark cs ≤ cs.length :=
  Nat.le_trans (Nat.min_le_right _ _) (List.takeWhile_sublist _).length_le

theorem length_lt_of_closing? {mark : Char} {cs text rest : List Char}
    (h : closing? mark cs = some (text, rest)) : rest.length < cs.length := by
  simp only [closing?] at h
  split at h
  · next h3 =>
    have hle := countMarks_le mark cs
    simp only [Option.some.injEq, Prod.mk.injEq] at h
    rw [← h.2, List.length_drop]
    omega
  · simp at h

/-- Reads a basic text over several lines up to its closing marks.  A backslash at the end
of a line leaves out everything up to the next character that is no blank. -/
def basicLines (cs : List Char) : Result (List Char) :=
  match closing? '"' cs with
  | some r => some r
  | none =>
    match cs with
    | [] => none
    | '\\' :: rest =>
      if lineEnds rest then
        have := length_skipGap_le rest
        basicLines (skipGap rest)
      else
        match h : escape? rest with
        | none => none
        | some (c, rest') =>
          have := length_lt_of_escape? h
          push c (basicLines rest')
    | '\r' :: '\n' :: rest => push '\n' (basicLines rest)
    | c :: rest => if c = '\n' || isPlain c then push c (basicLines rest) else none
termination_by cs.length
decreasing_by all_goals simp only [List.length_cons]; omega

/-- Reads a literal text over several lines up to its closing marks. -/
def literalLines (cs : List Char) : Result (List Char) :=
  match closing? '\'' cs with
  | some r => some r
  | none =>
    match cs with
    | [] => none
    | '\r' :: '\n' :: rest => push '\n' (literalLines rest)
    | c :: rest => if c = '\n' || isPlain c then push c (literalLines rest) else none
termination_by cs.length
decreasing_by all_goals simp only [List.length_cons]; omega

theorem length_lt_of_basicLines {cs text rest : List Char}
    (h : basicLines cs = some (text, rest)) : rest.length < cs.length := by
  fun_induction basicLines cs generalizing text with
  | case1 _ r hc =>
    simp only [Option.some.injEq] at h
    exact length_lt_of_closing? (hc.trans (congrArg some h))
  | case2 => simp at h
  | case3 _ _ _ _ ih =>
    have := ih h
    simp only [List.length_cons]
    omega
  | case4 => simp at h
  | case5 _ _ _ _ _ _ _ ih =>
    obtain ⟨t, ht, -⟩ := push_eq_some.1 h
    have := ih ht
    simp only [List.length_cons]
    omega
  | case6 _ _ ih =>
    obtain ⟨t, ht, -⟩ := push_eq_some.1 h
    have := ih ht
    simp only [List.length_cons]
    omega
  | case7 _ _ _ _ _ _ ih =>
    obtain ⟨t, ht, -⟩ := push_eq_some.1 h
    exact Nat.lt_succ_of_lt (ih ht)
  | case8 => simp at h

theorem length_lt_of_literalLines {cs text rest : List Char}
    (h : literalLines cs = some (text, rest)) : rest.length < cs.length := by
  fun_induction literalLines cs generalizing text with
  | case1 _ r hc =>
    simp only [Option.some.injEq] at h
    exact length_lt_of_closing? (hc.trans (congrArg some h))
  | case2 => simp at h
  | case3 _ _ ih =>
    obtain ⟨t, ht, -⟩ := push_eq_some.1 h
    have := ih ht
    simp only [List.length_cons]
    omega
  | case4 _ _ _ _ _ ih =>
    obtain ⟨t, ht, -⟩ := push_eq_some.1 h
    exact Nat.lt_succ_of_lt (ih ht)
  | case5 => simp at h

/-! ### All four kinds -/

/-- Reads a text of either kind on one line, opening marks included. -/
def quotedLine? : List Char → Result (List Char)
  | '"' :: cs => basic cs
  | '\'' :: cs => literal cs
  | _ => none

/-- Reads a text of any kind, opening marks included. -/
def quotation? : List Char → Result (List Char)
  | '"' :: '"' :: '"' :: cs => basicLines (dropFirstLine cs)
  | '\'' :: '\'' :: '\'' :: cs => literalLines (dropFirstLine cs)
  | cs => quotedLine? cs

theorem length_lt_of_quotedLine? {cs text rest : List Char}
    (h : quotedLine? cs = some (text, rest)) : rest.length < cs.length := by
  unfold quotedLine? at h
  split at h
  · exact Nat.lt_succ_of_lt (length_lt_of_basic h)
  · exact Nat.lt_succ_of_lt (length_lt_of_literal h)
  · simp at h

theorem length_lt_of_quotation? {cs text rest : List Char}
    (h : quotation? cs = some (text, rest)) : rest.length < cs.length := by
  unfold quotation? at h
  split at h
  · next cs' =>
    have h₁ := length_lt_of_basicLines h
    have h₂ := length_dropFirstLine_le cs'
    simp only [List.length_cons]
    omega
  · next cs' =>
    have h₁ := length_lt_of_literalLines h
    have h₂ := length_dropFirstLine_le cs'
    simp only [List.length_cons]
    omega
  · exact length_lt_of_quotedLine? h

end RobotMaze.Toml
