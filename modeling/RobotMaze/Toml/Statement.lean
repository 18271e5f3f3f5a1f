/-
The statements of a document.

A document is a list of lines, each of which states a table, one more element of a list
of tables, or a key and its value.  Values may nest; `maxDepth` bounds how deep, and how
many parts a dotted key has.
-/
import RobotMaze.Text.Blank
import RobotMaze.Toml.Quotation
import RobotMaze.Toml.Table
import RobotMaze.Toml.Word

namespace RobotMaze.Toml

/-- How deep brackets may nest, and how many parts a dotted key may have. -/
def maxDepth : Nat := 79

/-! ### Keys -/

/-- A key with dots: the tables that it passes through, and its last part. -/
structure Key where
  path : List String
  last : String
deriving DecidableEq

def Key.size (k : Key) : Nat := k.path.length + 1

/-- Reads one part of a key. -/
def keyPart? (cs : List Char) : Result String :=
  let run := cs.takeWhile isKeyChar
  if run.isEmpty then (quotedLine? cs).map fun p => (String.ofList p.1, p.2)
  else some (String.ofList run, cs.dropWhile isKeyChar)

theorem length_lt_of_keyPart? {cs rest : List Char} {s : String}
    (h : keyPart? cs = some (s, rest)) : rest.length < cs.length := by
  simp only [keyPart?] at h
  split at h
  · simp only [Option.map_eq_some_iff, Prod.mk.injEq] at h
    obtain ⟨p, hp, -, rfl⟩ := h
    exact length_lt_of_quotedLine? hp
  · next hne =>
    simp only [Option.some.injEq, Prod.mk.injEq] at h
    rw [← h.2]
    have hsplit := congrArg List.length (List.takeWhile_append_dropWhile (p := isKeyChar) (l := cs))
    have hpos : 0 < (cs.takeWhile isKeyChar).length := by
      cases ht : cs.takeWhile isKeyChar with
      | nil => simp [ht] at hne
      | cons => simp
    rw [List.length_append] at hsplit
    omega

def keyParts? (cs : List Char) : Result Key :=
  match h : keyPart? cs with
  | none => none
  | some (s, rest) =>
    have := length_lt_of_keyPart? h
    match hd : skipSpaces rest with
    | '.' :: rest' =>
      have := length_lt_of_skipSpaces hd
      have := length_skipSpaces_le rest'
      (keyParts? (skipSpaces rest')).map fun p => ({ p.1 with path := s :: p.1.path }, p.2)
    | _ => some ({ path := [], last := s }, rest)
termination_by cs.length

theorem length_lt_of_keyParts? {cs rest : List Char} {k : Key}
    (h : keyParts? cs = some (k, rest)) : rest.length < cs.length := by
  fun_induction keyParts? cs generalizing k with
  | case1 => simp at h
  | case2 cs s after hlt _ rest' hd h₁ h₂ ih =>
    simp only [Option.map_eq_some_iff, Prod.mk.injEq] at h
    obtain ⟨p, hp, -, rfl⟩ := h
    have := ih hp
    omega
  | case3 _ _ _ _ hlt =>
    simp only [Option.some.injEq, Prod.mk.injEq] at h
    exact h.2 ▸ hlt

def key? (cs : List Char) : Result Key :=
  (keyParts? cs).bind fun p => if p.1.size ≤ maxDepth then some p else none

theorem length_lt_of_key? {cs rest : List Char} {k : Key} (h : key? cs = some (k, rest)) :
    rest.length < cs.length := by
  simp only [key?, Option.bind_eq_some_iff] at h
  obtain ⟨p, hp, h⟩ := h
  split at h
  · simp only [Option.some.injEq] at h
    subst h
    exact length_lt_of_keyParts? hp
  · simp at h

/-! ### Values -/

/-- Reads the items of a list up to its closing bracket.  Items are separated by commas;
blanks, ends of lines and comments may stand anywhere between them. -/
def items? (item : Reader Datum) (cs : List Char) : Result (List Datum) :=
  match hs : skipLines false cs with
  | none => none
  | some (']' :: rest) => some ([], rest)
  | some start =>
    have := length_le_of_skipLines hs
    match hi : item.run start with
    | none => none
    | some (d, after) =>
      have := item.progress hi
      match ha : skipLines false after with
      | some (']' :: rest) => some ([d], rest)
      | some (',' :: rest) =>
        have : rest.length < after.length := length_le_of_skipLines ha
        (items? item rest).map fun p => (d :: p.1, p.2)
      | _ => none
termination_by cs.length

theorem length_lt_of_items? {item : Reader Datum} {cs rest : List Char} {ds : List Datum}
    (h : items? item cs = some (ds, rest)) : rest.length < cs.length := by
  fun_induction items? item cs generalizing ds with
  | case1 => simp at h
  | case2 _ _ hs =>
    simp only [Option.some.injEq, Prod.mk.injEq] at h
    have h₁ := length_le_of_skipLines hs
    rw [← h.2]
    exact h₁
  | case3 => simp at h
  | case4 _ _ _ _ h₁ _ _ _ h₂ _ ha =>
    simp only [Option.some.injEq, Prod.mk.injEq] at h
    have h₃ := length_le_of_skipLines ha
    simp only [List.length_cons] at h₃
    rw [← h.2]
    omega
  | case5 _ _ _ _ h₁ _ _ _ h₂ _ _ h₃ ih =>
    simp only [Option.map_eq_some_iff, Prod.mk.injEq] at h
    obtain ⟨p, hp, -, rfl⟩ := h
    have h₄ := ih hp
    omega
  | case6 => simp at h

/-- Reads a key, the sign of equality and a value. -/
def assignment? (item : Reader Datum) (cs : List Char) : Result (Key × Datum) :=
  (key? cs).bind fun p =>
    match skipSpaces p.2 with
    | '=' :: rest => (item.run (skipSpaces rest)).map fun v => ((p.1, v.1), v.2)
    | _ => none

theorem length_lt_of_assignment? {item : Reader Datum} {cs rest : List Char}
    {a : Key × Datum} (h : assignment? item cs = some (a, rest)) :
    rest.length < cs.length := by
  simp only [assignment?, Option.bind_eq_some_iff] at h
  obtain ⟨⟨k, after⟩, hk, h⟩ := h
  have h₁ := length_lt_of_key? hk
  split at h
  · next rest' heq =>
    simp only [Option.map_eq_some_iff, Prod.mk.injEq] at h
    obtain ⟨⟨d, rest''⟩, hv, -, rfl⟩ := h
    have h₂ := item.progress hv
    have h₃ := length_lt_of_skipSpaces heq
    have h₄ := length_skipSpaces_le rest'
    simp only at h₃ ⊢
    omega
  · simp at h

/-- Reads the assignments of a table on one line, up to its closing brace; there is at
least one, and no comma after the last. -/
def assignments? (item : Reader Datum) (cs : List Char) : Result (List (Key × Datum)) :=
  match ha : assignment? item (skipSpaces cs) with
  | none => none
  | some (a, after) =>
    have := length_lt_of_assignment? ha
    have := length_skipSpaces_le cs
    match hs : skipSpaces after with
    | '\x7d' :: rest => some ([a], rest)
    | ',' :: rest =>
      have := length_lt_of_skipSpaces hs
      (assignments? item rest).map fun p => (a :: p.1, p.2)
    | _ => none
termination_by cs.length

theorem length_lt_of_assignments? {item : Reader Datum} {cs rest : List Char}
    {as : List (Key × Datum)} (h : assignments? item cs = some (as, rest)) :
    rest.length < cs.length := by
  fun_induction assignments? item cs generalizing as with
  | case1 => simp at h
  | case2 _ _ after _ h₁ h₂ _ hs =>
    simp only [Option.some.injEq, Prod.mk.injEq] at h
    have h₃ := length_lt_of_skipSpaces hs
    rw [← h.2]
    omega
  | case3 _ _ _ _ h₁ h₂ _ _ h₃ ih =>
    simp only [Option.map_eq_some_iff, Prod.mk.injEq] at h
    obtain ⟨p, hp, -, rfl⟩ := h
    have h₄ := ih hp
    omega
  | case4 => simp at h

/-- The table of assignments that are made one after another. -/
def tableOf? (as : List (Key × Datum)) : Option Entries :=
  as.foldlM (fun es a => es.addDotted a.1.path a.1.last a.2) []

/-- Reads the rest of a table on one line, after its opening brace. -/
def inlineTable? (item : Reader Datum) (cs : List Char) : Result Datum :=
  match skipSpaces cs with
  | '\x7d' :: rest => some (.record [], rest)
  | _ =>
    (assignments? item cs).bind fun p =>
      (tableOf? p.1).map fun es => (.record (fieldsOf es), p.2)

theorem length_lt_of_inlineTable? {item : Reader Datum} {cs rest : List Char} {d : Datum}
    (h : inlineTable? item cs = some (d, rest)) : rest.length < cs.length := by
  simp only [inlineTable?] at h
  split at h
  · next heq =>
    simp only [Option.some.injEq, Prod.mk.injEq] at h
    exact h.2 ▸ length_lt_of_skipSpaces heq
  · simp only [Option.bind_eq_some_iff, Option.map_eq_some_iff, Prod.mk.injEq] at h
    obtain ⟨⟨as, after⟩, ha, _, _, _, rfl⟩ := h
    exact length_lt_of_assignments? ha

/-- Reads a value without brackets. -/
def plainValue? (cs : List Char) : Result Datum :=
  match cs with
  | '"' :: _ => (quotation? cs).map fun p => (.text (String.ofList p.1), p.2)
  | '\'' :: _ => (quotation? cs).map fun p => (.text (String.ofList p.1), p.2)
  | _ => scalar? cs

theorem length_lt_of_plainValue? {cs rest : List Char} {d : Datum}
    (h : plainValue? cs = some (d, rest)) : rest.length < cs.length := by
  unfold plainValue? at h
  split at h
  · simp only [Option.map_eq_some_iff, Prod.mk.injEq] at h
    obtain ⟨p, hp, -, rfl⟩ := h
    exact length_lt_of_quotation? hp
  · simp only [Option.map_eq_some_iff, Prod.mk.injEq] at h
    obtain ⟨p, hp, -, rfl⟩ := h
    exact length_lt_of_quotation? hp
  · exact length_lt_of_scalar? h

/-- Reads a value whose parts are read by `item`. -/
def bracketed? (item : Reader Datum) (cs : List Char) : Result Datum :=
  match cs with
  | '[' :: rest => (items? item rest).map fun p => (.list p.1, p.2)
  | '\x7b' :: rest => inlineTable? item rest
  | _ => plainValue? cs

theorem length_lt_of_bracketed? {item : Reader Datum} {cs rest : List Char} {d : Datum}
    (h : bracketed? item cs = some (d, rest)) : rest.length < cs.length := by
  unfold bracketed? at h
  split at h
  · simp only [Option.map_eq_some_iff, Prod.mk.injEq] at h
    obtain ⟨p, hp, -, rfl⟩ := h
    exact Nat.lt_succ_of_lt (length_lt_of_items? hp)
  · exact Nat.lt_succ_of_lt (length_lt_of_inlineTable? h)
  · exact length_lt_of_plainValue? h

/-- The reader of values in which brackets nest at most so deep. -/
def value : Nat → Reader Datum
  | 0 => { run := plainValue?, progress := length_lt_of_plainValue? }
  | depth + 1 => { run := bracketed? (value depth), progress := length_lt_of_bracketed? }

/-! ### Lines -/

/-- One line of a document. -/
inductive Statement where
  /-- The table with this name begins. -/
  | table (key : Key)
  /-- One more element of the list of tables with this name begins. -/
  | element (key : Key)
  /-- A key of the present table has this value. -/
  | assign (key : Key) (value : Datum)

/-- Reads a name between brackets, up to `close`. -/
def header? (close : List Char) (cs : List Char) : Result Key :=
  (key? (skipSpaces cs)).bind fun p =>
    (Text.after? close (skipSpaces p.2)).map fun rest => (p.1, rest)

theorem length_lt_of_header? {close cs rest : List Char} {k : Key}
    (h : header? close cs = some (k, rest)) : rest.length < cs.length := by
  simp only [header?, Option.bind_eq_some_iff, Option.map_eq_some_iff, Prod.mk.injEq] at h
  obtain ⟨⟨k', after⟩, hk, rest', hc, -, rfl⟩ := h
  have h₁ := length_lt_of_key? hk
  have h₂ := length_skipSpaces_le cs
  have h₃ := length_skipSpaces_le after
  have h₄ := Text.length_le_of_after? hc
  simp only at h₄
  omega

def statement? (cs : List Char) : Result Statement :=
  match cs with
  | '[' :: '[' :: rest => (header? "]]".toList rest).map fun p => (.element p.1, p.2)
  | '[' :: rest => (header? "]".toList rest).map fun p => (.table p.1, p.2)
  | _ => (assignment? (value maxDepth) cs).map fun p => (.assign p.1.1 p.1.2, p.2)

theorem length_lt_of_statement? {cs rest : List Char} {s : Statement}
    (h : statement? cs = some (s, rest)) : rest.length < cs.length := by
  unfold statement? at h
  split at h
  · simp only [Option.map_eq_some_iff, Prod.mk.injEq] at h
    obtain ⟨p, hp, -, rfl⟩ := h
    exact Nat.lt_succ_of_lt (Nat.lt_succ_of_lt (length_lt_of_header? hp))
  · simp only [Option.map_eq_some_iff, Prod.mk.injEq] at h
    obtain ⟨p, hp, -, rfl⟩ := h
    exact Nat.lt_succ_of_lt (length_lt_of_header? hp)
  · simp only [Option.map_eq_some_iff, Prod.mk.injEq] at h
    obtain ⟨p, hp, -, rfl⟩ := h
    exact length_lt_of_assignment? hp

/-- Reads all statements of a document, each on a line of its own. -/
def statements? (cs : List Char) : Option (List Statement) :=
  match hs : skipLines false cs with
  | none => none
  | some [] => some []
  | some start =>
    have := length_le_of_skipLines hs
    match ht : statement? start with
    | none => none
    | some (s, after) =>
      have := length_lt_of_statement? ht
      match he : endLine false after with
      | none => none
      | some rest =>
        have := length_le_of_endLine he
        (statements? rest).map fun ss => s :: ss
termination_by cs.length

end RobotMaze.Toml
