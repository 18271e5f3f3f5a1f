/-
The lines of a document are read back.

A piece of a document spells statements if these are read from it whatever stands below
it (`Spells`).  That goes together from piece to piece, so it is enough to look at the
single lines: a key and its value, and the lines that open a table.
-/
import RobotMaze.Proofs.Toml.Value
import RobotMaze.Proofs.Words
import RobotMaze.Toml.Statement

namespace RobotMaze.Toml

/-! ### Keys -/

/-- A key that needs no quotation marks. -/
def IsBare (key : String) : Prop :=
  key.toList ≠ [] ∧ key.toList.all isKeyChar = true

instance (key : String) : Decidable (IsBare key) :=
  inferInstanceAs (Decidable (_ ∧ _))

theorem isWordChar_of_isKeyChar {c : Char} (h : isKeyChar c = true) : isWordChar c = true := by
  simp [isWordChar, h]

theorem IsBare.eq_cons {key : String} (h : IsBare key) :
    ∃ c more, key.toList = c :: more ∧ isWordChar c = true := by
  obtain ⟨c, more, hkey⟩ := List.exists_cons_of_ne_nil h.1
  have hc := List.all_eq_true.mp h.2 c (hkey ▸ List.mem_cons_self)
  exact ⟨c, more, hkey, isWordChar_of_isKeyChar hc⟩

theorem IsBare.opens {key : String} (h : IsBare key) (rest : List Char) :
    Opens (key.toList ++ rest) := by
  obtain ⟨c, more, hkey, hc⟩ := h.eq_cons
  rw [hkey]
  exact opens_of_isWordChar hc _

theorem keyPart?_append {key : String} (hbare : IsBare key) {c : Char} (rest : List Char)
    (hc : isKeyChar c = false) : keyPart? (key.toList ++ c :: rest) = some (key, c :: rest) := by
  obtain ⟨hne, hchars⟩ := hbare
  rw [List.all_eq_true] at hchars
  have hnot : ¬isKeyChar c = true := ne_true_of_eq_false hc
  unfold keyPart?
  simp only [List.takeWhile_append_of_pos hchars, List.dropWhile_append_of_pos hchars,
    List.takeWhile_cons_of_neg hnot, List.dropWhile_cons_of_neg hnot, List.append_nil,
    String.ofList_toList]
  rw [if_neg (by simpa using hne)]

theorem key?_append {key : String} (hbare : IsBare key) {c : Char} (rest : List Char)
    (hc : isKeyChar c = false) (hdot : (skipSpaces (c :: rest)).head? ≠ some '.') :
    key? (key.toList ++ c :: rest) = some ({ path := [], last := key }, c :: rest) := by
  have hparts : keyParts? (key.toList ++ c :: rest)
      = some ({ path := [], last := key }, c :: rest) := by
    have hpart := keyPart?_append hbare rest hc
    rw [keyParts?.eq_def]
    split
    · next h =>
      rw [hpart] at h
      cases h
    · next s after h =>
      rw [hpart] at h
      cases h
      simp only
      split
      · next hskip => exact absurd (congrArg List.head? hskip) hdot
      · rfl
  unfold key?
  rw [hparts]
  rfl

/-! ### Lines -/

/-- A piece of a document that these statements are read from, whatever stands below it. -/
def Spells (cs : List Char) (ss : List Statement) : Prop :=
  ∀ tail, statements? (cs ++ tail) = (statements? tail).map (ss ++ ·)

/-- `statements?` without the facts that it carries along to see that it ends. -/
theorem statements?_eq (cs : List Char) :
    statements? cs = (skipLines false cs).bind fun start =>
      match start with
      | [] => some []
      | start => (statement? start).bind fun p =>
        (endLine false p.2).bind fun rest => (statements? rest).map (p.1 :: ·) := by
  fun_cases statements? cs with
  | case1 hs => simp [hs]
  | case2 hs => simp [hs]
  | case3 _ _ hs _ ht => simp [hs, ht]
  | case4 _ _ hs _ _ _ ht _ he => simp [hs, ht, he]
  | case5 _ _ hs _ _ _ ht _ _ he => simp [hs, ht, he]

theorem statements?_nil : statements? [] = some [] := by
  rw [statements?_eq]
  rfl

theorem statements?_lineFeed (cs : List Char) : statements? ('\n' :: cs) = statements? cs := by
  rw [statements?_eq, statements?_eq cs]
  rfl

theorem Spells.nil : Spells [] [] := by
  intro tail
  simp

theorem Spells.append {cs cs' : List Char} {ss ss' : List Statement} (h : Spells cs ss)
    (h' : Spells cs' ss') : Spells (cs ++ cs') (ss ++ ss') := by
  intro tail
  rw [List.append_assoc, h, h', Option.map_map]
  congr 1
  funext more
  exact (List.append_assoc ss ss' more).symm

/-- An empty line says nothing. -/
theorem Spells.lineFeed : Spells ['\n'] [] := by
  intro tail
  rw [List.singleton_append, statements?_lineFeed]
  simp

theorem Spells.line {cs : List Char} {s : Statement} (hopens : Opens cs)
    (hread : ∀ tail, statement? (cs ++ '\n' :: tail) = some (s, '\n' :: tail)) :
    Spells (cs ++ ['\n']) [s] := by
  intro tail
  have hend : endLine false ('\n' :: tail) = some tail := rfl
  have hskip := (hopens.append ('\n' :: tail)).skipLines
  have hread := hread tail
  obtain ⟨c, more, rfl, -⟩ := hopens
  rw [List.append_assoc, List.singleton_append, statements?_eq, hskip, Option.bind_some]
  rw [List.cons_append] at hread ⊢
  simp only [hread, Option.bind_some, hend]
  rfl

theorem Spells.statements?_eq {cs : List Char} {ss : List Statement} (h : Spells cs ss) :
    statements? cs = some ss := by
  have hall := h []
  rw [List.append_nil, statements?_nil] at hall
  simpa using hall

/-- A key and its value on a line are read as such. -/
theorem spells_lineChars? {key : String} {d : Datum} {line : List Char} (hbare : IsBare key)
    (hnests : Nests maxDepth d) (hline : lineChars? key d = some line) :
    Spells line [.assign { path := [], last := key } d] := by
  unfold lineChars? at hline
  rw [Option.map_eq_some_iff] at hline
  obtain ⟨v, hv, rfl⟩ := hline
  have hwritten := written_inlineChars? maxDepth hnests hv
  refine Spells.line ((hbare.opens _).append _) ?_
  intro tail
  have hassign : assignment? (value maxDepth)
      (key.toList ++ ' ' :: '=' :: ' ' :: (v ++ '\n' :: tail))
        = some (({ path := [], last := key }, d), '\n' :: tail) := by
    have hequals : skipSpaces (' ' :: '=' :: ' ' :: (v ++ '\n' :: tail))
        = '=' :: ' ' :: (v ++ '\n' :: tail) := rfl
    have hvalue : skipSpaces (' ' :: (v ++ '\n' :: tail)) = v ++ '\n' :: tail :=
      (hwritten.opens.append _).skipSpaces
    unfold assignment?
    rw [key?_append hbare _ rfl (by rw [hequals]; exact nofun), Option.bind_some]
    simp only [hequals, hvalue]
    rw [hwritten.read ⟨'\n', tail, rfl, by decide⟩]
    rfl
  rw [List.append_assoc, List.append_assoc]
  show statement? (key.toList ++ ' ' :: '=' :: ' ' :: (v ++ '\n' :: tail)) = _
  obtain ⟨c, more, hkey, hc⟩ := hbare.eq_cons
  unfold statement?
  split
  · next heq =>
    rw [hkey] at heq
    exact absurd (List.cons.inj heq).1 (ne_of_isWordChar hc rfl)
  · next heq =>
    rw [hkey] at heq
    exact absurd (List.cons.inj heq).1 (ne_of_isWordChar hc rfl)
  · rw [hassign]
    rfl

/-- The line that opens a table, or one more element of a list of tables. -/
theorem header?_append {key : String} (hbare : IsBare key) (close : List Char)
    (hclose : ∃ more, close = ']' :: more) (rest : List Char) :
    header? close (key.toList ++ (close ++ rest)) = some ({ path := [], last := key }, rest) := by
  obtain ⟨more, rfl⟩ := hclose
  have hskip : skipSpaces (']' :: more ++ rest) = ']' :: more ++ rest := rfl
  unfold header?
  rw [(hbare.opens _).skipSpaces, List.cons_append,
    key?_append hbare _ rfl (by rw [← List.cons_append, hskip]; exact nofun), Option.bind_some]
  simp only [← List.cons_append, hskip, Text.after?_append, Option.map_some]

theorem spells_table {key : String} (hbare : IsBare key) :
    Spells ('[' :: key.toList ++ "]\n".toList) [.table { path := [], last := key }] := by
  have hline : '[' :: key.toList ++ "]\n".toList = '[' :: key.toList ++ "]".toList ++ ['\n'] := by
    rw [List.append_assoc]
    rfl
  rw [hline]
  refine Spells.line ⟨'[', _, rfl, by decide, by decide⟩ ?_
  intro tail
  have hheader := header?_append hbare "]".toList ⟨[], rfl⟩ ('\n' :: tail)
  obtain ⟨c, more, hkey, hc⟩ := hbare.eq_cons
  rw [List.append_assoc, List.cons_append]
  unfold statement?
  split
  · next heq =>
    rw [hkey] at heq
    exact absurd (List.cons.inj (List.cons.inj heq).2).1 (ne_of_isWordChar hc rfl)
  · next heq =>
    rw [← (List.cons.inj heq).2, hheader]
    rfl
  · next hno => exact (hno _ rfl).elim

theorem spells_element {key : String} (hbare : IsBare key) :
    Spells ("[[".toList ++ key.toList ++ "]]\n".toList)
      [.element { path := [], last := key }] := by
  have hline : "[[".toList ++ key.toList ++ "]]\n".toList
      = "[[".toList ++ key.toList ++ "]]".toList ++ ['\n'] := by
    rw [List.append_assoc, List.append_assoc, List.append_assoc]
    rfl
  rw [hline]
  refine Spells.line ⟨'[', _, rfl, by decide, by decide⟩ ?_
  intro tail
  have hheader := header?_append hbare "]]".toList ⟨[']'], rfl⟩ ('\n' :: tail)
  rw [List.append_assoc, List.append_assoc]
  show (header? "]]".toList (key.toList ++ ("]]".toList ++ '\n' :: tail))).map _ = _
  rw [hheader]
  rfl

/-! ### Blocks -/

section MapM

variable {α β : Type} {f : α → Option β}

theorem mapM_cons_eq_some_iff {a : α} {l : List α} {bs : List β} :
    (a :: l).mapM f = some bs ↔ ∃ b more, f a = some b ∧ l.mapM f = some more ∧ bs = b :: more := by
  simp only [List.mapM_cons, Option.bind_eq_bind, Option.bind_eq_some_iff, Option.pure_def,
    Option.some.injEq]
  constructor
  · rintro ⟨b, hb, more, hmore, rfl⟩
    exact ⟨b, more, hb, hmore, rfl⟩
  · rintro ⟨b, more, hb, hmore, rfl⟩
    exact ⟨b, hb, more, hmore, rfl⟩

theorem mapM_singleton_eq_some_iff {a : α} {bs : List β} :
    [a].mapM f = some bs ↔ ∃ b, f a = some b ∧ bs = [b] := by
  rw [mapM_cons_eq_some_iff]
  constructor
  · rintro ⟨b, more, hb, hnil, rfl⟩
    rw [List.mapM_nil] at hnil
    exact ⟨b, hb, by rw [← Option.some.inj hnil]⟩
  · rintro ⟨b, hb, rfl⟩
    exact ⟨b, [], hb, rfl, rfl⟩

theorem mapM_append_eq_some_iff {l l' : List α} {bs : List β} :
    (l ++ l').mapM f = some bs ↔
      ∃ front back, l.mapM f = some front ∧ l'.mapM f = some back ∧ bs = front ++ back := by
  simp only [List.mapM_append, Option.bind_eq_bind, Option.bind_eq_some_iff, Option.pure_def,
    Option.some.injEq]
  constructor
  · rintro ⟨front, hfront, back, hback, rfl⟩
    exact ⟨front, back, hfront, hback, rfl⟩
  · rintro ⟨front, back, hfront, hback, rfl⟩
    exact ⟨front, hfront, back, hback, rfl⟩

end MapM

/-- The statements of the keys of a table. -/
def assigns (fs : List (String × Datum)) : List Statement :=
  fs.map fun f => .assign { path := [], last := f.1 } f.2

/-- The keys of a table are different and need no marks, and the values do not nest too deep. -/
structure Tidy (fs : List (String × Datum)) : Prop where
  bare : ∀ f ∈ fs, IsBare f.1
  nests : ∀ f ∈ fs, Nests maxDepth f.2
  distinct : (fs.map Prod.fst).Nodup

theorem Tidy.tail {f : String × Datum} {fs : List (String × Datum)} (h : Tidy (f :: fs)) :
    Tidy fs where
  bare g hg := h.bare g (List.mem_cons_of_mem _ hg)
  nests g hg := h.nests g (List.mem_cons_of_mem _ hg)
  distinct := (List.nodup_cons.mp h.distinct).2

theorem spells_lines : ∀ {fs : List (String × Datum)} {lines : List (List Char)}, Tidy fs →
    (fs.mapM fun f => lineChars? f.1 f.2) = some lines → Spells lines.flatten (assigns fs) := by
  intro fs
  induction fs with
  | nil =>
      intro lines _ h
      cases h
      exact .nil
  | cons f fs ih =>
      intro lines htidy h
      obtain ⟨line, more, hline, hmore, rfl⟩ := mapM_cons_eq_some_iff.mp h
      have hf := spells_lineChars? (htidy.bare f List.mem_cons_self)
        (htidy.nests f List.mem_cons_self) hline
      exact hf.append (ih htidy.tail hmore)

theorem spells_block {b : Block} {cs : List Char} {ss : List Statement}
    (hheader : Spells b.header ss) (htidy : Tidy b.fields) (h : b.chars? = some cs) :
    Spells cs (ss ++ assigns b.fields) := by
  unfold Block.chars? at h
  rw [Option.map_eq_some_iff] at h
  obtain ⟨lines, hlines, rfl⟩ := h
  exact hheader.append (spells_lines htidy hlines)

/-- Parts of a document, an empty line above each. -/
def spaced (parts : List (List Char)) : List Char :=
  parts.flatMap ('\n' :: ·)

theorem intercalate_lineFeed (parts : List (List Char)) (part : List Char) :
    ['\n'].intercalate (part :: parts) = part ++ spaced parts := by
  induction parts generalizing part with
  | nil =>
      rw [List.intercalate_singleton]
      exact (List.append_nil part).symm
  | cons second parts ih =>
      rw [List.intercalate_cons_cons, ih second, List.append_assoc]
      rfl

/-- The empty line above the first part makes no difference. -/
theorem statements?_intercalate (parts : List (List Char)) :
    statements? (['\n'].intercalate parts) = statements? (spaced parts) := by
  cases parts with
  | nil => rfl
  | cons part parts =>
      rw [intercalate_lineFeed]
      exact (statements?_lineFeed _).symm

end RobotMaze.Toml
