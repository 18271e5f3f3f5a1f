/-
A text is read back from between its quotation marks.

Each character is shown by a piece of the text between the marks: by itself, or by an
escape.  `Shows` says what a piece does to a reader whatever follows it, so texts on one
line are read back by induction on their characters.

Between three marks there is more to it, because one mark or two may stand in the text
as they are, also right before the three that close.  A reader closes at the first place
where three marks or more lie ahead, and takes those beyond three for the text.  So it must
not see three of them too early, nor more than five at the end.  What both printers produce
is described by `Lines`: no more than two marks in a row.  `Lines.ahead` counts what lies
ahead of the reader at each place, and that is all the reader goes by.
-/
import RobotMaze.Toml.Printer
import RobotMaze.Toml.Quotation

namespace RobotMaze.Toml

/-- However the text goes on, the reader takes the piece for the character. -/
def Shows (read : List Char → Result (List Char)) (c : Char) (piece : List Char) : Prop :=
  ∀ tail, read (piece ++ tail) = push c (read tail)

/-- If every character is shown by a piece, so is a text by its pieces in order. -/
theorem read_flatMap {read : List Char → Result (List Char)} {piece : Char → List Char}
    {close rest : List Char} (hclose : read close = some ([], rest)) :
    ∀ {cs : List Char}, (∀ c ∈ cs, Shows read c (piece c)) →
      read (cs.flatMap piece ++ close) = some (cs, rest) := by
  intro cs
  induction cs with
  | nil => intro _; exact hclose
  | cons c cs ih =>
      intro h
      rw [List.flatMap_cons, List.append_assoc, h c List.mem_cons_self,
        ih fun c hc => h c (List.mem_cons_of_mem _ hc)]
      rfl

/-! ### Characters that stand for themselves -/

theorem isPlain_of_not_isControl {c : Char} (h : isControl c = false) (hn : c ≠ '\n') :
    isPlain c = true := by
  simp only [isControl, isPlain, Bool.or_eq_false_iff, Bool.and_eq_false_iff, Bool.or_eq_true,
    Bool.and_eq_true, bne_iff_ne, beq_iff_eq, bne_eq_false_iff_eq, decide_eq_true_eq,
    decide_eq_false_iff_not, beq_eq_false_iff_ne] at h ⊢
  obtain ⟨(hlow | rfl) | rfl, hdel⟩ := h
  · exact Or.inr ⟨Nat.le_of_not_lt hlow, hdel⟩
  · exact Or.inl rfl
  · exact absurd rfl hn

theorem ne_return_of_isPlain {c : Char} (h : isPlain c = true) : c ≠ '\r' := by
  rintro rfl
  exact absurd h (by decide)

/-- Over several lines a line feed may stand for itself as well, but no return. -/
theorem ne_return_of_line {c : Char} (h : c = '\n' ∨ isPlain c = true) : c ≠ '\r' := by
  rcases h with rfl | hplain
  · decide
  · exact ne_return_of_isPlain hplain

theorem shows_basic {c : Char} (hmark : c ≠ '"') (hescape : c ≠ '\\') (hplain : isPlain c = true) :
    Shows basic c [c] := by
  intro tail
  rw [List.singleton_append, basic.eq_def]
  simp [hplain]

theorem shows_literal {c : Char} (hmark : c ≠ '\'') (hplain : isPlain c = true) :
    Shows literal c [c] := by
  intro tail
  rw [List.singleton_append, literal.eq_def]
  simp [hplain]

/-! ### Escapes -/

/-- What follows the backslash of an escape, however the text goes on; it does not look
like the end of a line. -/
structure Escapes (e : List Char) (c : Char) : Prop where
  read : ∀ tail, escape? (e ++ tail) = some (c, tail)
  within : ∀ tail, lineEnds (e ++ tail) = false

theorem lineEnds_cons {c : Char} (cs : List Char) (hs : isSpace c = false) (hn : c ≠ '\n')
    (hr : c ≠ '\r') : lineEnds (c :: cs) = false := by
  have hskip : skipSpaces (c :: cs) = c :: cs :=
    List.dropWhile_cons_of_neg (by simp [hs])
  unfold lineEnds
  rw [hskip]
  split
  · next heq => exact absurd (List.cons.inj heq).1 hn
  · next heq => exact absurd (List.cons.inj heq).1 hr
  · rfl

theorem hexNumber?_hexDigit :
    ∀ n < 128, hexNumber? ['0', '0', hexDigit (n / 16), hexDigit n] = some n := by
  decide

theorem escapes_mark : Escapes ['"'] '"' :=
  ⟨fun _ => rfl, fun _ => rfl⟩

theorem escapes_lineFeed : Escapes ['n'] '\n' :=
  ⟨fun _ => rfl, fun _ => rfl⟩

/-- Every control is read back from its number. -/
theorem escapes_control {c : Char} (h : c.toNat < 128) :
    Escapes ['u', '0', '0', hexDigit (c.toNat / 16), hexDigit c.toNat] c where
  read tail := by
    have hcode : charOfCode? c.toNat = some c := by
      unfold charOfCode?
      rw [if_pos (by simp only [Bool.or_eq_true, decide_eq_true_eq]; omega), Char.ofNat_toNat]
    show codePoint? 4 ('0' :: '0' :: hexDigit (c.toNat / 16) :: hexDigit c.toNat :: tail) = _
    unfold codePoint?
    rw [if_pos (by simp only [List.length_cons]; omega)]
    simp only [List.take_succ_cons, List.take_zero, List.drop_succ_cons, List.drop_zero,
      hexNumber?_hexDigit _ h, Option.bind_some, hcode, Option.map_some]
  within tail := lineEnds_cons _ (by decide) (by decide) (by decide)

/-- Between basic marks a character is shown by itself or by an escape. -/
theorem escapeBasic_cases (c : Char) :
    (escapeBasic c = [c] ∧ c ≠ '\\' ∧ isControl c = false) ∨
      ∃ e, escapeBasic c = '\\' :: e ∧ Escapes e c := by
  unfold escapeBasic
  split
  · next h => exact Or.inr ⟨['b'], rfl, by subst h; exact ⟨fun _ => rfl, fun _ => rfl⟩⟩
  split
  · next h => exact Or.inr ⟨['t'], rfl, by subst h; exact ⟨fun _ => rfl, fun _ => rfl⟩⟩
  split
  · next h => exact Or.inr ⟨['f'], rfl, by subst h; exact ⟨fun _ => rfl, fun _ => rfl⟩⟩
  split
  · next h => exact Or.inr ⟨['r'], rfl, by subst h; exact ⟨fun _ => rfl, fun _ => rfl⟩⟩
  split
  · next h => exact Or.inr ⟨['\\'], rfl, by subst h; exact ⟨fun _ => rfl, fun _ => rfl⟩⟩
  next hback =>
    split
    · next h =>
      refine Or.inr ⟨_, rfl, escapes_control ?_⟩
      simp only [isControl, Bool.or_eq_true, Bool.and_eq_true, decide_eq_true_eq, beq_iff_eq] at h
      omega
    · next h => exact Or.inl ⟨rfl, hback, Bool.eq_false_iff.mpr h⟩

theorem basic_escape {c : Char} {e tail : List Char} (h : escape? e = some (c, tail)) :
    basic ('\\' :: e) = push c (basic tail) := by
  rw [basic.eq_def]
  simp only
  split
  · rename_i h'
    rw [h] at h'
    cases h'
  · rename_i h'
    rw [h] at h'
    cases h'
    rfl

theorem Escapes.shows_basic {e : List Char} {c : Char} (h : Escapes e c) :
    Shows basic c ('\\' :: e) :=
  fun tail => basic_escape (h.read tail)

/-- A basic text on one line is read back. -/
theorem basic_basicChars (cs rest : List Char) :
    basic (basicChars cs ++ '"' :: rest) = some (cs, rest) := by
  refine read_flatMap (by rw [basic.eq_def]; rfl) fun c _ => ?_
  split
  · next hmark => exact hmark ▸ escapes_mark.shows_basic
  next hmark =>
  split
  · next hline => exact hline ▸ escapes_lineFeed.shows_basic
  · next hline =>
    rcases escapeBasic_cases c with ⟨heq, hescape, hcontrol⟩ | ⟨e, heq, he⟩
    · exact heq ▸ Toml.shows_basic hmark hescape (isPlain_of_not_isControl hcontrol hline)
    · exact heq ▸ he.shows_basic

/-- A literal text on one line is read back if there is nothing in it to escape. -/
theorem literal_append {cs : List Char} (rest : List Char)
    (h : ∀ c ∈ cs, c ≠ '\'' ∧ isPlain c = true) :
    literal (cs ++ '\'' :: rest) = some (cs, rest) := by
  have hread := @read_flatMap literal (fun c => [c]) ('\'' :: rest) rest rfl cs
    fun c hc => shows_literal (h c hc).1 (h c hc).2
  rwa [List.flatMap_singleton'] at hread

/-! ### Marks in a row -/

/-- How many marks in a row stand at the front of a text. -/
def marksAhead (mark : Char) (cs : List Char) : Nat :=
  (cs.takeWhile fun c => c == mark).length

theorem marksAhead_mark (mark : Char) (cs : List Char) :
    marksAhead mark (mark :: cs) = marksAhead mark cs + 1 := by
  simp [marksAhead]

theorem marksAhead_of_head?_ne {mark : Char} {cs : List Char} (h : cs.head? ≠ some mark) :
    marksAhead mark cs = 0 := by
  cases cs with
  | nil => rfl
  | cons c cs =>
      have hne : c ≠ mark := fun heq => h (congrArg some heq)
      simp [marksAhead, hne]

theorem closing?_of_few {mark : Char} {cs : List Char} (h : marksAhead mark cs ≤ 2) :
    closing? mark cs = none := by
  unfold closing? countMarks
  exact if_neg (by unfold marksAhead at h; omega)

theorem closing?_of_enough {mark : Char} {cs : List Char} (h₃ : 3 ≤ marksAhead mark cs)
    (h₅ : marksAhead mark cs ≤ 5) :
    closing? mark cs
      = some (List.replicate (marksAhead mark cs - 3) mark, cs.drop (marksAhead mark cs)) := by
  have hcount : countMarks mark cs = marksAhead mark cs := Nat.min_eq_right h₅
  unfold closing?
  rw [hcount, if_pos h₃]

/-- A text is shown without three marks in a row, `run` of them standing before it. -/
inductive Lines (read : List Char → Result (List Char)) (mark : Char) :
    Nat → List Char → List Char → Prop
  | nil {run : Nat} (hrun : run ≤ 2) : Lines read mark run [] []
  | asIs {run : Nat} {text shown : List Char} (hrun : run < 2)
      (hrest : Lines read mark (run + 1) text shown) :
      Lines read mark run (mark :: text) (mark :: shown)
  | piece {run : Nat} {c first : Char} {more text shown : List Char} (hrun : run ≤ 2)
      (hshows : Shows read c (first :: more)) (hfirst : first ≠ mark)
      (hrest : Lines read mark 0 text shown) :
      Lines read mark run (c :: text) (first :: more ++ shown)

/-- A reader of a text over several lines closes where it can, and else takes a mark for
itself. -/
structure Closes (read : List Char → Result (List Char)) (mark : Char) : Prop where
  close : ∀ {cs : List Char} {p : List Char × List Char}, closing? mark cs = some p →
    read cs = some p
  keep : ∀ {cs : List Char}, closing? mark (mark :: cs) = none →
    read (mark :: cs) = push mark (read cs)

section Lines

variable {read : List Char → Result (List Char)} {mark : Char} {run : Nat}
  {text shown rest : List Char}

/-- Ahead of the reader there are too few marks to close, even with those before it; or the
text ends, and there are not too many. -/
theorem Lines.ahead (h : Lines read mark run text shown) (hrest : rest.head? ≠ some mark) :
    let ahead := shown ++ mark :: mark :: mark :: rest
    marksAhead mark ahead + run ≤ 2 ∨
      3 ≤ marksAhead mark ahead ∧ marksAhead mark ahead + run ≤ 5 ∧
        text = List.replicate (marksAhead mark ahead - 3) mark ∧
        ahead.drop (marksAhead mark ahead) = rest := by
  induction h with
  | nil hrun =>
      have hthree : marksAhead mark (mark :: mark :: mark :: rest) = 3 := by
        rw [marksAhead_mark, marksAhead_mark, marksAhead_mark, marksAhead_of_head?_ne hrest]
      refine Or.inr ?_
      simp only [List.nil_append, hthree]
      exact ⟨Nat.le_refl _, by omega, rfl, rfl⟩
  | @asIs run text shown hrun _ ih =>
      simp only [List.cons_append, marksAhead_mark]
      rcases ih with hfew | ⟨h₃, h₅, htext, hdrop⟩
      · exact Or.inl (by omega)
      · refine Or.inr ⟨by omega, by omega, ?_, hdrop⟩
        rw [Nat.sub_add_comm h₃, List.replicate_succ, ← htext]
  | piece hrun _ hfirst _ _ =>
      refine Or.inl ?_
      simp only [List.cons_append]
      rw [marksAhead_of_head?_ne (by simpa using hfirst)]
      omega

/-- **A text that is shown without three marks in a row is read back.** -/
theorem Lines.read_append (hread : Closes read mark) (h : Lines read mark run text shown)
    (hrest : rest.head? ≠ some mark) :
    read (shown ++ mark :: mark :: mark :: rest) = some (text, rest) := by
  have hclose : ∀ {run : Nat} {text shown : List Char}, Lines read mark run text shown →
      2 < marksAhead mark (shown ++ mark :: mark :: mark :: rest) →
      read (shown ++ mark :: mark :: mark :: rest) = some (text, rest) := by
    intro run text shown h hmany
    rcases h.ahead hrest with hfew | ⟨h₃, h₅, htext, hdrop⟩
    · omega
    · refine hread.close ?_
      rw [closing?_of_enough h₃ (by omega), ← htext, hdrop]
  induction h with
  | nil hrun => exact hclose (.nil hrun) (by simp [marksAhead_mark])
  | @asIs run text shown hrun hrest ih =>
      by_cases hmany : 2 < marksAhead mark (mark :: shown ++ mark :: mark :: mark :: rest)
      · exact hclose (.asIs hrun hrest) hmany
      · have hnone := closing?_of_few (Nat.le_of_not_lt hmany)
        rw [List.cons_append] at hnone ⊢
        rw [hread.keep hnone, ih]
        rfl
  | piece _ hshows _ _ ih =>
      rw [List.append_assoc, hshows, ih]
      rfl

end Lines

/-! ### Texts over several lines -/

theorem closing?_cons_of_ne {mark c : Char} (cs : List Char) (h : c ≠ mark) :
    closing? mark (c :: cs) = none := by
  refine closing?_of_few ?_
  rw [marksAhead_of_head?_ne (by simpa using h)]
  omega

theorem closes_basicLines : Closes basicLines '"' where
  close h := by rw [basicLines.eq_def, h]
  keep h := by
    rw [basicLines.eq_def, h]
    rfl

theorem closes_literalLines : Closes literalLines '\'' where
  close h := by rw [literalLines.eq_def, h]
  keep h := by
    rw [literalLines.eq_def, h]
    rfl

theorem shows_basicLines {c : Char} (hmark : c ≠ '"') (hescape : c ≠ '\\')
    (hplain : c = '\n' ∨ isPlain c = true) : Shows basicLines c [c] := by
  intro tail
  rw [List.singleton_append, basicLines.eq_def, closing?_cons_of_ne tail hmark]
  simp [hplain, ne_return_of_line hplain]

theorem shows_literalLines {c : Char} (hmark : c ≠ '\'')
    (hplain : c = '\n' ∨ isPlain c = true) : Shows literalLines c [c] := by
  intro tail
  rw [List.singleton_append, literalLines.eq_def, closing?_cons_of_ne tail hmark]
  simp [hplain, ne_return_of_line hplain]

theorem Escapes.shows_basicLines {e : List Char} {c : Char} (h : Escapes e c) :
    Shows basicLines c ('\\' :: e) := by
  intro tail
  rw [List.cons_append, basicLines.eq_def, closing?_cons_of_ne _ (by decide)]
  simp only [h.within, Bool.false_eq_true, if_false]
  split
  · rename_i h'
    rw [h.read] at h'
    cases h'
  · rename_i h'
    rw [h.read] at h'
    cases h'
    rfl

theorem lines_basicLineChars (cs : List Char) :
    ∀ {run : Nat}, run ≤ 2 → Lines basicLines '"' run cs (basicLineChars run cs) := by
  induction cs with
  | nil => intro run hrun; exact .nil hrun
  | cons c cs ih =>
      intro run hrun
      have hnext := ih (Nat.zero_le 2)
      unfold basicLineChars
      split
      · next hmark =>
        subst hmark
        split
        · next hfew => exact .asIs hfew (ih hfew)
        · exact .piece hrun escapes_mark.shows_basicLines (by decide) hnext
      next hmark =>
      split
      · next hline =>
        subst hline
        exact .piece hrun (shows_basicLines (by decide) (by decide) (Or.inl rfl)) (by decide) hnext
      · next hline =>
        rcases escapeBasic_cases c with ⟨heq, hescape, hcontrol⟩ | ⟨e, heq, he⟩
        · have hplain := isPlain_of_not_isControl hcontrol hline
          rw [heq]
          exact .piece hrun (shows_basicLines hmark hescape (Or.inr hplain)) hmark hnext
        · rw [heq]
          exact .piece hrun he.shows_basicLines (by decide) hnext

theorem le_longestRun (mark : Char) (cs : List Char) :
    ∀ run : Nat, run ≤ longestRun mark run cs := by
  induction cs with
  | nil => intro run; exact Nat.le_refl _
  | cons c cs ih =>
      intro run
      unfold longestRun
      split
      · exact Nat.le_of_succ_le (ih (run + 1))
      · exact Nat.le_max_left _ _

theorem lines_literal {cs : List Char} (h : ∀ c ∈ cs, isControl c = false) :
    ∀ {run : Nat}, longestRun '\'' run cs ≤ 2 → Lines literalLines '\'' run cs cs := by
  induction cs with
  | nil => intro run hrun; exact .nil hrun
  | cons c cs ih =>
      intro run hlongest
      have hrest := @ih fun c hc => h c (List.mem_cons_of_mem _ hc)
      unfold longestRun at hlongest
      split at hlongest
      · next hmark =>
        subst hmark
        exact .asIs (Nat.le_trans (le_longestRun _ cs (run + 1)) hlongest) (hrest hlongest)
      · next hmark =>
        have hplain : c = '\n' ∨ isPlain c = true := by
          by_cases hline : c = '\n'
          · exact Or.inl hline
          · exact Or.inr (isPlain_of_not_isControl (h c List.mem_cons_self) hline)
        rw [Nat.max_le] at hlongest
        exact .piece hlongest.1 (shows_literalLines hmark hplain) hmark (hrest hlongest.2)

/-! ### The line feed after the opening marks -/

theorem dropFirstLine_cons {c : Char} (cs : List Char) (hn : c ≠ '\n') (hr : c ≠ '\r') :
    dropFirstLine (c :: cs) = c :: cs := by
  unfold dropFirstLine
  split
  · next heq => exact absurd (List.cons.inj heq).1 hn
  · next heq => exact absurd (List.cons.inj heq).1 hr
  · rfl

/-- A reader leaves out the line feed that was put in front of several lines, and no other. -/
theorem dropFirstLine_opening (cs shown : List Char)
    (h : '\n' ∉ cs → ∃ first more, shown = first :: more ∧ first ≠ '\n' ∧ first ≠ '\r') :
    dropFirstLine (opening cs ++ shown) = shown := by
  unfold opening
  by_cases hlines : '\n' ∈ cs
  · rw [if_pos (List.contains_iff_mem.mpr hlines)]
    rfl
  · rw [if_neg (mt List.contains_iff_mem.mp hlines)]
    obtain ⟨first, more, rfl, hn, hr⟩ := h hlines
    exact dropFirstLine_cons _ hn hr

theorem basicLineChars_begins {cs : List Char} (tail : List Char) (h : '\n' ∉ cs) :
    ∃ first more, basicLineChars 0 cs ++ '"' :: tail = first :: more ∧
      first ≠ '\n' ∧ first ≠ '\r' := by
  cases cs with
  | nil => exact ⟨'"', tail, rfl, by decide, by decide⟩
  | cons c cs =>
      have hline : c ≠ '\n' := fun heq => h (heq ▸ List.mem_cons_self)
      unfold basicLineChars
      split
      · exact ⟨'"', _, rfl, by decide, by decide⟩
      rcases escapeBasic_cases c with ⟨heq, -, hcontrol⟩ | ⟨e, heq, -⟩
      · have hplain := isPlain_of_not_isControl hcontrol hline
        exact ⟨c, _, by rw [heq]; rfl, hline, ne_return_of_isPlain hplain⟩
      · exact ⟨'\\', _, by rw [heq]; rfl, by decide, by decide⟩

/-! ### All four kinds -/

theorem longestRun_eq_zero_iff {mark : Char} {cs : List Char} :
    longestRun mark 0 cs = 0 ↔ mark ∉ cs := by
  induction cs with
  | nil => simp [longestRun]
  | cons c cs ih =>
      unfold longestRun
      rw [List.mem_cons, not_or]
      split
      · next hmark =>
        have hpos := le_longestRun mark cs (0 + 1)
        exact iff_of_false (by omega) fun h => h.1 hmark.symm
      · next hmark =>
        rw [Nat.zero_max, ih]
        exact ⟨fun h => ⟨Ne.symm hmark, h⟩, fun h => h.2⟩

theorem Marks.of_eq_literal {cs : List Char} (h : Marks.of cs = .literal) :
    ∀ c ∈ cs, c ≠ '\'' ∧ isPlain c = true := by
  have hnone : ¬cs.any isControl ∧ '\'' ∉ cs ∧ '\n' ∉ cs := by
    simp only [Marks.of] at h
    split at h
    · cases h
    split at h
    · next hplain => simpa [longestRun_eq_zero_iff, and_assoc] using hplain
    · split at h
      · cases h
      split at h
      · cases h
      split at h <;> cases h
  intro c hc
  obtain ⟨hcontrol, hmark, hline⟩ := hnone
  refine ⟨fun heq => hmark (heq ▸ hc), isPlain_of_not_isControl ?_ fun heq => hline (heq ▸ hc)⟩
  exact Bool.eq_false_iff.mpr fun h => hcontrol (List.any_eq_true.mpr ⟨c, hc, h⟩)

theorem Marks.of_eq_literalLines {cs : List Char} (h : Marks.of cs = .literalLines) :
    (∀ c ∈ cs, isControl c = false) ∧ longestRun '\'' 0 cs ≤ 2 := by
  simp only [Marks.of] at h
  split at h
  · cases h
  split at h
  · cases h
  split at h
  · cases h
  split at h
  · next hplain => simpa using hplain
  · split at h <;> cases h

/-- A text on one line is not taken for one between three marks: read as the former, it
would have to be empty and be followed by a mark. -/
theorem quotation?_basic {cs text rest : List Char} (h : basic text = some (cs, rest))
    (hrest : rest.head? ≠ some '"') : quotation? ('"' :: text) = some (cs, rest) := by
  unfold quotation?
  split
  · next heq =>
    rw [(List.cons.inj heq).2, basic.eq_def] at h
    obtain ⟨-, rfl⟩ := Prod.mk.inj (Option.some.inj h)
    exact absurd rfl hrest
  · next heq => exact absurd (List.cons.inj heq).1 (by decide)
  · exact h

theorem quotation?_literal {cs text rest : List Char} (h : literal text = some (cs, rest))
    (hrest : rest.head? ≠ some '\'') : quotation? ('\'' :: text) = some (cs, rest) := by
  unfold quotation?
  split
  · next heq => exact absurd (List.cons.inj heq).1 (by decide)
  · next heq =>
    rw [(List.cons.inj heq).2, literal.eq_def] at h
    obtain ⟨-, rfl⟩ := Prod.mk.inj (Option.some.inj h)
    exact absurd rfl hrest
  · exact h

/-- **A text is read back from between its marks.**  What follows may be anything but a mark. -/
theorem quotation?_textChars (cs : List Char) {rest : List Char} (hd : rest.head? ≠ some '"')
    (hs : rest.head? ≠ some '\'') : quotation? (textChars cs ++ rest) = some (cs, rest) := by
  unfold textChars
  split
  · rw [List.cons_append, List.cons_append, List.append_assoc]
    exact quotation?_basic (basic_basicChars cs rest) hd
  · next hkind =>
    rw [List.cons_append, List.cons_append, List.append_assoc]
    exact quotation?_literal (literal_append rest (Marks.of_eq_literal hkind)) hs
  · rw [List.append_assoc, List.append_assoc, List.append_assoc]
    show basicLines
      (dropFirstLine (opening cs ++ (basicLineChars 0 cs ++ '"' :: '"' :: '"' :: rest))) = _
    rw [dropFirstLine_opening cs _ (basicLineChars_begins _)]
    exact (lines_basicLineChars cs (Nat.zero_le 2)).read_append closes_basicLines hd
  · next hkind =>
    obtain ⟨hcontrol, hlongest⟩ := Marks.of_eq_literalLines hkind
    rw [List.append_assoc, List.append_assoc, List.append_assoc]
    show literalLines (dropFirstLine (opening cs ++ (cs ++ '\'' :: '\'' :: '\'' :: rest))) = _
    rw [dropFirstLine_opening cs]
    · exact (lines_literal hcontrol hlongest).read_append closes_literalLines hs
    · intro hlines
      cases cs with
      | nil => exact ⟨'\'', _, rfl, by decide, by decide⟩
      | cons c cs =>
          have hline : c ≠ '\n' := fun heq => hlines (heq ▸ List.mem_cons_self)
          have hplain := isPlain_of_not_isControl (hcontrol c List.mem_cons_self) hline
          exact ⟨c, _, rfl, hline, ne_return_of_isPlain hplain⟩

end RobotMaze.Toml
