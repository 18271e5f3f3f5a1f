/-
What is shown can be told apart.

Lines and messages are put together from numerals, words for poses, names in quotation marks
and columns.  Each of these pieces shows where it ends: a numeral at a character that is no
digit, a heading at one that is no letter, a quoted name at its second mark.  So what a piece
stands for is read off it whatever follows, and piece by piece it is read off the whole
(`StepRow.unique`, `FrameRow.unique`, `quoted_injective`).
-/
import Mathlib.Tactic.SplitIfs
import RobotMaze.CommandLine

namespace RobotMaze

namespace Text

/-- Texts that are cut at a character which neither has before the cut. -/
theorem eq_of_append_cons_eq {c : Char} {cs cs' r r' : List Char} (hc : c ∉ cs) (hc' : c ∉ cs')
    (h : cs ++ c :: r = cs' ++ c :: r') : cs = cs' ∧ r = r' := by
  induction cs generalizing cs' with
  | nil =>
      cases cs' with
      | nil => exact ⟨rfl, (List.cons.inj h).2⟩
      | cons d ds =>
          obtain ⟨rfl, -⟩ := List.cons.inj h
          exact absurd List.mem_cons_self hc'
  | cons d ds ih =>
      cases cs' with
      | nil =>
          obtain ⟨rfl, -⟩ := List.cons.inj h
          exact absurd List.mem_cons_self hc
      | cons e es =>
          obtain ⟨rfl, htails⟩ := List.cons.inj h
          rw [List.mem_cons, not_or] at hc hc'
          obtain ⟨rfl, hr⟩ := ih hc.2 hc'.2 htails
          exact ⟨rfl, hr⟩

/-! ### Numerals -/

theorem natChars_injective : Function.Injective natChars := by
  intro m n h
  have hread : readNat? (natChars m) = some n := h ▸ readNat?_natChars n
  exact Option.some.inj ((readNat?_natChars m).symm.trans hread)

theorem isDigit_of_mem_natChars {n : Nat} {c : Char} (h : c ∈ natChars n) : c.isDigit = true :=
  Nat.isDigit_of_mem_toDigits (by decide) (by decide) h

/-- A numeral ends before any character that is no digit. -/
theorem not_mem_natChars {c : Char} (hc : c.isDigit = false) (n : Nat) : c ∉ natChars n :=
  fun h => Bool.false_ne_true (hc.symm.trans (isDigit_of_mem_natChars h))

theorem not_mem_intChars {c : Char} (hc : c.isDigit = false) (hminus : c ≠ '-') (i : Int) :
    c ∉ intChars i := by
  unfold intChars
  split
  · rw [List.mem_cons, not_or]
    exact ⟨hminus, not_mem_natChars hc _⟩
  · exact not_mem_natChars hc _

theorem intChars_injective : Function.Injective intChars := by
  intro i j h
  have hminus : ∀ n, '-' ∉ natChars n := not_mem_natChars rfl
  unfold intChars at h
  split at h <;> split at h
  · have habs := natChars_injective (List.cons.inj h).2
    omega
  · exact absurd (h ▸ List.mem_cons_self) (hminus _)
  · exact absurd (h ▸ List.mem_cons_self) (hminus _)
  · have habs := natChars_injective h
    omega

theorem ofNat_eq_toString (n : Nat) : ofNat n = toString n :=
  rfl

theorem ofInt_eq_toString (i : Int) : ofInt i = toString i := by
  cases i with
  | ofNat n => rfl
  | negSucc n =>
      rw [ofInt, intChars, if_pos (Int.negSucc_lt_zero n)]
      show _ = "-" ++ Nat.repr (n + 1)
      rw [Nat.repr_eq_ofList_toDigits]
      exact String.toList_inj.mp (by simp [natChars])

/-! ### Columns -/

/-- A column of this width in which a text stands to the right, behind blanks. -/
def OnRight (width : Nat) (s column : String) : Prop :=
  column.length = max width s.length ∧ ∃ n, column = String.ofList (List.replicate n ' ') ++ s

/-- A column of this width in which a text stands to the left, before blanks. -/
def OnLeft (width : Nat) (s column : String) : Prop :=
  column.length = max width s.length ∧ ∃ n, column = s ++ String.ofList (List.replicate n ' ')

theorem onRight_padLeft (width : Nat) (s : String) : OnRight width s (padLeft width s) := by
  refine ⟨?_, width - s.toList.length, String.toList_inj.mp (by simp [padLeft])⟩
  simp only [padLeft, String.length_ofList, List.length_append, List.length_replicate,
    String.length_toList]
  omega

theorem onLeft_padRight (width : Nat) (s : String) : OnLeft width s (padRight width s) := by
  refine ⟨?_, width - s.toList.length, String.toList_inj.mp (by simp [padRight])⟩
  simp only [padRight, String.length_ofList, List.length_append, List.length_replicate,
    String.length_toList]
  omega

/-! ### Names in quotation marks -/

theorem exists_digitChar_of_mem_toDigits {n : Nat} {c : Char} (h : c ∈ Nat.toDigits 16 n) :
    ∃ d < 16, c = Nat.digitChar d := by
  induction n using Nat.strongRecOn with
  | ind n ih =>
      rcases Nat.lt_or_ge n 16 with hn | hn
      · rw [Nat.toDigits_of_lt_base hn] at h
        exact ⟨n, hn, List.mem_singleton.mp h⟩
      · rw [Nat.toDigits_of_base_le (by decide) hn] at h
        rcases List.mem_append.mp h with h | h
        · exact ih (n / 16) (Nat.div_lt_self (by omega) (by decide)) h
        · exact ⟨n % 16, Nat.mod_lt _ (by decide), List.mem_singleton.mp h⟩

theorem digitChar_inj : ∀ d < 16, ∀ e < 16, Nat.digitChar d = Nat.digitChar e → d = e := by
  decide

/-- The digits of a number are those of its sixteenth and the last one. -/
theorem toDigits_sixteen_injective : Function.Injective (Nat.toDigits 16) := by
  intro m
  induction m using Nat.strongRecOn with
  | ind m ih =>
      intro n h
      rcases Nat.lt_or_ge m 16 with hm | hm <;> rcases Nat.lt_or_ge n 16 with hn | hn
      · rw [Nat.toDigits_of_lt_base hm, Nat.toDigits_of_lt_base hn] at h
        exact digitChar_inj m hm n hn (List.singleton_inj.mp h)
      · rw [Nat.toDigits_of_lt_base hm, Nat.toDigits_of_base_le (by decide) hn] at h
        exact absurd (congrArg List.length h) (by simp)
      · rw [Nat.toDigits_of_base_le (by decide) hm, Nat.toDigits_of_lt_base hn] at h
        exact absurd (congrArg List.length h) (by simp)
      · rw [Nat.toDigits_of_base_le (by decide) hm, Nat.toDigits_of_base_le (by decide) hn] at h
        obtain ⟨hinit, hlast⟩ := List.append_inj' h rfl
        have hdiv : m / 16 = n / 16 := ih (m / 16) (Nat.div_lt_self (by omega) (by decide)) hinit
        have hmod : m % 16 = n % 16 := digitChar_inj _ (Nat.mod_lt _ (by decide)) _
          (Nat.mod_lt _ (by decide)) (List.singleton_inj.mp hlast)
        omega

/-- The characters that are written by a sign of their own behind a backslash. -/
def signs : List (Char × Char) :=
  [('"', '"'), ('\\', '\\'), ('t', '\t'), ('n', '\n'), ('r', '\r'), ('0', '\x00')]

/-- How a character is written between quotation marks: as it is, by a sign or by its number. -/
inductive Escapes (c : Char) : List Char → Prop
  | plain (hmark : c ≠ '"') (hslash : c ≠ '\\') : Escapes c [c]
  | sign {letter : Char} (h : (letter, c) ∈ signs) : Escapes c ['\\', letter]
  | number : Escapes c ('\\' :: 'u' :: '\x7b' :: (Nat.toDigits 16 c.toNat ++ ['\x7d']))

theorem escapes_escaped (c : Char) : Escapes c (escaped '"' c) := by
  unfold escaped
  split_ifs with hself htab hbreak hreturn hzero hhidden
  · rcases Bool.or_eq_true_iff.mp hself with h | h
    · obtain rfl := of_decide_eq_true h
      exact .sign (by decide)
    · obtain rfl := of_decide_eq_true h
      exact .sign (by decide)
  · exact htab ▸ .sign (by decide)
  · exact hbreak ▸ .sign (by decide)
  · exact hreturn ▸ .sign (by decide)
  · obtain rfl : c = '\x00' := Char.toNat_inj.mp hzero
    exact .sign (by decide)
  · exact .number
  · simp only [Bool.or_eq_true, decide_eq_true_eq, not_or] at hself
    exact .plain hself.1 hself.2

theorem signs_unique : ∀ p ∈ signs, ∀ q ∈ signs, p.1 = q.1 → p.2 = q.2 := by
  decide

theorem sign_ne_u : ∀ p ∈ signs, p.1 ≠ 'u' := by
  decide

namespace Escapes

variable {c d : Char} {cs ds r r' : List Char}

/-- A character is not written so that it looks like the closing mark. -/
theorem ne_mark (h : Escapes c cs) : ∃ first rest, cs = first :: rest ∧ first ≠ '"' := by
  cases h with
  | plain hmark => exact ⟨c, [], rfl, hmark⟩
  | sign => exact ⟨_, _, rfl, by decide⟩
  | number => exact ⟨_, _, rfl, by decide⟩

/-- The character is read off whatever follows. -/
theorem unique (h : Escapes c cs) (h' : Escapes d ds) (heq : cs ++ r = ds ++ r') :
    c = d ∧ r = r' := by
  cases h with
  | plain _ hslash =>
      cases h' with
      | plain => exact List.cons.inj heq
      | sign => exact absurd (List.cons.inj heq).1 hslash
      | number => exact absurd (List.cons.inj heq).1 hslash
  | sign hsign =>
      cases h' with
      | plain _ hslash => exact absurd (List.cons.inj heq).1.symm hslash
      | sign hsign' =>
          obtain ⟨hletter, hrest⟩ := List.cons.inj (List.cons.inj heq).2
          exact ⟨signs_unique _ hsign _ hsign' hletter, hrest⟩
      | number =>
          exact absurd (List.cons.inj (List.cons.inj heq).2).1 (sign_ne_u _ hsign)
  | number =>
      cases h' with
      | plain _ hslash => exact absurd (List.cons.inj heq).1.symm hslash
      | sign hsign =>
          exact absurd (List.cons.inj (List.cons.inj heq).2).1.symm (sign_ne_u _ hsign)
      | number =>
          have hclose : ∀ n, '\x7d' ∉ Nat.toDigits 16 n := by
            intro n hmem
            obtain ⟨d, hd, hdigit⟩ := exists_digitChar_of_mem_toDigits hmem
            exact (by decide : ∀ d < 16, '\x7d' ≠ Nat.digitChar d) d hd hdigit
          simp only [List.cons_append, List.append_assoc, List.nil_append, List.cons.injEq,
            true_and] at heq
          obtain ⟨hdigits, hrest⟩ := eq_of_append_cons_eq (hclose _) (hclose _) heq
          exact ⟨Char.toNat_inj.mp (toDigits_sixteen_injective hdigits), hrest⟩

end Escapes

/-- A name between its marks is read off whatever follows. -/
theorem eq_of_quotedChars_eq {cs ds r r' : List Char}
    (h : cs.flatMap (escaped '"') ++ '"' :: r = ds.flatMap (escaped '"') ++ '"' :: r') :
    cs = ds ∧ r = r' := by
  induction cs generalizing ds with
  | nil =>
      cases ds with
      | nil => exact ⟨rfl, (List.cons.inj h).2⟩
      | cons d ds =>
          obtain ⟨first, rest, hd, hmark⟩ := (escapes_escaped d).ne_mark
          rw [List.flatMap_cons, hd] at h
          exact absurd (List.cons.inj h).1.symm hmark
  | cons c cs ih =>
      cases ds with
      | nil =>
          obtain ⟨first, rest, hc, hmark⟩ := (escapes_escaped c).ne_mark
          rw [List.flatMap_cons, hc] at h
          exact absurd (List.cons.inj h).1 hmark
      | cons d ds =>
          rw [List.flatMap_cons, List.flatMap_cons, List.append_assoc, List.append_assoc] at h
          obtain ⟨rfl, hrest⟩ := (escapes_escaped c).unique (escapes_escaped d) h
          obtain ⟨rfl, hr⟩ := ih hrest
          exact ⟨rfl, hr⟩

/-- **Names in quotation marks can be told apart.** -/
theorem quoted_injective : Function.Injective quoted := by
  intro s t h
  have hchars := (List.cons.inj (String.ofList_injective h)).2
  exact String.toList_inj.mp (eq_of_quotedChars_eq hchars).1

end Text

/-! ### Poses -/

theorem Position.text_eq (p : Position) : p.text = s!"({p.x}, {p.y})" := by
  rw [text, Text.ofInt_eq_toString, Text.ofInt_eq_toString]
  simp [toString, String.append_assoc]

namespace Pose

/-- The words for a pose are the column and the row of its square, and where it faces. -/
theorem text_eq (p : Pose) :
    p.text = s!"({p.position.x}, {p.position.y}) facing {p.heading.name}" := by
  rw [text, Position.text_eq]
  simp [toString, String.append_assoc]

theorem toList_text (p : Pose) :
    p.text.toList = '(' :: (Text.intChars p.position.x ++ ',' :: ' ' ::
      (Text.intChars p.position.y ++ ')' :: (" facing ".toList ++ p.heading.name.toList))) := by
  simp [text, Position.text, Text.ofInt]

end Pose

theorem Heading.isAlpha_of_mem_name (h : Heading) : ∀ c ∈ h.name.toList, c.isAlpha = true := by
  refine List.all_eq_true.mp ?_
  cases h <;> rfl

theorem Heading.name_injective : Function.Injective Heading.name := by
  intro h k
  cases h <;> cases k <;> decide

/-- A pose is read off whatever follows, as long as that does not begin with a letter. -/
theorem Pose.eq_of_toList_text_eq {p q : Pose} {c : Char} (hc : c.isAlpha = false)
    {r r' : List Char} (h : p.text.toList ++ c :: r = q.text.toList ++ c :: r') :
    p = q ∧ r = r' := by
  have hx : ∀ i, ',' ∉ Text.intChars i := Text.not_mem_intChars rfl (by decide)
  have hy : ∀ i, ')' ∉ Text.intChars i := Text.not_mem_intChars rfl (by decide)
  have hname : ∀ k : Heading, c ∉ k.name.toList :=
    fun k hmem => Bool.false_ne_true (hc.symm.trans (k.isAlpha_of_mem_name c hmem))
  simp only [toList_text, List.cons_append, List.append_assoc, List.cons.injEq, true_and] at h
  obtain ⟨hcolumn, h⟩ := Text.eq_of_append_cons_eq (hx _) (hx _) h
  obtain ⟨hrow, h⟩ := Text.eq_of_append_cons_eq (hy _) (hy _) (List.cons.inj h).2
  obtain ⟨hheading, hr⟩ :=
    Text.eq_of_append_cons_eq (hname _) (hname _) ((List.append_right_inj _).mp h)
  refine ⟨Pose.ext (Position.ext ?_ ?_) ?_, hr⟩
  · exact Text.intChars_injective hcolumn
  · exact Text.intChars_injective hrow
  · exact Heading.name_injective (String.toList_inj.mp hheading)

namespace CommandLine

/-! ### The lines about a pose -/

/-- The line about a pose with its number. -/
def FrameRow (k : Nat) (pose : Pose) (row : String) : Prop :=
  ∃ number, Text.OnRight 3 (toString k) number ∧
    row = s!"{number}  ({pose.position.x}, {pose.position.y}) facing {pose.heading.name}\n"

/-- The line about a pose with its number and a label. -/
def StepRow (k : Nat) (label : String) (pose : Pose) (row : String) : Prop :=
  ∃ number column, Text.OnRight 3 (toString k) number ∧ Text.OnLeft 24 label column ∧
    row = s!"{number}  {column} ({pose.position.x}, {pose.position.y}) facing {pose.heading.name}\n"

theorem frameRow_iff {k : Nat} {pose : Pose} {row : String} :
    FrameRow k pose row ↔ ∃ number, Text.OnRight 3 (toString k) number ∧
      row.toList = number.toList ++ ' ' :: ' ' :: (pose.text.toList ++ ['\n']) := by
  unfold FrameRow
  simp only [← String.toList_inj]
  simp [toString, Pose.text_eq]

theorem stepRow_iff {k : Nat} {label : String} {pose : Pose} {row : String} :
    StepRow k label pose row ↔ ∃ number column, Text.OnRight 3 (toString k) number ∧
      Text.OnLeft 24 label column ∧
      row.toList = number.toList ++ ' ' :: ' ' ::
        (column.toList ++ ' ' :: (pose.text.toList ++ ['\n'])) := by
  unfold StepRow
  simp only [← String.toList_inj]
  simp [toString, Pose.text_eq]

theorem frameRow_frameLine (k : Nat) (pose : Pose) : FrameRow k pose (frameLine k pose) :=
  frameRow_iff.mpr ⟨_, Text.onRight_padLeft 3 (toString k), by
    simp [frameLine, Text.ofNat_eq_toString]⟩

theorem stepRow_stepLine (k : Nat) (label : String) (pose : Pose) :
    StepRow k label pose (stepLine k label pose) :=
  stepRow_iff.mpr ⟨_, _, Text.onRight_padLeft 3 (toString k), Text.onLeft_padRight 24 label, by
    simp [stepLine, Text.ofNat_eq_toString]⟩

example : stepLine 3 "if-wall-ahead:left" ⟨⟨1, -1⟩, .south⟩
    = "  3  if-wall-ahead:left       (1, -1) facing south\n" := by decide

/-- A number in its column is read off whatever follows behind a blank. -/
theorem eq_of_onRight {width k k' : Nat} {number number' : String} {r r' : List Char}
    (h : Text.OnRight width (toString k) number) (h' : Text.OnRight width (toString k') number')
    (heq : number.toList ++ ' ' :: r = number'.toList ++ ' ' :: r') : k = k' ∧ r = r' := by
  obtain ⟨-, n, rfl⟩ := h
  obtain ⟨-, n', rfl⟩ := h'
  have hblank : ∀ k, ' ' ∉ Text.natChars k := Text.not_mem_natChars rfl
  -- Without the blanks in front the numeral comes first.
  have hdrop : ∀ n k r, (List.replicate n ' ' ++ (Text.natChars k ++ ' ' :: r)).dropWhile (· = ' ')
      = Text.natChars k ++ ' ' :: r := by
    intro n k r
    rw [List.dropWhile_append_of_pos (by simp)]
    cases hdigits : Text.natChars k with
    | nil => exact absurd hdigits Nat.toDigits_ne_nil
    | cons d ds =>
        have hd : d ≠ ' ' := fun h => hblank k (by rw [hdigits, h]; exact List.mem_cons_self)
        exact List.dropWhile_cons_of_neg (by simpa using hd)
  simp only [← Text.ofNat_eq_toString, Text.ofNat, String.toList_append, String.toList_ofList,
    List.append_assoc] at heq
  have hnumeral := (hdrop n k r).symm.trans ((congrArg _ heq).trans (hdrop n' k' r'))
  obtain ⟨hdigits, hr⟩ := Text.eq_of_append_cons_eq (hblank k) (hblank k') hnumeral
  exact ⟨Text.natChars_injective hdigits, hr⟩

/-- **A line about a pose names one number and one pose.** -/
theorem FrameRow.unique {k k' : Nat} {pose pose' : Pose} {row : String}
    (h : FrameRow k pose row) (h' : FrameRow k' pose' row) : k = k' ∧ pose = pose' := by
  obtain ⟨number, hnumber, hrow⟩ := frameRow_iff.mp h
  obtain ⟨number', hnumber', hrow'⟩ := frameRow_iff.mp h'
  obtain ⟨hk, hrest⟩ := eq_of_onRight hnumber hnumber' (hrow.symm.trans hrow')
  exact ⟨hk, (Pose.eq_of_toList_text_eq rfl (List.cons.inj hrest).2).1⟩

/-- A label that can be seen to end: it has no blank and no bracket. -/
def IsLabel (label : String) : Prop :=
  ' ' ∉ label.toList ∧ '(' ∉ label.toList

theorem isLabel_text (c : Command) : IsLabel c.text := by
  cases c with
  | act a => cases a <;> exact ⟨by decide, by decide⟩
  | ifWall s a => cases s <;> cases a <;> exact ⟨by decide, by decide⟩

/-- A label in its column is read off what follows behind a blank, if that begins with a
bracket. -/
theorem eq_of_onLeft {width : Nat} {label label' column column' : String} {r r' : List Char}
    (hlabel : IsLabel label) (hlabel' : IsLabel label') (h : Text.OnLeft width label column)
    (h' : Text.OnLeft width label' column')
    (heq : column.toList ++ ' ' :: '(' :: r = column'.toList ++ ' ' :: '(' :: r') :
    label = label' ∧ r = r' := by
  obtain ⟨-, n, rfl⟩ := h
  obtain ⟨-, n', rfl⟩ := h'
  have hbracket : ∀ {label : String}, IsLabel label → ∀ n,
      '(' ∉ label.toList ++ (List.replicate n ' ' ++ [' ']) := by
    intro label hlabel n
    simp [hlabel.2]
  -- The letters of the label are those that are no blanks.
  have hletters : ∀ {label : String}, IsLabel label → ∀ n,
      (label.toList ++ (List.replicate n ' ' ++ [' '])).filter (· ≠ ' ') = label.toList := by
    intro label hlabel n
    have hnone : (List.replicate n ' ' ++ [' ']).filter (· ≠ ' ') = [] := by simp
    rw [List.filter_append, hnone, List.append_nil]
    refine List.filter_eq_self.mpr fun c hc => decide_eq_true ?_
    exact fun hspace => hlabel.1 (hspace ▸ hc)
  have hshape : ∀ (label : String) n (r : List Char),
      (label ++ String.ofList (List.replicate n ' ')).toList ++ ' ' :: '(' :: r
        = (label.toList ++ (List.replicate n ' ' ++ [' '])) ++ '(' :: r := by
    intro label n r
    simp
  rw [hshape, hshape] at heq
  obtain ⟨hcolumn, hr⟩ :=
    Text.eq_of_append_cons_eq (hbracket hlabel n) (hbracket hlabel' n') heq
  have hboth := congrArg (List.filter (· ≠ ' ')) hcolumn
  rw [hletters hlabel, hletters hlabel'] at hboth
  exact ⟨String.toList_inj.mp hboth, hr⟩

/-- **A line about a pose with a label names one number, one label and one pose.** -/
theorem StepRow.unique {k k' : Nat} {label label' : String} {pose pose' : Pose} {row : String}
    (hlabel : IsLabel label) (hlabel' : IsLabel label') (h : StepRow k label pose row)
    (h' : StepRow k' label' pose' row) : k = k' ∧ label = label' ∧ pose = pose' := by
  obtain ⟨number, column, hnumber, hcolumn, hrow⟩ := stepRow_iff.mp h
  obtain ⟨number', column', hnumber', hcolumn', hrow'⟩ := stepRow_iff.mp h'
  obtain ⟨hk, hrest⟩ := eq_of_onRight hnumber hnumber' (hrow.symm.trans hrow')
  have hpoints := (List.cons.inj hrest).2
  rw [pose.toList_text, pose'.toList_text] at hpoints
  obtain ⟨hsame, htext⟩ := eq_of_onLeft hlabel hlabel' hcolumn hcolumn' hpoints
  have htold : pose.text.toList ++ ['\n'] = pose'.text.toList ++ ['\n'] := by
    rw [pose.toList_text, pose'.toList_text]
    exact congrArg _ htext
  exact ⟨hk, hsame, (Pose.eq_of_toList_text_eq rfl htold).1⟩

end CommandLine

end RobotMaze
