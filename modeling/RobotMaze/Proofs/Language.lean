/-
Which texts are programs.

What a word denotes is a table of words for actions, one of words for senses, and one rule
for conditionals (`Command.Denotes`).  A word is read by several readers one inside the
other, each of which trims and lowers its part again.  None of this shows: a word holds no
blanks, and lowering twice is lowering once, so the outcome depends on the lowered word
alone (`ofWord?_eq_some_iff`).  The error shows the word as it stands in the text.

A text is a program if all of its words stand for commands, and otherwise the first that
does not is to blame.  The same holds of any list that is read item by item
(`mapM_eq_ok_iff`, `mapM_eq_error_iff`).
-/
import Mathlib.Data.List.Forall2
import RobotMaze.Proofs.Cut

namespace RobotMaze

/-! ### Reading a list item by item -/

section
variable {α β ε : Type} {f : α → Except ε β}

theorem mapM_cons_of_ok {x : α} {b : β} (hx : f x = .ok b) (xs : List α) :
    (x :: xs).mapM f = (xs.mapM f).map (b :: ·) := by
  rw [List.mapM_cons, hx]
  cases xs.mapM f <;> rfl

theorem mapM_cons_of_error {x : α} {e : ε} (hx : f x = .error e) (xs : List α) :
    (x :: xs).mapM f = .error e := by
  rw [List.mapM_cons, hx]
  rfl

/-- A list is read if every item is. -/
theorem mapM_eq_ok_iff {xs : List α} :
    ∀ {bs : List β}, xs.mapM f = .ok bs ↔ List.Forall₂ (fun x b => f x = .ok b) xs bs := by
  induction xs with
  | nil =>
      intro bs
      rw [List.forall₂_nil_left_iff]
      exact ⟨fun h => (Except.ok.inj h).symm, fun h => congrArg Except.ok h.symm⟩
  | cons x xs ih =>
      intro bs
      rw [List.forall₂_cons_left_iff]
      cases hx : f x with
      | error e =>
          rw [mapM_cons_of_error hx]
          simp
      | ok b =>
          rw [mapM_cons_of_ok hx]
          cases hxs : xs.mapM f with
          | error e => simp [← ih, hxs, Except.map]
          | ok cs =>
              simp only [← ih, hxs, Except.map, Except.ok.injEq]
              constructor
              · intro h
                exact ⟨b, cs, rfl, rfl, h.symm⟩
              · rintro ⟨b', cs', rfl, rfl, rfl⟩
                rfl

/-- Every item stands in a relation to something if the whole list does. -/
theorem exists_forall₂_iff {R : α → β → Prop} {xs : List α} :
    (∃ bs, List.Forall₂ R xs bs) ↔ ∀ x ∈ xs, ∃ b, R x b := by
  induction xs with
  | nil => simp
  | cons x xs ih =>
      rw [List.forall_mem_cons, ← ih]
      simp only [List.forall₂_cons_left_iff]
      constructor
      · rintro ⟨_, b, bs, hb, hbs, rfl⟩
        exact ⟨⟨b, hb⟩, bs, hbs⟩
      · rintro ⟨⟨b, hb⟩, bs, hbs⟩
        exact ⟨b :: bs, b, bs, hb, hbs, rfl⟩

/-- The error of a list is that of the first item that cannot be read. -/
theorem mapM_eq_error_iff {e : ε} {xs : List α} :
    xs.mapM f = .error e ↔
      ∃ before x behind, xs = before ++ x :: behind ∧ (∀ y ∈ before, ∃ b, f y = .ok b) ∧
        f x = .error e := by
  induction xs with
  | nil => simp [List.mapM_nil, pure, Except.pure]
  | cons x xs ih =>
      cases hx : f x with
      | error e' =>
          rw [mapM_cons_of_error hx, Except.error.injEq]
          constructor
          · intro h
            exact ⟨[], x, xs, rfl, by simp, by rw [hx, h]⟩
          · rintro ⟨before, y, behind, hxs, hbefore, hy⟩
            cases before with
            | nil =>
                rw [List.nil_append, List.cons.injEq] at hxs
                rw [← hxs.1, hx] at hy
                exact Except.error.inj hy
            | cons z before =>
                rw [List.cons_append, List.cons.injEq] at hxs
                obtain ⟨b, hb⟩ := hbefore z List.mem_cons_self
                rw [← hxs.1, hx] at hb
                cases hb
      | ok b =>
          have hmap : (xs.mapM f).map (b :: ·) = .error e ↔ xs.mapM f = .error e := by
            cases xs.mapM f <;> simp [Except.map]
          rw [mapM_cons_of_ok hx, hmap, ih]
          constructor
          · rintro ⟨before, y, behind, rfl, hbefore, hy⟩
            exact ⟨x :: before, y, behind, rfl,
              List.forall_mem_cons.mpr ⟨⟨b, hx⟩, hbefore⟩, hy⟩
          · rintro ⟨before, y, behind, hxs, hbefore, hy⟩
            cases before with
            | nil =>
                rw [List.nil_append, List.cons.injEq] at hxs
                rw [← hxs.1, hx] at hy
                cases hy
            | cons z before =>
                rw [List.cons_append, List.cons.injEq] at hxs
                exact ⟨before, y, behind, hxs.2, (List.forall_mem_cons.mp hbefore).2, hy⟩

/-- What is read from several lists is read from each of them, and put together. -/
theorem mapM_flatMap {γ : Type} {g : γ → List α} (zs : List γ) :
    (zs.flatMap g).mapM f = (zs.mapM fun z => (g z).mapM f).map List.flatten := by
  induction zs with
  | nil => rfl
  | cons z zs ih =>
      rw [List.flatMap_cons, List.mapM_append, ih]
      let h (z : γ) := (g z).mapM f
      cases hz : h z with
      | error e =>
          rw [mapM_cons_of_error (f := h) hz, show (g z).mapM f = .error e from hz]
          rfl
      | ok bs =>
          rw [mapM_cons_of_ok (f := h) hz, show (g z).mapM f = .ok bs from hz]
          cases zs.mapM h <;> rfl

end

/-! ### What a word denotes -/

/-- The words for actions, in lower case. -/
def actionWords : List (String × Action) :=
  [("forward", .forward), ("f", .forward), ("move", .forward), ("move_forward", .forward),
    ("left", .left), ("l", .left), ("turn_left", .left),
    ("right", .right), ("r", .right), ("turn_right", .right)]

/-- The words for senses, in lower case. -/
def senseWords : List (String × Sense) :=
  [("ahead", .ahead), ("front", .ahead), ("left", .left), ("right", .right)]

/-- The words for commands, in lower case. -/
inductive Command.Denotes : String → Command → Prop
  | act {word : String} {a : Action} (ha : (word, a) ∈ actionWords) : Denotes word (.act a)
  | ifWall {sense word : String} {s : Sense} {a : Action} (hs : (sense, s) ∈ senseWords)
      (ha : (word, a) ∈ actionWords) :
      Denotes ("if-wall-" ++ sense ++ ":" ++ word) (.ifWall s a)

theorem Action.ofText?_eq_some_iff {t : String} {a : Action} :
    ofText? t = some a ↔ (Text.nameKey t, a) ∈ actionWords := by
  unfold ofText?
  generalize Text.nameKey t = key
  constructor
  · intro h
    have hmem : key ∈ a.spellings := by simpa using List.find?_some h
    cases a <;> simpa [spellings, actionWords] using hmem
  · intro h
    simp only [actionWords, List.mem_cons, Prod.mk.injEq, List.not_mem_nil, or_false] at h
    rcases h with ⟨rfl, rfl⟩ | ⟨rfl, rfl⟩ | ⟨rfl, rfl⟩ | ⟨rfl, rfl⟩ | ⟨rfl, rfl⟩ | ⟨rfl, rfl⟩ |
      ⟨rfl, rfl⟩ | ⟨rfl, rfl⟩ | ⟨rfl, rfl⟩ | ⟨rfl, rfl⟩ <;> simp [all, spellings]

theorem Sense.ofText_eq_ok_iff {t : String} {s : Sense} :
    ofText t = .ok s ↔ (Text.nameKey t, s) ∈ senseWords := by
  unfold ofText
  generalize Text.nameKey t = key
  constructor
  · intro h
    split at h
    · rename_i d hd
      cases h
      have hmem : key ∈ s.spellings := by simpa using List.find?_some hd
      cases s <;> simpa [spellings, senseWords] using hmem
    · cases h
  · intro h
    simp only [senseWords, List.mem_cons, Prod.mk.injEq, List.not_mem_nil, or_false] at h
    rcases h with ⟨rfl, rfl⟩ | ⟨rfl, rfl⟩ | ⟨rfl, rfl⟩ | ⟨rfl, rfl⟩ <;> simp [all, spellings]

namespace Command

/-- No word for an action begins like a conditional. -/
theorem after?_of_mem_actionWords {word : String} {a : Action} (ha : (word, a) ∈ actionWords) :
    Text.after? conditionalOpening word.toList = none := by
  have hall : (actionWords.all fun p =>
      (Text.after? conditionalOpening p.1.toList).isNone) = true := rfl
  have hnone := List.all_eq_true.mp hall _ ha
  exact Option.isNone_iff_eq_none.mp hnone

theorem ne_colon_of_mem_senseWords {sense : String} {s : Sense} (hs : (sense, s) ∈ senseWords) :
    ∀ x ∈ sense.toList, x ≠ ':' := by
  have hall : (senseWords.all fun p => p.1.toList.all fun x => decide (x ≠ ':')) = true := rfl
  intro x hx
  exact of_decide_eq_true (List.all_eq_true.mp (List.all_eq_true.mp hall _ hs) x hx)

theorem toList_conditional (sense word : String) :
    ("if-wall-" ++ sense ++ ":" ++ word).toList
      = conditionalOpening ++ (sense.toList ++ ':' :: word.toList) := by
  unfold conditionalOpening
  simp only [String.toList_append, List.append_assoc]
  rfl

/-- A conditional is a sense and an action with the first colon between them. -/
theorem conditional?_eq_some_iff {cs : List Char} {c : Command} :
    conditional? cs = some c ↔
      ∃ sense body s a, cs = sense ++ ':' :: body ∧ (∀ x ∈ sense, x ≠ ':') ∧
        Sense.ofText (String.ofList sense) = .ok s ∧
          Action.ofText? (String.ofList body) = some a ∧ c = .ifWall s a := by
  constructor
  · intro h
    have hcolon : ∀ x ∈ cs.takeWhile (fun x => x ≠ ':'), x ≠ ':' := by
      intro x hx
      simpa using List.mem_takeWhile_imp hx
    have hsplit : cs.takeWhile (fun x => x ≠ ':') ++ cs.dropWhile (fun x => x ≠ ':') = cs :=
      List.takeWhile_append_dropWhile
    unfold conditional? at h
    rw [List.span_eq_takeWhile_dropWhile] at h
    split at h
    · rename_i sense d body hspan
      obtain ⟨hsense, hbody⟩ := Prod.mk.inj hspan
      have hd : d = ':' := by
        have hhead := List.head?_dropWhile_not (fun x => decide (x ≠ ':')) cs
        rw [hbody] at hhead
        simpa using hhead
      rw [hsense, hbody, hd] at hsplit
      rw [hsense] at hcolon
      split at h
      · rename_i s a hs ha
        exact ⟨sense, body, s, a, hsplit.symm, hcolon, hs, ha, (Option.some.inj h).symm⟩
      · cases h
    · cases h
  · rintro ⟨sense, body, s, a, rfl, hcolon, hs, ha, rfl⟩
    exact conditional?_append hcolon hs ha

theorem denotes_of_ofWord?_eq_some {w : List Char} (hw : ∀ x ∈ w, Text.isBlank x = false)
    {c : Command} (h : ofWord? w = some c) : Denotes (String.ofList (Text.lower w)) c := by
  unfold ofWord? at h
  split at h
  · rename_i rest hrest
    rw [Text.after?_eq_some_iff] at hrest
    obtain ⟨sense, body, s, a, hcut, -, hs, ha, rfl⟩ := conditional?_eq_some_iff.mp h
    rw [hcut] at hrest
    have hbody : Text.lower w = (conditionalOpening ++ (sense ++ [':'])) ++ (body ++ []) := by
      simp [hrest]
    rw [Sense.ofText_eq_ok_iff, Text.nameKey_of_lower_eq hw hrest] at hs
    rw [Action.ofText?_eq_some_iff, Text.nameKey_of_lower_eq hw hbody] at ha
    have hword : String.ofList (Text.lower w)
        = "if-wall-" ++ String.ofList sense ++ ":" ++ String.ofList body := by
      rw [← String.toList_inj, toList_conditional, hrest]
      simp only [String.toList_ofList]
    rw [hword]
    exact .ifWall hs ha
  · obtain ⟨a, ha, rfl⟩ := Option.map_eq_some_iff.mp h
    rw [Action.ofText?_eq_some_iff, Text.nameKey_of_forall hw] at ha
    exact .act ha

theorem ofWord?_eq_some_of_denotes {w : List Char} (hw : ∀ x ∈ w, Text.isBlank x = false)
    {c : Command} (h : Denotes (String.ofList (Text.lower w)) c) : ofWord? w = some c := by
  generalize hkey : String.ofList (Text.lower w) = key at h
  have hchars : Text.lower w = key.toList := by rw [← hkey, String.toList_ofList]
  unfold ofWord?
  cases h with
  | @act word a ha =>
      have hread : Action.ofText? (String.ofList w) = some a := by
        rw [Action.ofText?_eq_some_iff, Text.nameKey_of_forall hw, hkey]
        exact ha
      rw [hchars, after?_of_mem_actionWords ha]
      show (Action.ofText? (String.ofList w)).map act = some (act a)
      rw [hread]
      rfl
  | @ifWall sense word s a hs ha =>
      rw [toList_conditional] at hchars
      have hbody : Text.lower w
          = (conditionalOpening ++ (sense.toList ++ [':'])) ++ (word.toList ++ []) := by
        simp [hchars]
      rw [hchars, Text.after?_append]
      refine conditional?_append (ne_colon_of_mem_senseWords hs) ?_ ?_
      · rw [Sense.ofText_eq_ok_iff, Text.nameKey_of_lower_eq hw hchars, String.ofList_toList]
        exact hs
      · rw [Action.ofText?_eq_some_iff, Text.nameKey_of_lower_eq hw hbody, String.ofList_toList]
        exact ha

/-- **A word is read as what it denotes in lower case.** -/
theorem ofWord?_eq_some_iff {w : List Char} (hw : ∀ x ∈ w, Text.isBlank x = false) {c : Command} :
    ofWord? w = some c ↔ Denotes (String.ofList (Text.lower w)) c :=
  ⟨denotes_of_ofWord?_eq_some hw, ofWord?_eq_some_of_denotes hw⟩

/-- A word of a text stands for a command, in whatever case it is written. -/
def IsWordFor (w : List Char) (c : Command) : Prop :=
  Denotes (String.ofList (Text.lower w)) c

theorem ofText_eq_ok_iff {w : List Char} (hw : ∀ x ∈ w, Text.isBlank x = false) {c : Command} :
    ofText (String.ofList w) = .ok c ↔ IsWordFor w c := by
  unfold ofText IsWordFor
  rw [← ofWord?_eq_some_iff hw, String.toList_ofList, Text.trim_of_forall hw]
  cases hread : ofWord? w <;> simp [hread]

/-- The error about a word shows it as it is written. -/
theorem ofText_eq_error_iff {w : List Char} (hw : ∀ x ∈ w, Text.isBlank x = false)
    {e : ProgramError} :
    ofText (String.ofList w) = .error e ↔
      (∀ c, ¬IsWordFor w c) ∧ e = .unknownInstruction (String.ofList w) := by
  unfold ofText IsWordFor
  simp only [← ofWord?_eq_some_iff hw, String.toList_ofList, Text.trim_of_forall hw]
  cases hread : ofWord? w with
  | none => simp [eq_comm]
  | some c => simp

end Command

/-! ### The language of programs -/

namespace Program

variable {s : String} {ws : List (List Char)}

theorem isSeparator_toLower (c : Char) : isSeparator c.toLower = isSeparator c := by
  have hcomma : (c.toLower == ',') = (c == ',') := by
    rcases Text.toLower_eq_or c with h | ⟨hA, hZ, hnat⟩
    · rw [h]
    · have hne : ∀ d : Char, 65 ≤ d.toNat → (d == ',') = false := by
        intro d hd
        refine beq_eq_false_iff_ne.mpr fun h => ?_
        rw [h] at hd
        revert hd
        decide
      rw [hne c hA, hne c.toLower (by omega)]
  unfold isSeparator
  rw [Text.isBlank_toLower, hcomma]

theorem not_isBlank_of_mem (h : Text.Cut isSeparator s.toList ws) {w : List Char} (hw : w ∈ ws) :
    ∀ x ∈ w, Text.isBlank x = false := by
  intro x hx
  exact (Bool.or_eq_false_iff.mp ((h.forall_isWord w hw).2 x hx)).1

theorem ofText_eq_mapM (h : Text.Cut isSeparator s.toList ws) :
    ofText s = ws.mapM fun w => Command.ofText (String.ofList w) := by
  unfold ofText words
  rw [List.mapM_map, ← Text.cut_iff.mp h]
  rfl

/-- **A text is a program if each of its words stands for a command,** and then it is the
program of these commands. -/
theorem ofText_eq_ok_iff (h : Text.Cut isSeparator s.toList ws) {p : Program} :
    ofText s = .ok p ↔ List.Forall₂ Command.IsWordFor ws p := by
  rw [ofText_eq_mapM h, mapM_eq_ok_iff]
  have hword : ∀ w ∈ ws, ∀ c, Command.ofText (String.ofList w) = .ok c ↔ Command.IsWordFor w c :=
    fun w hw c => Command.ofText_eq_ok_iff (not_isBlank_of_mem h hw)
  clear h
  induction ws generalizing p with
  | nil => simp
  | cons w ws ih =>
      obtain ⟨hw, hrest⟩ := List.forall_mem_cons.mp hword
      rw [List.forall₂_cons_left_iff, List.forall₂_cons_left_iff]
      simp only [hw, ih hrest]

/-- **The error is about the first word that stands for no command.** -/
theorem ofText_eq_error_iff (h : Text.Cut isSeparator s.toList ws) {e : ProgramError} :
    ofText s = .error e ↔
      ∃ before w behind, ws = before ++ w :: behind ∧
        (∀ v ∈ before, ∃ c, Command.IsWordFor v c) ∧ (∀ c, ¬Command.IsWordFor w c) ∧
          e = .unknownInstruction (String.ofList w) := by
  have hok : ∀ w ∈ ws, ∀ c, Command.ofText (String.ofList w) = .ok c ↔ Command.IsWordFor w c :=
    fun w hw c => Command.ofText_eq_ok_iff (not_isBlank_of_mem h hw)
  have herror : ∀ w ∈ ws, Command.ofText (String.ofList w) = .error e ↔
      (∀ c, ¬Command.IsWordFor w c) ∧ e = .unknownInstruction (String.ofList w) :=
    fun w hw => Command.ofText_eq_error_iff (not_isBlank_of_mem h hw)
  rw [ofText_eq_mapM h, mapM_eq_error_iff]
  refine exists_congr fun before => exists_congr fun w => exists_congr fun behind => ?_
  refine and_congr_right fun hws => ?_
  rw [herror w (by simp [hws])]
  refine and_congr_left fun _ => forall₂_congr fun v hv => exists_congr fun c => ?_
  exact hok v (by simp [hws, hv]) c

/-- Commas and white space stand between words, and nothing else does. -/
theorem isSeparator_iff (c : Char) :
    isSeparator c = true ↔ c = ',' ∨ c.toNat ∈ Text.whiteSpace := by
  rw [isSeparator, Bool.or_eq_true, Text.isBlank_iff, beq_iff_eq, or_comm]

/-- One gap is replaced by another, or the text is put between gaps. -/
inductive Respaced : List Char → List Char → Prop
  | gap (before behind : List Char) {gap gap' : List Char} (hne : gap ≠ [])
      (hgap : ∀ c ∈ gap, isSeparator c = true) (hne' : gap' ≠ [])
      (hgap' : ∀ c ∈ gap', isSeparator c = true) :
      Respaced (before ++ (gap ++ behind)) (before ++ (gap' ++ behind))
  | ends (cs : List Char) {front back : List Char}
      (hfront : ∀ c ∈ front, isSeparator c = true) (hback : ∀ c ∈ back, isSeparator c = true) :
      Respaced cs (front ++ (cs ++ back))

theorem Respaced.fields_eq {cs cs' : List Char} (h : Respaced cs cs') :
    Text.fields isSeparator cs' = Text.fields isSeparator cs := by
  cases h with
  | gap before behind hne hgap hne' hgap' =>
      rw [Text.fields_append_gap_append hne hgap, Text.fields_append_gap_append hne' hgap']
  | @ends _ front back hfront hback =>
      rw [Text.fields_gap_append hfront]
      by_cases hempty : back = []
      · rw [hempty, List.append_nil]
      · have hcut := Text.fields_append_gap_append hempty hback cs []
        rwa [List.append_nil, Text.fields_nil, List.append_nil] at hcut

/-- The case of letters does not change what words stand for. -/
theorem ofText_of_lower_eq {s' : String} {p : Program}
    (hcase : Text.lower s'.toList = Text.lower s.toList) (h : ofText s = .ok p) :
    ofText s' = .ok p := by
  have hcut : Text.Cut isSeparator s.toList (Text.fields isSeparator s.toList) :=
    Text.cut_iff.mpr rfl
  have hcut' : Text.Cut isSeparator s'.toList (Text.fields isSeparator s'.toList) :=
    Text.cut_iff.mpr rfl
  have hlower := Text.cut_iff.mp (hcut.map isSeparator_toLower)
  have hlower' := Text.cut_iff.mp (hcut'.map isSeparator_toLower)
  have hwords : (Text.fields isSeparator s'.toList).map Text.lower
      = (Text.fields isSeparator s.toList).map Text.lower := by
    refine hlower'.trans (Eq.trans ?_ hlower.symm)
    exact congrArg _ hcase
  have hmap : ∀ ws : List (List Char), List.Forall₂ Command.IsWordFor ws p ↔
      List.Forall₂ (fun v c => Command.Denotes (String.ofList v) c) (ws.map Text.lower) p := by
    intro ws
    rw [List.forall₂_map_left_iff]
    rfl
  rw [ofText_eq_ok_iff hcut, hmap] at h
  rw [ofText_eq_ok_iff hcut', hmap, hwords]
  exact h

/--
**Exactly the texts whose words are in the language are programs.**  A text has words in one
way only; it is read if each of them stands for a command, and otherwise the first that
does not is reported as it is written.  Neither the case of letters nor the number and kind
of separators makes another program of it; these are commas and white space.
-/
theorem ofText_accepts_language (s : String) :
    (∃ ws, (∀ vs, Text.Cut isSeparator s.toList vs ↔ vs = ws) ∧
      ((∃ p, ofText s = .ok p) ↔ ∀ w ∈ ws, ∃ c, Command.IsWordFor w c) ∧
      (∀ p, ofText s = .ok p ↔ List.Forall₂ Command.IsWordFor ws p) ∧
      (∀ e, ofText s = .error e ↔
        ∃ before w behind, ws = before ++ w :: behind ∧
          (∀ v ∈ before, ∃ c, Command.IsWordFor v c) ∧ (∀ c, ¬Command.IsWordFor w c) ∧
            e = .unknownInstruction (String.ofList w))) ∧
    (∀ s' p, Text.lower s'.toList = Text.lower s.toList → ofText s = .ok p → ofText s' = .ok p) ∧
    (∀ s', Respaced s.toList s'.toList → ofText s' = ofText s) ∧
    (∀ c, isSeparator c = true ↔ c = ',' ∨ c.toNat ∈ Text.whiteSpace) := by
  have hcut : Text.Cut isSeparator s.toList (Text.fields isSeparator s.toList) :=
    Text.cut_iff.mpr rfl
  refine ⟨⟨Text.fields isSeparator s.toList, fun vs => Text.cut_iff, ?_,
    fun p => ofText_eq_ok_iff hcut, fun e => ofText_eq_error_iff hcut⟩, ?_, ?_, isSeparator_iff⟩
  · simp only [ofText_eq_ok_iff hcut]
    exact exists_forall₂_iff
  · intro s' p hcase h
    exact ofText_of_lower_eq hcase h
  · intro s' h
    unfold ofText words
    rw [h.fields_eq]

/-- A conditional in mixed case, with its gap filled differently and its letters changed. -/
theorem ofText_accepts_language_words :
    ofText "F, If-Wall-Front:L" = .ok [.act .forward, .ifWall .ahead .left] ∧
      Text.lower "f, if-WALL-front:l".toList = Text.lower "F, If-Wall-Front:L".toList ∧
      ofText "f, if-WALL-front:l" = .ok [.act .forward, .ifWall .ahead .left] ∧
      Respaced "F, If-Wall-Front:L".toList "F\t,,If-Wall-Front:L".toList ∧
      ofText "F\t,,If-Wall-Front:L" = ofText "F, If-Wall-Front:L" := by
  have hread : ofText "F, If-Wall-Front:L" = .ok [.act .forward, .ifWall .ahead .left] := rfl
  have hcase : Text.lower "f, if-WALL-front:l".toList = Text.lower "F, If-Wall-Front:L".toList := by
    decide +kernel
  have hspace : Respaced "F, If-Wall-Front:L".toList "F\t,,If-Wall-Front:L".toList := by
    have hold : "F, If-Wall-Front:L".toList = ['F'] ++ ([',', ' '] ++ "If-Wall-Front:L".toList) :=
      by decide
    have hnew : "F\t,,If-Wall-Front:L".toList
        = ['F'] ++ (['\t', ',', ','] ++ "If-Wall-Front:L".toList) := by decide
    rw [hold, hnew]
    exact .gap _ _ (by simp) (List.all_eq_true.mp rfl) (by simp) (List.all_eq_true.mp rfl)
  obtain ⟨-, hletters, hgaps, -⟩ := ofText_accepts_language "F, If-Wall-Front:L"
  exact ⟨hread, hcase, hletters _ _ hcase hread, hspace, hgaps _ hspace⟩

end Program

end RobotMaze
