/-
A printed program is read as the program that was printed.

Reading cuts a text at its separators, whichever they are and however many stand
together, and reads what lies between them word by word.  What has to be known of
printing is therefore little: the word of a command holds no separator and is not empty,
so the single spaces between the words are all that is cut away (`words_text`), and each
word is read as its own command (`Command.ofText_text`).

The lemmas on `fields` do not mention programs.  The one they all rest on is
`fields_append_cons`: at a separator the fields of a text fall into those before it and
those behind it.
-/
import Mathlib.Data.List.Basic
import Mathlib.Data.List.TakeDrop
import Mathlib.Data.List.TakeWhile
import RobotMaze.Command.Text

namespace RobotMaze

namespace Text

variable {isSeparator : Char → Bool}

/-- Some characters, none of them a separator. -/
def IsWord (isSeparator : Char → Bool) (w : List Char) : Prop :=
  w ≠ [] ∧ ∀ c ∈ w, isSeparator c = false

/-! ### The fields of a text -/

theorem fields_nil : fields isSeparator [] = [] := by
  unfold fields
  rw [List.splitOnP_nil]
  rfl

/-- At a separator the fields fall into those before it and those behind it. -/
theorem fields_append_cons {c : Char} (hc : isSeparator c = true) (before behind : List Char) :
    fields isSeparator (before ++ c :: behind)
      = fields isSeparator before ++ fields isSeparator behind := by
  unfold fields
  rw [List.splitOnP_append_cons before behind hc, List.filter_append]

/-- A word is its own only field. -/
theorem fields_of_isWord {w : List Char} (hw : IsWord isSeparator w) :
    fields isSeparator w = [w] := by
  unfold fields
  rw [List.splitOnP_eq_singleton hw.2]
  cases w with
  | nil => exact absurd rfl hw.1
  | cons c cs => rfl

/-- Texts with one separator between neighbours keep their fields. -/
theorem fields_intercalate_eq_flatMap {c : Char} (hc : isSeparator c = true)
    (css : List (List Char)) :
    fields isSeparator ([c].intercalate css) = css.flatMap (fields isSeparator) := by
  induction css with
  | nil => exact fields_nil
  | cons cs css ih =>
      cases css with
      | nil => rw [List.intercalate_singleton, List.flatMap_singleton]
      | cons ds dss =>
          rw [List.intercalate_cons_cons, List.append_assoc, List.singleton_append,
            fields_append_cons hc, ih]
          exact List.flatMap_cons.symm

/-- Words with one separator between neighbours are found again. -/
theorem fields_intercalate {c : Char} (hc : isSeparator c = true) {ws : List (List Char)}
    (hws : ∀ w ∈ ws, IsWord isSeparator w) :
    fields isSeparator ([c].intercalate ws) = ws := by
  rw [fields_intercalate_eq_flatMap hc,
    List.flatMap_congr fun w hw => fields_of_isWord (hws w hw), List.flatMap_singleton']

/-! ### Blanks and openings -/

/-- There is nothing to trim where nothing is blank. -/
theorem trim_of_forall {cs : List Char} (h : ∀ c ∈ cs, isBlank c = false) : trim cs = cs := by
  have hdrop : ∀ {ds : List Char}, (∀ c ∈ ds, isBlank c = false) → ds.dropWhile isBlank = ds := by
    intro ds hds
    refine List.dropWhile_eq_self_iff.mpr fun hne => ?_
    rw [hds _ (List.getElem_mem hne)]
    exact Bool.false_ne_true
  have hreverse : ∀ c ∈ cs.reverse, isBlank c = false :=
    fun c hc => h c (List.mem_reverse.mp hc)
  unfold trim
  rw [hdrop h, hdrop hreverse, List.reverse_reverse]

theorem after?_append (opening rest : List Char) :
    after? opening (opening ++ rest) = some rest := by
  unfold after?
  rw [if_pos (List.isPrefixOf_iff_prefix.mpr (List.prefix_append opening rest)), List.drop_left]

end Text

/-! ### The word of a command -/

theorem Sense.ofText_name (s : Sense) : ofText s.name = .ok s := by
  cases s <;> rfl

theorem Sense.ne_colon_of_mem_name (s : Sense) : ∀ x ∈ s.name.toList, x ≠ ':' := by
  have hall : (s.name.toList.all fun x => decide (x ≠ ':')) = true := by
    cases s <;> rfl
  intro x hx
  exact of_decide_eq_true (List.all_eq_true.mp hall x hx)

theorem Action.ofText?_word (a : Action) : ofText? a.word = some a := by
  cases a <;> rfl

namespace Command

/-- The word of a command is in lower case and holds no separator. -/
theorem forall_mem_text (c : Command) :
    ∀ x ∈ c.text.toList, Program.isSeparator x = false ∧ x.toLower = x := by
  have hplain : ∀ {w : List Char},
      (w.all fun x => !Program.isSeparator x && x.toLower == x) = true →
        ∀ x ∈ w, Program.isSeparator x = false ∧ x.toLower = x := by
    intro w h x hx
    simpa using List.all_eq_true.mp h x hx
  have haction : ∀ a : Action, ∀ x ∈ a.word.toList,
      Program.isSeparator x = false ∧ x.toLower = x := by
    intro a
    cases a <;> exact hplain rfl
  have hsense : ∀ s : Sense, ∀ x ∈ s.name.toList,
      Program.isSeparator x = false ∧ x.toLower = x := by
    intro s
    cases s <;> exact hplain rfl
  cases c with
  | act a => exact haction a
  | ifWall s a =>
      unfold text
      simp only [String.toList_append, List.forall_mem_append]
      exact ⟨⟨⟨hplain rfl, hsense s⟩, hplain rfl⟩, haction a⟩

theorem isWord_text (c : Command) : Text.IsWord Program.isSeparator c.text.toList := by
  refine ⟨?_, fun x hx => (c.forall_mem_text x hx).1⟩
  cases c with
  | act a => cases a <;> exact List.cons_ne_nil _ _
  | ifWall s a =>
      unfold text
      simp only [String.toList_append, List.append_assoc]
      exact List.cons_ne_nil _ _

theorem trim_text (c : Command) : Text.trim c.text.toList = c.text.toList :=
  Text.trim_of_forall fun x hx => (Bool.or_eq_false_iff.mp (c.forall_mem_text x hx).1).1

theorem lower_text (c : Command) : Text.lower c.text.toList = c.text.toList :=
  (List.map_congr_left fun x hx => (c.forall_mem_text x hx).2).trans (List.map_id' _)

/-- What follows the opening of a conditional is cut at the first colon. -/
theorem conditional?_append {sense body : List Char} {s : Sense} {a : Action}
    (hcolon : ∀ x ∈ sense, x ≠ ':') (hs : Sense.ofText (String.ofList sense) = .ok s)
    (ha : Action.ofText? (String.ofList body) = some a) :
    conditional? (sense ++ ':' :: body) = some (.ifWall s a) := by
  have hbefore : ∀ x ∈ sense, decide (x ≠ ':') = true := fun x hx => decide_eq_true (hcolon x hx)
  have hspan : (sense ++ ':' :: body).span (fun x => x ≠ ':') = (sense, ':' :: body) := by
    rw [List.span_eq_takeWhile_dropWhile, List.takeWhile_append_of_pos hbefore,
      List.dropWhile_append_of_pos hbefore, List.takeWhile_cons_of_neg (by decide),
      List.dropWhile_cons_of_neg (by decide), List.append_nil]
  unfold conditional?
  simp only [hspan, hs, ha]

/-- The word of a command is read as that command. -/
theorem ofWord?_text (c : Command) : ofWord? c.text.toList = some c := by
  unfold ofWord?
  rw [lower_text]
  cases c with
  | act a =>
      have hplain : Text.after? conditionalOpening (act a).text.toList = none := by
        cases a <;> rfl
      rw [hplain, String.ofList_toList]
      show (Action.ofText? a.word).map act = some (act a)
      rw [a.ofText?_word]
      rfl
  | ifWall s a =>
      have htext : (ifWall s a).text.toList
          = conditionalOpening ++ (s.name.toList ++ ':' :: a.word.toList) := by
        unfold text conditionalOpening
        simp only [String.toList_append, List.append_assoc]
        rfl
      rw [htext, Text.after?_append]
      refine conditional?_append s.ne_colon_of_mem_name ?_ ?_
      · rw [String.ofList_toList, s.ofText_name]
      · rw [String.ofList_toList, a.ofText?_word]

theorem ofText_text (c : Command) : ofText c.text = .ok c := by
  unfold ofText
  simp only [trim_text, ofWord?_text]

end Command

/-! ### The text of a program -/

namespace Program

/-- The words of a printed program are the words of its commands. -/
theorem words_text (p : Program) : words p.text = p.map Command.text := by
  have hword : ∀ w ∈ (p.map Command.text).map String.toList, Text.IsWord isSeparator w := by
    intro w hw
    rw [List.map_map] at hw
    obtain ⟨c, -, rfl⟩ := List.mem_map.mp hw
    exact c.isWord_text
  have hspace : " ".toList = [' '] := rfl
  unfold words text Text.join
  rw [String.toList_intercalate, hspace, Text.fields_intercalate rfl hword, List.map_map,
    Function.comp_def]
  simp only [String.ofList_toList, List.map_id']

/-- A text whose words are those of commands is read as these commands. -/
theorem ofText_of_words {s : String} {p : Program} (h : words s = p.map Command.text) :
    ofText s = .ok p := by
  have hread : ∀ cs : Program, (cs.map Command.text).mapM Command.ofText = .ok cs := by
    intro cs
    induction cs with
    | nil => rfl
    | cons c cs ih =>
        rw [List.map_cons, List.mapM_cons, c.ofText_text, ih]
        rfl
  unfold ofText
  rw [h]
  exact hread p

/--
**A program is read back from its text.**  This holds of every program, the empty one
included, and of conditionals as well as plain actions.
-/
theorem text_reads_back (p : Program) : ofText p.text = .ok p :=
  ofText_of_words p.words_text

end Program

end RobotMaze
