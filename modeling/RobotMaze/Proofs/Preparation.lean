/-
The program that is prepared for a run.

A program to run is the one that its level recommends, or the words that were given for it,
piece by piece.  It is held against the rules of the level unless that is waived
(`prepare_eq_ok_iff`, `prepare_eq_error_iff`); nothing changes it on the way.

A level is built with its recommendation examined, however it comes about, and a catalog
holds such levels only.  So a recommended program passes once more when it is prepared.

The pieces are put together with a space between neighbours and cut again at all separators.
A space ends a word, so no word of one piece grows into the next one; and it adds none.  The
words of the whole are those of the pieces in order (`Program.words_join`), and reading is
done word by word.  So pieces may as well be read one at a time (`Program.ofText_join`), and
where one ends and the next begins does not show.
-/
import RobotMaze.CommandLine
import RobotMaze.Proofs.Catalog
import RobotMaze.Proofs.Creation
import RobotMaze.Proofs.Language
import RobotMaze.Proofs.Selection

namespace RobotMaze

namespace Level

variable {l : Level} {source : ProgramSource} {checked : Bool}

theorem prepare_eq_ok_iff {p : Program} :
    l.prepare source checked = .ok p ↔
      l.programOf source = .ok p ∧ (checked = true → l.check p = .ok ()) := by
  unfold prepare
  cases hp : l.programOf source with
  | error e => simp
  | ok q =>
      cases checked with
      | false => simp
      | true =>
          simp only [if_true, Except.ok.injEq, forall_const]
          cases hcheck : l.check q with
          | error cause =>
              constructor
              · intro h
                cases h
              · rintro ⟨rfl, h⟩
                cases hcheck.symm.trans h
          | ok u =>
              constructor
              · intro h
                cases h
                exact ⟨rfl, hcheck⟩
              · rintro ⟨rfl, -⟩
                rfl

theorem prepare_eq_error_iff {e : SelectionError} :
    l.prepare source checked = .error e ↔
      l.programOf source = .error e ∨
        ∃ p cause, l.programOf source = .ok p ∧ checked = true ∧ l.check p = .error cause ∧
          e = .rejected l.name cause := by
  unfold prepare
  cases hp : l.programOf source with
  | error e' => simp
  | ok q =>
      cases checked with
      | false => simp
      | true =>
          simp only [if_true]
          cases hcheck : l.check q with
          | error cause => simp [hcheck, eq_comm]
          | ok u => simp [hcheck]

end Level

/-! ### The recommended program -/

namespace Board

variable {b : Board} {q : Position}

theorem contains_start : b.contains b.start = true :=
  Terrain.contains_of_isWall_eq_false b.start_free

theorem contains_goal : b.contains b.goal = true :=
  Terrain.contains_of_isWall_eq_false b.goal_free

/-- Exactly one square is marked as the start. -/
theorem exists_isStart_iff :
    (∃ cell, b.cell? q = some cell ∧ cell.isStart = true) ↔ q = b.start := by
  simp only [cell?_eq_some_iff]
  constructor
  · rintro ⟨cell, ⟨-, rfl⟩, hstart⟩
    exact beq_iff_eq.mp hstart
  · rintro rfl
    exact ⟨_, ⟨contains_start, rfl⟩, beq_self_eq_true _⟩

/-- Exactly one square is marked as the goal. -/
theorem exists_isGoal_iff :
    (∃ cell, b.cell? q = some cell ∧ cell.isGoal = true) ↔ q = b.goal := by
  simp only [cell?_eq_some_iff]
  constructor
  · rintro ⟨cell, ⟨-, rfl⟩, hgoal⟩
    exact beq_iff_eq.mp hgoal
  · rintro rfl
    exact ⟨_, ⟨contains_goal, rfl⟩, beq_self_eq_true _⟩

end Board

/-- The error about a selector is not about a program. -/
theorem Catalog.programError?_of_select {c : Catalog} {selector : String} {e : SelectionError}
    (h : c.select selector = .error e) : e.programError? = none := by
  rcases c.select_cases selector with ⟨l, -, heq⟩ | ⟨v, heq⟩ | heq
  · cases heq.symm.trans h
  · cases heq.symm.trans h
    rfl
  · cases heq.symm.trans h
    rfl

theorem Catalog.mem_of_select {c : Catalog} {selector : String} {l : Level}
    (h : c.select selector = .ok l) : l ∈ c.levels := by
  rcases c.select_cases selector with ⟨l', hmem, heq⟩ | ⟨v, heq⟩ | heq
  · cases heq.symm.trans h
    exact hmem
  · cases heq.symm.trans h
  · cases heq.symm.trans h

namespace Level

variable {l : Level} {checked : Bool}

theorem programOf_solution_eq_ok_iff {p : Program} :
    l.programOf .solution = .ok p ↔ l.solution = some p := by
  unfold programOf
  cases l.solution <;> simp

theorem programOf_solution_eq_error_iff {e : SelectionError} :
    l.programOf .solution = .error e ↔ l.solution = none ∧ e = .noSolution l.name := by
  unfold programOf
  cases l.solution <;> simp [eq_comm]

namespace Sound

/-- What is recommended is prepared, whether it is held against the rules or not. -/
theorem prepare_solution_eq_ok_iff (h : l.Sound) {p : Program} :
    l.prepare .solution checked = .ok p ↔ l.solution = some p := by
  rw [prepare_eq_ok_iff, programOf_solution_eq_ok_iff]
  exact ⟨And.left, fun hp => ⟨hp, fun _ => h.solution p hp⟩⟩

theorem prepare_solution_eq_error_iff (h : l.Sound) {e : SelectionError} :
    l.prepare .solution checked = .error e ↔ l.solution = none ∧ e = .noSolution l.name := by
  rw [prepare_eq_error_iff, programOf_solution_eq_error_iff]
  refine ⟨fun he => he.resolve_right ?_, Or.inl⟩
  rintro ⟨p, cause, hp, -, hcheck, -⟩
  rw [h.solution p (programOf_solution_eq_ok_iff.mp hp)] at hcheck
  cases hcheck

end Sound

end Level

/-- Who asks for the recommended program is told of no fault of a program. -/
theorem CommandLine.programError?_of_play {a : Arguments} {settings : Settings} {c : Catalog}
    (hc : c.Built) (ha : a.solution = true) {e : SelectionError}
    (h : play a settings c = .error e) : e.programError? = none := by
  have hsource : a.source = .solution := if_pos ha
  unfold play at h
  split at h
  · cases h
  · rw [hsource] at h
    cases hselect : c.select a.selector with
    | error e' =>
        simp only [hselect, bind, Except.bind, Except.error.injEq] at h
        rw [← h]
        exact Catalog.programError?_of_select hselect
    | ok l =>
        have hsound := hc.sound.2 l (Catalog.mem_of_select hselect)
        cases hprepare : l.prepare .solution (!a.noCheck) with
        | error e' =>
            simp only [hselect, hprepare, bind, Except.bind, Except.error.injEq] at h
            rw [← h, (hsound.prepare_solution_eq_error_iff.mp hprepare).2]
            rfl
        | ok p =>
            simp only [hselect, hprepare, bind, Except.bind] at h
            cases h

theorem Palette.exists_allows_iff {palette : Palette} :
    (∃ k, palette.allows k = true) ↔ palette.isEmpty = false := by
  simp only [← Palette.mem_kinds, Palette.isEmpty, List.isEmpty_eq_false_iff_exists_mem]

namespace Level

/--
**A recommended program is always accepted.**  However a level is built, also as one of a
catalog, it offers some kind of command, its start and its goal are the squares that its board
marks as such, and it accepts the program that it recommends.  So preparing that program
succeeds, whether it is held against the rules or not, and fails only if none is recommended.
Who asks for it is never told that a program breaks the rules.
-/
theorem recommended_program_is_accepted :
    (∀ c : Catalog, c.Built → ∀ l ∈ c.levels, l.Built) ∧
    (∀ l : Level, l.Built →
      ((∃ k, l.palette.allows k = true) ∧
        (∀ q, (∃ cell, l.board.cell? q = some cell ∧ cell.isStart = true) ↔
          q = l.start.position) ∧
        (∀ q, (∃ cell, l.board.cell? q = some cell ∧ cell.isGoal = true) ↔ q = l.goal)) ∧
      (∀ p, l.solution = some p → l.check p = .ok ()) ∧
      (∀ checked p, l.prepare .solution checked = .ok p ↔ l.solution = some p) ∧
      (∀ checked e, l.prepare .solution checked = .error e ↔
        l.solution = none ∧ e = .noSolution l.name)) ∧
    (∀ (a : CommandLine.Arguments) settings (c : Catalog) e, c.Built → a.solution = true →
      CommandLine.play a settings c = .error e → e.programError? = none) := by
  refine ⟨fun c hc => hc.forall_built.2, ?_, ?_⟩
  · intro l hl
    have hsound := hl.sound
    exact ⟨⟨Palette.exists_allows_iff.mpr hsound.palette, fun q => Board.exists_isStart_iff,
        fun q => Board.exists_isGoal_iff⟩, hsound.solution,
      fun checked p => hsound.prepare_solution_eq_ok_iff,
      fun checked e => hsound.prepare_solution_eq_error_iff⟩
  · intro a settings c e hc ha h
    exact CommandLine.programError?_of_play hc ha h

/-- The nook with a way through it, in a catalog of its own. -/
theorem recommended_program_is_accepted_nook :
    let l := { nook with solution := some Program.throughNook }
    let c : Catalog := { levels := [l] }
    let a : CommandLine.Arguments := { level := some "1", solution := true }
    (c.Built ∧ l.Built) ∧
      (l.check Program.throughNook = .ok () ∧
        l.prepare .solution true = .ok Program.throughNook ∧
        l.prepare .solution false = .ok Program.throughNook) ∧
      CommandLine.play a {} c = .error (.noSuchIndex 1 1) ∧
        (SelectionError.noSuchIndex 1 1).programError? = none := by
  intro l c a
  have hread : ofDefinition .ofNook = .ok l := rfl
  have hcatalog : c.Built := @Catalog.Built.ofDefinitions [.ofNook] c rfl
  obtain ⟨hlevels, hlevel, hplay⟩ := recommended_program_is_accepted
  have hbuilt : l.Built := hlevels c hcatalog l List.mem_cons_self
  obtain ⟨-, hcheck, hok, -⟩ := hlevel l hbuilt
  have hmissing : CommandLine.play a {} c = .error (.noSuchIndex 1 1) := by decide +kernel
  exact ⟨⟨hcatalog, hbuilt⟩, ⟨hcheck _ rfl, (hok true _).mpr rfl, (hok false _).mpr rfl⟩,
    hmissing, hplay a {} c _ hcatalog rfl hmissing⟩

end Level

/-! ### A program in pieces -/

namespace Program

variable {pieces : List String} {ws : List (List Char)}

/-- The words of some pieces of text, those of one piece before those of the next. -/
inductive CutAll : List String → List (List Char) → Prop
  | nil : CutAll [] []
  | cons {piece : String} {pieces : List String} {ws vs : List (List Char)}
      (h : Text.Cut isSeparator piece.toList ws) (hrest : CutAll pieces vs) :
      CutAll (piece :: pieces) (ws ++ vs)

theorem cutAll_iff :
    CutAll pieces ws ↔ ws = pieces.flatMap fun piece => Text.fields isSeparator piece.toList := by
  constructor
  · intro h
    induction h with
    | nil => rfl
    | cons h hrest ih => rw [List.flatMap_cons, ← ih, ← Text.cut_iff.mp h]
  · rintro rfl
    induction pieces with
    | nil => exact .nil
    | cons piece pieces ih => exact .cons (Text.cut_iff.mpr rfl) ih

/-- **The words of the whole are those of its pieces:** none is cut and no two are joined. -/
theorem cut_join_iff :
    Text.Cut isSeparator (Text.join " " pieces).toList ws ↔ CutAll pieces ws := by
  have hspace : " ".toList = [' '] := rfl
  rw [Text.cut_iff, cutAll_iff, Text.join, String.toList_intercalate, hspace,
    Text.fields_intercalate_eq_flatMap rfl, List.flatMap_map]

/-- **Pieces may be read one at a time.** -/
theorem ofText_join (pieces : List String) :
    ofText (Text.join " " pieces) = (pieces.mapM ofText).map List.flatten := by
  have hpiece : ∀ piece, ofText piece = (Text.fields isSeparator piece.toList).mapM
      fun w => Command.ofText (String.ofList w) :=
    fun piece => ofText_eq_mapM (Text.cut_iff.mpr rfl)
  rw [ofText_eq_mapM (cut_join_iff.mpr (cutAll_iff.mpr rfl)), mapM_flatMap, funext hpiece]

end Program

namespace Level

variable {l : Level} {pieces : List String}

theorem programOf_tokens_eq_ok_iff {p : Program} :
    l.programOf (.tokens pieces) = .ok p ↔
      ∃ ps, List.Forall₂ (fun piece q => Program.ofText piece = .ok q) pieces ps ∧
        p = ps.flatten := by
  unfold programOf
  simp only [Program.ofText_join, ← mapM_eq_ok_iff]
  cases pieces.mapM Program.ofText <;> simp [Except.map, eq_comm]

theorem programOf_tokens_eq_error_iff {e : SelectionError} :
    l.programOf (.tokens pieces) = .error e ↔
      ∃ cause, (∃ before piece behind, pieces = before ++ piece :: behind ∧
        (∀ t ∈ before, ∃ q, Program.ofText t = .ok q) ∧ Program.ofText piece = .error cause) ∧
          e = .unreadable cause := by
  unfold programOf
  simp only [Program.ofText_join, ← mapM_eq_error_iff]
  cases pieces.mapM Program.ofText <;> simp [Except.map, eq_comm]

/-- The words of the pieces are all that counts. -/
theorem programOf_tokens_congr {others : List String} {ws : List (List Char)}
    (h : Program.CutAll pieces ws) (hothers : Program.CutAll others ws) :
    l.programOf (.tokens others) = l.programOf (.tokens pieces) := by
  unfold programOf
  simp only [Program.ofText_eq_mapM (Program.cut_join_iff.mpr h),
    Program.ofText_eq_mapM (Program.cut_join_iff.mpr hothers)]

/--
**How a program is divided into pieces does not matter.**  Without a check the program is that
of the first piece, then that of the second and so on, if each of them can be read, and
otherwise the error is that of the first piece that cannot.  Pieces with the same words in the
same order give the same.  The check lets the program pass as it is, or else what is reported
is what the level says against it and nothing more.
-/
theorem pieces_make_one_program (l : Level) (pieces : List String) :
    (∀ p, l.prepare (.tokens pieces) false = .ok p ↔
      ∃ ps, List.Forall₂ (fun piece q => Program.ofText piece = .ok q) pieces ps ∧
        p = ps.flatten) ∧
    (∀ e, l.prepare (.tokens pieces) false = .error e ↔
      ∃ cause, (∃ before piece behind, pieces = before ++ piece :: behind ∧
        (∀ t ∈ before, ∃ q, Program.ofText t = .ok q) ∧ Program.ofText piece = .error cause) ∧
          e = .unreadable cause) ∧
    (∀ others ws, Program.CutAll pieces ws → Program.CutAll others ws →
      ∀ checked, l.prepare (.tokens others) checked = l.prepare (.tokens pieces) checked) ∧
    (∀ e, l.prepare (.tokens pieces) false = .error e →
      l.prepare (.tokens pieces) true = .error e) ∧
    (∀ p, l.prepare (.tokens pieces) true = .ok p ↔
      l.prepare (.tokens pieces) false = .ok p ∧ l.check p = .ok ()) ∧
    (∀ p cause, l.prepare (.tokens pieces) false = .ok p → l.check p = .error cause →
      ∃ e, l.prepare (.tokens pieces) true = .error e ∧ e.programError? = some cause ∧
        e.chain = ["program rejected by level " ++ Text.quoted l.name, cause.message]) := by
  have hunchecked : ∀ p, l.prepare (.tokens pieces) false = .ok p ↔
      l.programOf (.tokens pieces) = .ok p := fun p => by simp [prepare_eq_ok_iff]
  have hunreadable : ∀ e, l.prepare (.tokens pieces) false = .error e ↔
      l.programOf (.tokens pieces) = .error e := fun e => by simp [prepare_eq_error_iff]
  refine ⟨?_, ?_, ?_, ?_, ?_, ?_⟩
  · intro p
    rw [hunchecked, programOf_tokens_eq_ok_iff]
  · intro e
    rw [hunreadable, programOf_tokens_eq_error_iff]
  · intro others ws h hothers checked
    unfold prepare
    rw [programOf_tokens_congr h hothers]
  · intro e he
    exact prepare_eq_error_iff.mpr (Or.inl ((hunreadable e).mp he))
  · intro p
    rw [hunchecked, prepare_eq_ok_iff]
    simp
  · intro p cause hp hcheck
    refine ⟨.rejected l.name cause, ?_, rfl, rfl⟩
    exact prepare_eq_error_iff.mpr (Or.inr ⟨p, cause, (hunchecked p).mp hp, rfl, hcheck, rfl⟩)

/-- One program in two divisions, the first with an empty piece, on a level for which it is too
long; and pieces of which the second is no command. -/
theorem pieces_make_one_program_nook :
    let l := { nook with cap := 2 }
    let pieces := ["F, if-wall-front:r", "", "\tmove,"]
    let others := ["F", "if-wall-front:r move"]
    let p : Program := [.act .forward, .ifWall .ahead .right, .act .forward]
    (l.prepare (.tokens pieces) false = .ok p ∧ l.prepare (.tokens others) false = .ok p) ∧
      (l.check p = .error (.tooLong 3 2) ∧
        ∃ e, l.prepare (.tokens pieces) true = .error e ∧
          e.programError? = some (.tooLong 3 2) ∧
          e.chain = ["program rejected by level \"nook\"",
            "program has 3 instructions, level allows 2"]) ∧
      (l.prepare (.tokens ["f", "jump", "up"]) false
          = .error (.unreadable (.unknownInstruction "jump")) ∧
        l.prepare (.tokens ["f", "jump", "up"]) true
          = .error (.unreadable (.unknownInstruction "jump"))) := by
  intro l pieces others p
  have hread : l.prepare (.tokens pieces) false = .ok p := by decide +kernel
  have hcheck : l.check p = .error (.tooLong 3 2) := rfl
  have hjump : l.prepare (.tokens ["f", "jump", "up"]) false
      = .error (.unreadable (.unknownInstruction "jump")) := by decide +kernel
  have hwords : Program.CutAll others (pieces.flatMap fun piece =>
      Text.fields Program.isSeparator piece.toList) :=
    Program.cutAll_iff.mpr (by decide +kernel)
  obtain ⟨-, -, hdivision, -, -, hrejected⟩ := pieces_make_one_program l pieces
  obtain ⟨-, -, -, hunreadable, -, -⟩ := pieces_make_one_program l ["f", "jump", "up"]
  have hothers := hdivision others _ (Program.cutAll_iff.mpr rfl) hwords false
  obtain ⟨e, he, hcause, hchain⟩ := hrejected p _ hread hcheck
  have hmessage : "program rejected by level " ++ Text.quoted l.name
      = "program rejected by level \"nook\"" := by decide +kernel
  have hlength : (ProgramError.tooLong 3 2).message
      = "program has 3 instructions, level allows 2" := by decide +kernel
  rw [hmessage, hlength] at hchain
  exact ⟨⟨hread, hothers.trans hread⟩, ⟨hcheck, e, he, hcause, hchain⟩, hjump,
    hunreadable _ hjump⟩

end Level

end RobotMaze
