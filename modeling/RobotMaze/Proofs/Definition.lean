/-
A level survives being written down.

Not every value of the type `Level` comes from a definition: its palette may be empty,
or its recommended program may break its own rules.  `Sound` says that neither is so, and
every level that can be built is sound, whichever way it was built (`Built.sound`).

What a definition means is said once and without the order of the examinations:
`Describes` compares it with a level part by part, and `ofDefinition_eq_ok_iff` says that
reading a definition finds the level it describes, if there is one.  A sound level is
described by its own definition because each part of it is read back from what is
written: the map, the palette and the program.
-/
import RobotMaze.Level
import RobotMaze.Proofs.Spacing
import RobotMaze.Proofs.Words

namespace RobotMaze

namespace Palette

theorem ext_allows {p q : Palette} (h : ∀ k, p.allows k = q.allows k) : p = q :=
  Palette.ext (h .moveForward) (h .turnLeft) (h .turnRight) (h .conditionalWall)

/-- A palette offers the kinds on its own list and no others. -/
theorem ofKinds_kinds (p : Palette) : ofKinds p.kinds = p := by
  refine ext_allows ?_
  intro k
  rw [allows_ofKinds, Bool.eq_iff_iff, List.contains_iff_mem, mem_kinds]

theorem kinds_ofKinds (ks : List Kind) : (ofKinds ks).kinds = Kind.all.filter ks.contains :=
  List.filter_congr fun k _ => allows_ofKinds ks k

end Palette

namespace Level

/-- The level offers some kind of command, and the recommended program keeps to its rules. -/
structure Sound (l : Level) : Prop where
  palette : l.palette.isEmpty = false
  solution : ∀ p, l.solution = some p → l.check p = .ok ()

/-! ### When there is a level -/

theorem create_eq_ok_iff {name : String} {board : Board} {facing : Heading} {kinds : List Kind}
    {cap : Nat} {l : Level} :
    create name board facing kinds cap = .ok l ↔
      (Palette.ofKinds kinds).isEmpty = false ∧
        l = { name, board, facing, palette := Palette.ofKinds kinds, cap, solution := none } := by
  unfold create
  by_cases he : (Palette.ofKinds kinds).isEmpty = true
  · simp [he]
  · rw [if_neg he, Except.ok.injEq]
    exact ⟨fun h => ⟨Bool.eq_false_iff.mpr he, h.symm⟩, fun h => h.2.symm⟩

theorem withSolution_eq_ok_iff {l l' : Level} {p : Program} :
    l.withSolution p = .ok l' ↔ l.check p = .ok () ∧ l' = { l with solution := some p } := by
  unfold withSolution
  cases hc : l.check p with
  | error e => simp
  | ok u =>
      show Except.ok _ = Except.ok l' ↔ _
      rw [Except.ok.injEq]
      exact ⟨fun h => ⟨rfl, h.symm⟩, fun h => h.2.symm⟩

/-- The level has the parts that the definition writes down. -/
structure Definition.Describes (d : Definition) (l : Level) : Prop where
  name : l.name = d.name
  board : Board.ofRows d.map = .ok l.board
  facing : l.facing = d.facing
  palette : l.palette = Palette.ofKinds d.instructions
  cap : l.cap = d.maxInstructions
  solution : Option.Rel (fun text p => Program.ofText text = .ok p) d.solution l.solution
  sound : l.Sound

/-- A created level, with a recommended program that keeps to its rules or without one, is
described by what it was created from. -/
theorem describes_of_create {d : Definition} {board : Board} {bare : Level}
    {solution : Option Program} (hboard : Board.ofRows d.map = .ok board)
    (hcreate : create d.name board d.facing d.instructions d.maxInstructions = .ok bare)
    (hread : Option.Rel (fun text p => Program.ofText text = .ok p) d.solution solution)
    (hcheck : ∀ p, solution = some p → bare.check p = .ok ()) :
    d.Describes { bare with solution } := by
  obtain ⟨hpalette, rfl⟩ := create_eq_ok_iff.mp hcreate
  exact ⟨rfl, hboard, rfl, rfl, rfl, hread, hpalette, hcheck⟩

theorem describes_of_ofDefinition {d : Definition} {l : Level} (h : ofDefinition d = .ok l) :
    d.Describes l := by
  unfold ofDefinition at h
  split at h
  · cases h
  · rename_i board hboard
    split at h
    · cases h
    · rename_i bare hcreate
      split at h
      · rename_i hnone
        cases h
        obtain ⟨-, rfl⟩ := create_eq_ok_iff.mp hcreate
        exact describes_of_create hboard hcreate (hnone ▸ Option.Rel.none) (by simp)
      · rename_i text hsome
        split at h
        · cases h
        · rename_i p hread
          obtain ⟨hcheck, rfl⟩ := withSolution_eq_ok_iff.mp h
          refine describes_of_create hboard hcreate (hsome ▸ Option.Rel.some hread) ?_
          intro q hq
          rw [← Option.some.inj hq]
          exact hcheck

theorem Definition.Describes.ofDefinition_eq {d : Definition} {l : Level} (h : d.Describes l) :
    ofDefinition d = .ok l := by
  have hcreate : create d.name l.board d.facing d.instructions d.maxInstructions
      = .ok { l with solution := none } := by
    rw [create_eq_ok_iff, ← h.name, ← h.facing, ← h.palette, ← h.cap]
    exact ⟨h.sound.palette, rfl⟩
  have hsolution := h.solution
  unfold ofDefinition
  simp only [h.board, hcreate]
  generalize hd : d.solution = written at hsolution
  generalize hl : l.solution = solution at hsolution
  cases hsolution with
  | none => rw [← hl]
  | some hread =>
      simp only [hread]
      refine withSolution_eq_ok_iff.mpr ⟨h.sound.solution _ hl, ?_⟩
      rw [← hl]

/-- **Reading a definition finds the level that it describes.** -/
theorem ofDefinition_eq_ok_iff {d : Definition} {l : Level} :
    ofDefinition d = .ok l ↔ d.Describes l :=
  ⟨describes_of_ofDefinition, Definition.Describes.ofDefinition_eq⟩

/-! ### Writing a level down -/

/-- A sound level is described by its own definition. -/
theorem Sound.describes {l : Level} (h : l.Sound) : l.definition.Describes l := by
  refine ⟨rfl, Board.ofRows_rows l.board, rfl, (Palette.ofKinds_kinds l.palette).symm, rfl, ?_, h⟩
  show Option.Rel _ (l.solution.map Program.text) l.solution
  cases l.solution with
  | none => exact Option.Rel.none
  | some p => exact Option.Rel.some (Program.ofText_of_words p.words_text)

/-- A definition as it is written down again after it was read. -/
structure Definition.IsNormalFormOf (e d : Definition) : Prop where
  name : e.name = d.name
  /-- The map has lost its blank characters and its empty rows. -/
  map : e.map = Board.tidied d.map
  facing : e.facing = d.facing
  /-- Each kind is listed once, in the order of `Kind.all`. -/
  instructions : e.instructions = Kind.all.filter d.instructions.contains
  maxInstructions : e.maxInstructions = d.maxInstructions
  /-- A recommended program is printed as it was read; if there was none there still is none. -/
  solution : Option.Rel (fun text printed => ∃ p, Program.ofText text = .ok p ∧ printed = p.text)
    d.solution e.solution

theorem Definition.Describes.isNormalFormOf {d : Definition} {l : Level} (h : d.Describes l) :
    l.definition.IsNormalFormOf d := by
  refine ⟨h.name, Board.rows_of_ofRows h.board, h.facing, ?_, h.cap, ?_⟩
  · show l.palette.kinds = _
    rw [h.palette, Palette.kinds_ofKinds]
  · show Option.Rel _ d.solution (l.solution.map Program.text)
    have hsolution := h.solution
    generalize d.solution = written at hsolution
    generalize l.solution = solution at hsolution
    cases hsolution with
    | none => exact Option.Rel.none
    | some hread => exact Option.Rel.some ⟨_, hread, rfl⟩

/-! ### Levels that are built -/

/-- The ways to a level. -/
inductive Built : Level → Prop
  | create {name : String} {board : Board} {facing : Heading} {kinds : List Kind} {cap : Nat}
      {l : Level} (h : Level.create name board facing kinds cap = .ok l) : Built l
  | withSolution {l l' : Level} {p : Program} (hl : Built l) (h : l.withSolution p = .ok l') :
      Built l'
  | ofDefinition {d : Definition} {l : Level} (h : Level.ofDefinition d = .ok l) : Built l

/-- Whichever way a level is built, it is sound. -/
theorem Built.sound {l : Level} (h : Built l) : l.Sound := by
  induction h with
  | create h =>
      obtain ⟨hpalette, rfl⟩ := create_eq_ok_iff.mp h
      exact ⟨hpalette, by simp⟩
  | withSolution hl h ih =>
      obtain ⟨hcheck, rfl⟩ := withSolution_eq_ok_iff.mp h
      refine ⟨ih.palette, ?_⟩
      intro q hq
      rw [← Option.some.inj hq]
      exact hcheck
  | ofDefinition h => exact (ofDefinition_eq_ok_iff.mp h).sound

/--
**A level is read back from its definition.**  This holds of every level that can be
built.  Reading a definition and writing the level down again gives the normal form of
the definition, which reading and writing leave as it is.
-/
theorem definition_round_trip :
    (∀ l, Built l → ofDefinition l.definition = .ok l) ∧
    (∀ d l, ofDefinition d = .ok l → l.definition.IsNormalFormOf d ∧
      ∃ l', ofDefinition l.definition = .ok l' ∧ l'.definition = l.definition) := by
  have hback : ∀ l, Built l → ofDefinition l.definition = .ok l :=
    fun l hl => ofDefinition_eq_ok_iff.mpr hl.sound.describes
  refine ⟨hback, ?_⟩
  intro d l h
  exact ⟨(ofDefinition_eq_ok_iff.mp h).isNormalFormOf, l, hback l (.ofDefinition h), rfl⟩

/-- A definition of the nook that is not in normal form. -/
def Definition.ofNook : Definition where
  name := "nook"
  map := [" S.\t#", "", "..G"]
  facing := .east
  instructions := [.turnRight, .moveForward, .turnRight, .conditionalWall, .turnLeft]
  maxInstructions := 5
  solution := some "F, if-wall-front:R  move,l F"

theorem definition_round_trip_nook :
    let l : Level := { nook with solution := some Program.throughNook }
    ofDefinition .ofNook = .ok l ∧ Built l ∧ ofDefinition l.definition = .ok l ∧
      l.definition.map = ["S.#", "..G"] ∧ l.definition.instructions = Kind.all := by
  intro l
  have hread : ofDefinition .ofNook = .ok l := rfl
  have hnormal := (definition_round_trip.2 _ l hread).1
  exact ⟨hread, .ofDefinition hread, definition_round_trip.1 l (.ofDefinition hread), hnormal.map,
    hnormal.instructions⟩

end Level

end RobotMaze
