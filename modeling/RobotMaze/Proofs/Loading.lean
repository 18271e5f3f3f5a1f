/-
A catalog is loaded whole or not at all, and the first broken level is to blame.

A definition can be broken in several ways at once, and several definitions of one document can
be broken.  What is reported is one cause of one definition: the first definition in the
document that makes no level (`FirstBroken`), with its number, its name and its own first fault.
`Fails` says which fault of a definition is the first, with the faults in the order in which they
count; what it describes otherwise is known already (`Describes`).

If no definition is broken, the levels are those of the definitions, one for each and in the order
of the document.  Since a level has the name of its definition, looking for a name among the
levels is looking for it in the document.
-/
import RobotMaze.Proofs.Catalog
import RobotMaze.Proofs.Selection

namespace RobotMaze

theorem Palette.isEmpty_ofKinds {ks : List Kind} : (ofKinds ks).isEmpty = true ↔ ks = [] := by
  unfold isEmpty
  rw [kinds_ofKinds, List.isEmpty_iff, List.filter_eq_nil_iff]
  constructor
  · intro h
    refine List.eq_nil_iff_forall_not_mem.mpr fun k hk => ?_
    have hall : k ∈ Kind.all := by cases k <;> decide
    exact h k hall (List.contains_iff_mem.mpr hk)
  · rintro rfl k _
    simp

namespace Level

/-! ### Why a definition makes no level -/

/-- The level of a definition on its board, before a program is recommended. -/
def Definition.bare (d : Definition) (board : Board) : Level where
  name := d.name
  board := board
  facing := d.facing
  palette := Palette.ofKinds d.instructions
  cap := d.maxInstructions
  solution := none

/-- The first fault of a definition.  A map that cannot be read comes before an empty palette, and
both come before a recommended program that cannot be read or breaks the level's rules. -/
inductive Definition.Fails (d : Definition) : LevelError → Prop
  | map {e : BoardError} (hmap : Board.ofRows d.map = .error e) : Fails d (.map e)
  | noInstructions {board : Board} (hmap : Board.ofRows d.map = .ok board)
      (hkinds : d.instructions = []) : Fails d .noInstructions
  | unreadable {board : Board} {text : String} {e : ProgramError}
      (hmap : Board.ofRows d.map = .ok board) (hkinds : d.instructions ≠ [])
      (htext : d.solution = some text) (hread : Program.ofText text = .error e) :
      Fails d (.solution e)
  | rejected {board : Board} {text : String} {p : Program} {e : ProgramError}
      (hmap : Board.ofRows d.map = .ok board) (hkinds : d.instructions ≠ [])
      (htext : d.solution = some text) (hread : Program.ofText text = .ok p)
      (hcheck : (d.bare board).check p = .error e) : Fails d (.solution e)

variable {d : Definition} {board : Board} {e : LevelError}

theorem create_of_nil (hkinds : d.instructions = []) :
    create d.name board d.facing d.instructions d.maxInstructions = .error .noInstructions :=
  if_pos (Palette.isEmpty_ofKinds.mpr hkinds)

theorem create_of_ne_nil (hkinds : d.instructions ≠ []) :
    create d.name board d.facing d.instructions d.maxInstructions = .ok (d.bare board) :=
  if_neg (mt Palette.isEmpty_ofKinds.mp hkinds)

theorem fails_of_ofDefinition (h : ofDefinition d = .error e) : d.Fails e := by
  unfold ofDefinition at h
  split at h
  · next hmap =>
      cases h
      exact .map hmap
  next board hmap =>
  by_cases hkinds : d.instructions = []
  · rw [create_of_nil hkinds] at h
    cases h
    exact .noInstructions hmap hkinds
  rw [create_of_ne_nil hkinds] at h
  simp only at h
  split at h
  · cases h
  next text htext =>
  split at h
  · next hread =>
      cases h
      exact .unreadable hmap hkinds htext hread
  next p hread =>
  unfold withSolution at h
  split at h
  · cases h
  · next hcheck =>
      cases h
      exact .rejected hmap hkinds htext hread hcheck

theorem Definition.Fails.ofDefinition_eq (h : d.Fails e) : ofDefinition d = .error e := by
  unfold ofDefinition
  cases h with
  | map hmap => simp only [hmap]
  | noInstructions hmap hkinds => simp only [hmap, create_of_nil hkinds]
  | unreadable hmap hkinds htext hread =>
      simp only [hmap, create_of_ne_nil hkinds, htext, hread]
  | rejected hmap hkinds htext hread hcheck =>
      simp only [hmap, create_of_ne_nil hkinds, htext, hread, withSolution, hcheck]

/-- **A definition that makes no level has a first fault, and that is the error.** -/
theorem ofDefinition_eq_error_iff : ofDefinition d = .error e ↔ d.Fails e :=
  ⟨fails_of_ofDefinition, Definition.Fails.ofDefinition_eq⟩

end Level

namespace Catalog

open Level (ofDefinition)

/-! ### The first broken definition -/

/-- The first definition of a list that makes no level: its number, its name, and its fault. -/
structure FirstBroken (ds : List Level.Definition) (index : Nat) (name : String)
    (cause : LevelError) : Prop where
  broken : ∃ d, ds[index]? = some d ∧ d.name = name ∧ d.Fails cause
  first : ∀ j < index, ∀ d, ds[j]? = some d → ∃ l, ofDefinition d = .ok l

variable {d : Level.Definition} {ds : List Level.Definition} {index : Nat} {name : String}
  {cause : LevelError} {l : Level} {c : Catalog}

theorem firstBroken_cons_of_error {e : LevelError} (hd : ofDefinition d = .error e) :
    FirstBroken (d :: ds) index name cause ↔ index = 0 ∧ name = d.name ∧ cause = e := by
  constructor
  · rintro ⟨⟨d', hat, rfl, hfails⟩, hfirst⟩
    cases index with
    | zero =>
        cases hat
        have heq := hd.symm.trans hfails.ofDefinition_eq
        exact ⟨rfl, rfl, (Except.error.inj heq).symm⟩
    | succ i =>
        obtain ⟨l, hl⟩ := hfirst 0 (Nat.succ_pos i) d rfl
        cases hd.symm.trans hl
  · rintro ⟨rfl, rfl, rfl⟩
    exact ⟨⟨d, rfl, rfl, Level.ofDefinition_eq_error_iff.mp hd⟩, nofun⟩

theorem firstBroken_cons_of_ok (hd : ofDefinition d = .ok l) :
    FirstBroken (d :: ds) index name cause ↔ ∃ i, index = i + 1 ∧ FirstBroken ds i name cause := by
  constructor
  · rintro ⟨⟨d', hat, hname, hfails⟩, hfirst⟩
    cases index with
    | zero =>
        cases hat
        cases hd.symm.trans hfails.ofDefinition_eq
    | succ i =>
        exact ⟨i, rfl, ⟨d', hat, hname, hfails⟩, fun j hj => hfirst (j + 1) (Nat.succ_lt_succ hj)⟩
  · rintro ⟨i, rfl, hbroken, hfirst⟩
    refine ⟨hbroken, fun j hj d' hd' => ?_⟩
    cases j with
    | zero =>
        cases hd'
        exact ⟨l, hd⟩
    | succ j => exact hfirst j (Nat.lt_of_succ_lt_succ hj) d' hd'

/-- Making levels stops at the first broken definition and blames it, wherever the count of the
definitions begins. -/
theorem levelsOf_eq_error_iff {e : CatalogError} :
    ∀ {start : Nat}, levelsOf start ds = .error e ↔
      ∃ index name cause, FirstBroken ds index name cause ∧
        e = .level (start + index) name cause := by
  induction ds with
  | nil =>
      intro start
      constructor
      · exact nofun
      · rintro ⟨index, name, cause, ⟨⟨d, hat, -⟩, -⟩, -⟩
        cases hat
  | cons d ds ih =>
      intro start
      unfold levelsOf
      cases hd : ofDefinition d with
      | error e' =>
          simp only [firstBroken_cons_of_error hd]
          constructor
          · intro h
            cases h
            exact ⟨0, d.name, e', ⟨rfl, rfl, rfl⟩, rfl⟩
          · rintro ⟨_, _, _, ⟨rfl, rfl, rfl⟩, rfl⟩
            rfl
      | ok l =>
          have hshift : levelsOf (start + 1) ds = .error e ↔
              ∃ index name cause, FirstBroken (d :: ds) index name cause ∧
                e = .level (start + index) name cause := by
            simp only [ih, firstBroken_cons_of_ok hd]
            constructor
            · rintro ⟨i, name, cause, hbroken, rfl⟩
              exact ⟨i + 1, name, cause, ⟨i, rfl, hbroken⟩, by rw [Nat.add_right_comm]; rfl⟩
            · rintro ⟨_, name, cause, ⟨i, rfl, hbroken⟩, rfl⟩
              exact ⟨i, name, cause, hbroken, by rw [Nat.add_right_comm]; rfl⟩
          rw [← hshift]
          cases levelsOf (start + 1) ds <;> simp

/-! ### What definitions come to -/

theorem ofDefinitions_eq_level_iff :
    ofDefinitions ds = .error (.level index name cause) ↔ FirstBroken ds index name cause := by
  have hbroken : levelsOf 0 ds = .error (.level index name cause) ↔
      FirstBroken ds index name cause := by
    rw [levelsOf_eq_error_iff]
    constructor
    · rintro ⟨_, _, _, h, heq⟩
      cases heq
      rwa [Nat.zero_add]
    · intro h
      exact ⟨index, name, cause, h, by rw [Nat.zero_add]⟩
  rw [← hbroken]
  unfold ofDefinitions create
  cases levelsOf 0 ds with
  | error e => simp only [Except.error.injEq]
  | ok ls => cases ls <;> simp

theorem ofDefinitions_eq_empty_iff : ofDefinitions ds = .error .empty ↔ ds = [] := by
  constructor
  · intro h
    unfold ofDefinitions at h
    split at h
    · next e he =>
        obtain ⟨_, _, _, -, rfl⟩ := levelsOf_eq_error_iff.mp he
        cases h
    · next ls hls =>
        have hmap := levelsOf_eq_ok_iff.mp hls
        cases ls with
        | nil => exact List.map_eq_nil_iff.mp hmap
        | cons l ls => cases h
  · rintro rfl
    rfl

/-- Definitions come to a catalog, or one of them is to blame, or there are none. -/
theorem ofDefinitions_cases (ds : List Level.Definition) :
    (∃ c, ofDefinitions ds = .ok c) ∨
      (∃ index name cause, ofDefinitions ds = .error (.level index name cause)) ∨
      ofDefinitions ds = .error .empty := by
  unfold ofDefinitions
  cases hls : levelsOf 0 ds with
  | error e =>
      obtain ⟨index, name, cause, -, rfl⟩ := levelsOf_eq_error_iff.mp hls
      exact Or.inr (Or.inl ⟨0 + index, name, cause, rfl⟩)
  | ok ls =>
      cases ls with
      | nil => exact Or.inr (Or.inr rfl)
      | cons l ls => exact Or.inl ⟨{ levels := l :: ls }, rfl⟩

/-- There is a catalog if there is a definition and none is broken. -/
theorem exists_ofDefinitions_iff :
    (∃ c, ofDefinitions ds = .ok c) ↔ ds ≠ [] ∧ ∀ d ∈ ds, ∃ l, ofDefinition d = .ok l := by
  constructor
  · rintro ⟨c, hc⟩
    obtain ⟨hne, hmap⟩ := ofDefinitions_eq_ok_iff.mp hc
    refine ⟨hne, fun d hd => ?_⟩
    have hmem : ofDefinition d ∈ c.levels.map .ok := hmap ▸ List.mem_map_of_mem hd
    obtain ⟨l, -, hl⟩ := List.mem_map.mp hmem
    exact ⟨l, hl.symm⟩
  · rintro ⟨hne, hall⟩
    rcases ofDefinitions_cases ds with hok | ⟨index, name, cause, hlevel⟩ | hempty
    · exact hok
    · obtain ⟨d, hat, -, hfails⟩ := (ofDefinitions_eq_level_iff.mp hlevel).broken
      obtain ⟨l, hl⟩ := hall d (List.mem_of_getElem? hat)
      cases hl.symm.trans hfails.ofDefinition_eq
    · exact absurd (ofDefinitions_eq_empty_iff.mp hempty) hne

/-! ### The levels in the order of the document -/

/-- The first definition of a list with this name, but for the case of letters. -/
structure FirstTitled (ds : List Level.Definition) (name : String) (i : Nat)
    (d : Level.Definition) : Prop where
  definition : ds[i]? = some d
  titled : Text.Recased d.name name
  first : ∀ j < i, ∀ d', ds[j]? = some d' → ¬Text.Recased d'.name name

/-- The catalog has the levels of these definitions, one for each, and shows them in the order of
the definitions, whether one goes through them, asks for a number or looks for a name. -/
structure Presents (c : Catalog) (ds : List Level.Definition) : Prop where
  length : c.levels.length = ds.length
  levels : c.levels.map .ok = ds.map ofDefinition
  get : ∀ i, (c.get? i).map .ok = ds[i]?.map ofDefinition
  found : ∀ name i l, c.find? name = some (i, l) ↔
    ∃ d, FirstTitled ds name i d ∧ ofDefinition d = .ok l
  notFound : ∀ name, c.find? name = none ↔ ∀ d ∈ ds, ¬Text.Recased d.name name

/-- A level has the name of its definition. -/
theorem name_of_ofDefinition (h : ofDefinition d = .ok l) : l.name = d.name :=
  (Level.ofDefinition_eq_ok_iff.mp h).name

section
variable (h : c.levels.map .ok = ds.map ofDefinition) {i : Nat}
include h

theorem get?_map_ok (i : Nat) : (c.get? i).map .ok = ds[i]?.map ofDefinition := by
  rw [get?, ← List.getElem?_map, ← List.getElem?_map, h]

theorem definition_of_level (hl : c.levels[i]? = some l) :
    ∃ d, ds[i]? = some d ∧ ofDefinition d = .ok l := by
  have hget := get?_map_ok h i
  rw [get?, hl] at hget
  obtain ⟨d, hd, heq⟩ := Option.map_eq_some_iff.mp hget.symm
  exact ⟨d, hd, heq⟩

theorem level_of_definition (hd : ds[i]? = some d) :
    ∃ l, c.levels[i]? = some l ∧ ofDefinition d = .ok l := by
  have hget := get?_map_ok h i
  rw [hd] at hget
  obtain ⟨l, hl, heq⟩ := Option.map_eq_some_iff.mp hget
  exact ⟨l, hl, heq.symm⟩

/-- The first level of a name is that of the first definition of this name. -/
theorem firstNamed_iff : c.FirstNamed name i l ↔
    ∃ d, FirstTitled ds name i d ∧ ofDefinition d = .ok l := by
  constructor
  · rintro ⟨hlevel, hnamed, hfirst⟩
    obtain ⟨d, hd, heq⟩ := definition_of_level h hlevel
    refine ⟨d, ⟨hd, name_of_ofDefinition heq ▸ hnamed, fun j hj d' hd' => ?_⟩, heq⟩
    obtain ⟨l', hl', heq'⟩ := level_of_definition h hd'
    exact name_of_ofDefinition heq' ▸ hfirst j hj l' hl'
  · rintro ⟨d, ⟨hd, htitled, hfirst⟩, heq⟩
    obtain ⟨l', hl', heq'⟩ := level_of_definition h hd
    cases heq.symm.trans heq'
    refine ⟨hl', name_of_ofDefinition heq ▸ htitled, fun j hj l' hl' => ?_⟩
    obtain ⟨d', hd', heq'⟩ := definition_of_level h hl'
    exact name_of_ofDefinition heq' ▸ hfirst j hj d' hd'

theorem not_named_iff : (∀ l ∈ c.levels, ¬Text.Recased l.name name) ↔
    ∀ d ∈ ds, ¬Text.Recased d.name name := by
  constructor
  · intro hno d hd
    obtain ⟨i, hi⟩ := List.mem_iff_getElem?.mp hd
    obtain ⟨l, hl, heq⟩ := level_of_definition h hi
    exact name_of_ofDefinition heq ▸ hno l (List.mem_of_getElem? hl)
  · intro hno l hl
    obtain ⟨i, hi⟩ := List.mem_iff_getElem?.mp hl
    obtain ⟨d, hd, heq⟩ := definition_of_level h hi
    exact name_of_ofDefinition heq ▸ hno d (List.mem_of_getElem? hd)

theorem presents : c.Presents ds where
  length := by simpa using congrArg List.length h
  levels := h
  get := get?_map_ok h
  found name i l := find?_eq_some_iff.trans (firstNamed_iff h)
  notFound name := find?_eq_none_iff.trans (not_named_iff h)

end

/--
**A document is loaded whole, or its first broken level is to blame.**  Of a document that holds
definitions, nothing is loaded if there are none of them.  If some are broken, the error has
number and name of the first of these and its first fault.  Otherwise there is a catalog, and
it presents all of them.  What the codec made of the text does not matter further.
-/
theorem loads_whole_or_blames_first (codec : Codec) (s : String) (ds : List Level.Definition)
    (hs : (codec.read? s).bind definitions? = some ds) :
    (ofText codec s = .error .empty ↔ ds = []) ∧
    (∀ index name cause, ofText codec s = .error (.level index name cause) ↔
      FirstBroken ds index name cause) ∧
    (∀ d cause, ofDefinition d = .error cause ↔ d.Fails cause) ∧
    ((∃ c, ofText codec s = .ok c) ↔ ds ≠ [] ∧ ∀ d ∈ ds, ∃ l, ofDefinition d = .ok l) ∧
    (∀ c, ofText codec s = .ok c → c.Presents ds) ∧
    ∀ e, ofText codec s = .error e →
      e = .empty ∨ ∃ index name cause, e = .level index name cause := by
  have htext : ofText codec s = ofDefinitions ds := by
    unfold ofText
    rw [hs]
  rw [htext]
  refine ⟨ofDefinitions_eq_empty_iff, fun index name cause => ofDefinitions_eq_level_iff,
    fun d cause => Level.ofDefinition_eq_error_iff, exists_ofDefinitions_iff,
    fun c hc => presents (ofDefinitions_eq_ok_iff.mp hc).2.symm, fun e he => ?_⟩
  rcases ofDefinitions_cases ds with ⟨c, hc⟩ | ⟨index, name, cause, hlevel⟩ | hempty
  · cases he.symm.trans hc
  · exact Or.inr ⟨index, name, cause, Except.error.inj (he.symm.trans hlevel)⟩
  · exact Or.inl (Except.error.inj (he.symm.trans hempty))

/-- Two levels whose names differ only in case, and two of which the second is broken in two
ways. -/
theorem loads_whole_or_blames_first_dot :
    let codec := Toml.codec
    let whole :=
      "[[levels]]\nname = \"dot\"\nmap = [\"*\"]\n[[levels]]\nname = \"DOT\"\nmap = [\"*\"]\n"
    let faulty :=
      "[[levels]]\nname = \"dot\"\nmap = [\"*\"]\n[[levels]]\nname = \"\"\nmap=[]\ninstructions=[]"
    let dot : Level.Definition := { name := "dot", map := ["*"] }
    let capital : Level.Definition := { name := "DOT", map := ["*"] }
    let bare : Level.Definition := { name := "", map := [], instructions := [] }
    (codec.read? whole).bind definitions? = some [dot, capital] ∧
    (∃ c, ofText codec whole = .ok c ∧ c.levels.length = 2 ∧
      (c.find? "Dot").map Prod.fst = some 0) ∧
    (codec.read? faulty).bind definitions? = some [dot, bare] ∧
    ofText codec faulty = .error (.level 1 "" (.map .empty)) := by
  intro codec whole faulty dot capital bare
  have hwhole : (codec.read? whole).bind definitions? = some [dot, capital] := by decide +kernel
  have hfaulty : (codec.read? faulty).bind definitions? = some [dot, bare] := by decide +kernel
  obtain ⟨l, hl⟩ : ∃ l, ofDefinition dot = .ok l := ⟨_, rfl⟩
  obtain ⟨l', hl'⟩ : ∃ l, ofDefinition capital = .ok l := ⟨_, rfl⟩
  have hall : ∀ d ∈ [dot, capital], ∃ l, ofDefinition d = .ok l :=
    List.forall_mem_cons.mpr ⟨⟨l, hl⟩, List.forall_mem_singleton.mpr ⟨l', hl'⟩⟩
  have htitled : FirstTitled [dot, capital] "Dot" 0 dot :=
    ⟨rfl, Text.sameLetters_iff.mp (by decide +kernel), nofun⟩
  have hbroken : FirstBroken [dot, bare] 1 "" (.map .empty) := by
    refine ⟨⟨bare, rfl, rfl, .map rfl⟩, fun j hj d hd => ?_⟩
    obtain rfl : j = 0 := Nat.lt_one_iff.mp hj
    cases hd
    exact ⟨l, hl⟩
  obtain ⟨-, -, -, hloads, hpresents, -⟩ := loads_whole_or_blames_first codec whole _ hwhole
  obtain ⟨-, hblames, -⟩ := loads_whole_or_blames_first codec faulty _ hfaulty
  obtain ⟨c, hc⟩ := hloads.mpr ⟨List.cons_ne_nil _ _, hall⟩
  have hfound : c.find? "Dot" = some (0, l) :=
    ((hpresents c hc).found "Dot" 0 l).mpr ⟨dot, htitled, hl⟩
  exact ⟨hwhole, ⟨c, hc, (hpresents c hc).length, congrArg (Option.map Prod.fst) hfound⟩, hfaulty,
    (hblames 1 "" _).mpr hbroken⟩

end Catalog

end RobotMaze
