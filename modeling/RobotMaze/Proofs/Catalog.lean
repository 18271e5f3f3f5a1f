/-
A catalog survives being written down.

A catalog is written as a document with one list of tables, the definitions of its levels.
A codec that keeps documents reads it back as the same tree (`Codec.Faithful`), the tree is
read as the same definitions (`readsBack_definition`), and a definition as the level that it
was made from if that level is sound (`Level.Sound.describes`).  What is left to see is that
catalogs hold sound levels, whichever way they were made, and that only a cap may keep a
definition from having a place in a document.
-/
import RobotMaze.Catalog
import RobotMaze.Proofs.Definition
import RobotMaze.Proofs.Forms
import RobotMaze.Proofs.Toml.Document

namespace RobotMaze

/-! ### Definitions as tables -/

namespace Level.Definition

open Datum Form

theorem keys_fields (d : Definition) : (d.fields.map Prod.fst).Sublist fieldNames := by
  unfold fields
  cases d.solution with
  | none => exact List.sublist_append_left _ ["solution"]
  | some words => exact List.Sublist.refl _

theorem isValue_texts (ss : List String) : IsValue (.list (ss.map .text)) := by
  refine .list fun item hitem => ?_
  obtain ⟨s, -, rfl⟩ := List.mem_map.mp hitem
  exact .text s

/-- The fields of a definition are texts and lists of texts, except for the cap. -/
theorem isValue_of_mem_fields {d : Definition} (hcap : d.maxInstructions < 0x8000000000000000)
    {f : String × Datum} (h : f ∈ d.fields) : IsValue f.2 := by
  rcases List.mem_append.mp h with h | h
  · simp only [List.mem_cons, List.not_mem_nil, or_false] at h
    rcases h with rfl | rfl | rfl | rfl | rfl
    · exact .scalar (.text d.name)
    · exact isValue_texts d.map
    · exact .scalar (.text d.facing.name)
    · have hkinds := isValue_texts (d.instructions.map Kind.name)
      rwa [List.map_map] at hkinds
    · exact .scalar (.int (by omega))
  · split at h
    · cases h
    · next words _ =>
      rw [List.mem_singleton.mp h]
      exact .scalar (.text words)

/-- A definition is a table of values if its cap is an integer of 64 bits with a sign. -/
theorem isTable_fields {d : Definition} (hcap : d.maxInstructions < 0x8000000000000000) :
    IsTable d.fields where
  plain f hf := by
    have hplain : ∀ name ∈ fieldNames, IsPlainName name := by decide
    exact hplain f.1 (d.keys_fields.subset (List.mem_map_of_mem hf))
  distinct := by
    have hdistinct : fieldNames.Nodup := by decide
    exact hdistinct.sublist d.keys_fields
  values f hf := isValue_of_mem_fields hcap hf

end Level.Definition

namespace Catalog

/-! ### When there is a catalog -/

theorem create_eq_ok_iff {levels : List Level} {c : Catalog} :
    create levels = .ok c ↔ levels ≠ [] ∧ c = { levels } := by
  unfold create
  cases levels with
  | nil => simp
  | cons l ls => simp [eq_comm]

/-- Definitions are made into levels one by one. -/
theorem levelsOf_eq_ok_iff {ds : List Level.Definition} :
    ∀ {index : Nat} {ls : List Level},
      levelsOf index ds = .ok ls ↔ ds.map Level.ofDefinition = ls.map .ok := by
  induction ds with
  | nil =>
      intro index ls
      cases ls <;> simp [levelsOf]
  | cons d ds ih =>
      intro index ls
      unfold levelsOf
      constructor
      · intro h
        split at h
        · cases h
        next l hl =>
        split at h
        · cases h
        next more hmore =>
        cases h
        rw [List.map_cons, List.map_cons, hl, ih.mp hmore]
      · intro h
        cases ls with
        | nil => cases h
        | cons l ls =>
            obtain ⟨hl, hmore⟩ := List.cons.inj h
            simp only [hl, ih.mpr hmore]

theorem ofDefinitions_eq_ok_iff {ds : List Level.Definition} {c : Catalog} :
    ofDefinitions ds = .ok c ↔ ds ≠ [] ∧ ds.map Level.ofDefinition = c.levels.map .ok := by
  unfold ofDefinitions
  constructor
  · intro h
    split at h
    · cases h
    next ls hls =>
    obtain ⟨hne, rfl⟩ := create_eq_ok_iff.mp h
    have hmap := levelsOf_eq_ok_iff.mp hls
    refine ⟨?_, hmap⟩
    rintro rfl
    exact hne (List.map_eq_nil_iff.mp hmap.symm)
  · rintro ⟨hne, hmap⟩
    rw [levelsOf_eq_ok_iff.mpr hmap]
    refine create_eq_ok_iff.mpr ⟨?_, rfl⟩
    intro hnil
    rw [hnil] at hmap
    exact hne (List.map_eq_nil_iff.mp hmap)

/-! ### Catalogs that are made -/

/-- The ways to a catalog. -/
inductive Built : Catalog → Prop
  | create {levels : List Level} {c : Catalog} (hlevels : ∀ l ∈ levels, l.Built)
      (h : Catalog.create levels = .ok c) : Built c
  | ofDefinitions {ds : List Level.Definition} {c : Catalog}
      (h : Catalog.ofDefinitions ds = .ok c) : Built c
  | ofText {codec : Codec} {s : String} {c : Catalog} (h : Catalog.ofText codec s = .ok c) :
      Built c

/-- The levels of a catalog that is read from definitions come from these. -/
theorem built_of_ofDefinitions {ds : List Level.Definition} {c : Catalog}
    (h : ofDefinitions ds = .ok c) : c.levels ≠ [] ∧ ∀ l ∈ c.levels, l.Built := by
  obtain ⟨hne, hmap⟩ := ofDefinitions_eq_ok_iff.mp h
  constructor
  · intro hnil
    rw [hnil] at hmap
    exact hne (List.map_eq_nil_iff.mp hmap)
  · intro l hl
    have hmem : Except.ok l ∈ ds.map Level.ofDefinition := hmap ▸ List.mem_map_of_mem hl
    obtain ⟨d, -, hd⟩ := List.mem_map.mp hmem
    exact .ofDefinition hd

/-- Whichever way a catalog is made, it holds a level, and all its levels are built. -/
theorem Built.forall_built {c : Catalog} (h : Built c) :
    c.levels ≠ [] ∧ ∀ l ∈ c.levels, l.Built := by
  cases h with
  | create hlevels h =>
      obtain ⟨hne, rfl⟩ := create_eq_ok_iff.mp h
      exact ⟨hne, hlevels⟩
  | ofDefinitions h => exact built_of_ofDefinitions h
  | ofText h =>
      unfold Catalog.ofText at h
      split at h
      · cases h
      · exact built_of_ofDefinitions h

/-- All levels of a catalog are sound. -/
theorem Built.sound {c : Catalog} (h : Built c) : c.levels ≠ [] ∧ ∀ l ∈ c.levels, l.Sound :=
  ⟨h.forall_built.1, fun l hl => (h.forall_built.2 l hl).sound⟩

/-! ### Documents -/

/-- The tables of a catalog's document. -/
def tables (c : Catalog) : List (List (String × Datum)) :=
  c.levels.map fun l => l.definition.fields

/-- The only field of a catalog's document. -/
def field (c : Catalog) : String × Datum :=
  ("levels", .list (c.tables.map .record))

theorem datum_eq (c : Catalog) : c.datum = .record [c.field] := by
  rw [field, tables, List.map_map]
  show Datum.record [("levels", .list ((c.levels.map Level.definition).map Form.write))] = _
  rw [List.map_map]
  rfl

/-- The tree of a catalog is a document if the caps of its levels are not too great. -/
theorem isDocument_field {c : Catalog} (hcap : ∀ l ∈ c.levels, l.cap < 0x8000000000000000) :
    Datum.IsDocument [c.field] where
  plain f hf := by
    rw [List.mem_singleton.mp hf]
    show Datum.IsPlainName "levels"
    decide
  distinct := by simp
  parts f hf := by
    rw [List.mem_singleton.mp hf]
    refine .tables fun fs hfs => ?_
    obtain ⟨l, hl, rfl⟩ := List.mem_map.mp hfs
    exact Level.Definition.isTable_fields (hcap l hl)

/-- The definitions are read back from the tree, in whatever order its fields are. -/
theorem definitions?_of_same {c : Catalog} (hcap : ∀ l ∈ c.levels, l.cap < 0x10000000000000000)
    {d : Datum} (hd : c.datum.Same d) :
    definitions? d = some (c.levels.map Level.definition) := by
  have hread : ReadsBack .toml (c.levels.map Level.definition) := by
    refine readsBack_list fun d hd => ?_
    obtain ⟨l, hl, rfl⟩ := List.mem_map.mp hd
    exact readsBack_definition .toml (hcap l hl)
  obtain ⟨fs, rfl, hfields⟩ := Datum.Same.record_inv hd
  exact hread.required? (hfields "levels")

theorem ofDefinitions_definitions {c : Catalog} (h : Built c) :
    ofDefinitions (c.levels.map Level.definition) = .ok c := by
  obtain ⟨hne, hsound⟩ := h.sound
  refine ofDefinitions_eq_ok_iff.mpr ⟨fun hnil => hne (List.map_eq_nil_iff.mp hnil), ?_⟩
  rw [List.map_map]
  refine List.map_congr_left fun l hl => ?_
  exact Level.ofDefinition_eq_ok_iff.mpr (hsound l hl).describes

/--
**A catalog is read back from its document.**  However it was made, and whatever its levels
are called and look like, it can be written down if their caps are integers of 64 bits with a
sign, and what is written is read as the same levels in the same order.  This holds with every
codec that keeps documents.
-/
theorem document_round_trip {codec : Codec} (hcodec : codec.Faithful) {c : Catalog}
    (hbuilt : Built c) (hcap : ∀ l ∈ c.levels, l.cap < 0x8000000000000000) :
    ∃ s, c.text? codec = some s ∧ ofText codec s = .ok c := by
  have hdocument := isDocument_field hcap
  obtain ⟨s, hs⟩ := hcodec.writes hdocument
  obtain ⟨d, hread, hsame⟩ := hcodec.reads hdocument hs
  rw [← datum_eq] at hs hsame
  have hdefinitions := definitions?_of_same
    (fun l hl => Nat.lt_trans (hcap l hl) (by decide)) hsame
  refine ⟨s, hs, ?_⟩
  unfold ofText
  rw [hread, Option.bind_some, hdefinitions]
  exact ofDefinitions_definitions hbuilt

/-- A catalog of one level, with a name that needs marks over several lines. -/
theorem document_round_trip_nook :
    let name := "the \"nook\"\nbehind the wall"
    let l : Level := { Level.nook with name, solution := some Program.throughNook }
    let c : Catalog := { levels := [l] }
    Toml.codec.Faithful ∧ Built c ∧ (∀ l ∈ c.levels, l.cap < 0x8000000000000000) ∧
      ∃ s, c.text? Toml.codec = some s ∧ ofText Toml.codec s = .ok c := by
  intro name l c
  have hread : Level.ofDefinition { Level.Definition.ofNook with name } = .ok l := rfl
  have hbuilt : Built c := by
    refine @Built.create [l] c ?_ rfl
    intro l' hl'
    rw [List.mem_singleton.mp hl']
    exact .ofDefinition hread
  have hcap : ∀ l ∈ c.levels, l.cap < 0x8000000000000000 := by decide
  exact ⟨Toml.faithful_codec, hbuilt, hcap,
    document_round_trip Toml.faithful_codec hbuilt hcap⟩

end Catalog

end RobotMaze
