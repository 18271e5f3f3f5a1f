/-
Values are read back from their written forms.

A written form is a tree of data, and which notation it is then given does not matter
here.  What is written for a list is read back item by item, and what is written for a
record field by field, a field that was left out included.  A notation may give the fields
of a record back in another order (`Datum.Same`), which reading does not see.
-/
import RobotMaze.Datum.Puzzle
import RobotMaze.Proofs.Codec

namespace RobotMaze

open Datum Form

/-- What is written for the value is read as the value, in whatever order its fields are. -/
def ReadsBack {α : Type} [Form α] (f : Format) (a : α) : Prop :=
  ∀ d, (write a).Same d → read? f d = some a

theorem readsBack_bool (f : Format) (b : Bool) : ReadsBack f b := by
  rintro _ ⟨⟩
  rfl

theorem readsBack_string (f : Format) (s : String) : ReadsBack f s := by
  rintro _ ⟨⟩
  rfl

/-- Numbers are read up to 64 bits. -/
theorem readsBack_nat (f : Format) {n : Nat} (h : n < 0x10000000000000000) : ReadsBack f n := by
  rintro _ ⟨⟩
  show (if 0 ≤ (n : Int) ∧ (n : Int) < 0x10000000000000000 then some (n : Int).toNat else none) = _
  rw [if_pos (by omega), Int.toNat_natCast]

/-- Coordinates are read up to 32 bits. -/
theorem readsBack_int (f : Format) {i : Int} (h : -0x80000000 ≤ i ∧ i < 0x80000000) :
    ReadsBack f i := by
  rintro _ ⟨⟩
  exact if_pos h

theorem readsBack_heading (f : Format) (h : Heading) : ReadsBack f h := by
  rintro _ ⟨⟩
  cases h <;> rfl

theorem readsBack_kind (f : Format) (k : Kind) : ReadsBack f k := by
  rintro _ ⟨⟩
  cases k <;> rfl

theorem readsBack_list {α : Type} [Form α] {f : Format} {as : List α}
    (h : ∀ a ∈ as, ReadsBack f a) : ReadsBack f as := by
  intro d hd
  obtain ⟨items, rfl, hitems⟩ := Same.list_inv hd
  show items.mapM (read? f) = some as
  clear hd
  induction as generalizing items with
  | nil =>
      cases hitems
      rfl
  | cons a as ih =>
      obtain - | ⟨hitem, hmore⟩ := hitems
      rw [List.mapM_cons, h a List.mem_cons_self _ hitem,
        ih (fun a ha => h a (List.mem_cons_of_mem _ ha)) _ hmore]
      rfl

/-! ### Fields -/

theorem ReadsBack.required? {α : Type} [Form α] {f : Format} {a : α} (h : ReadsBack f a)
    {field : Option Datum} (hfield : Option.Rel Same (some (write a)) field) :
    required? f field = some a := by
  obtain ⟨hsame⟩ := hfield
  exact h _ hsame

theorem ReadsBack.optional? {α : Type} [Form α] {f : Format} {a : α} (h : ReadsBack f a)
    (fallback : α) {field : Option Datum} (hfield : Option.Rel Same (some (write a)) field) :
    optional? f fallback field = some a := by
  obtain ⟨hsame⟩ := hfield
  exact h _ hsame

/-- A text that is left out if it is not there. -/
theorem readsBack_omitted (f : Format) (text : Option String) {field : Option Datum}
    (hfield : Option.Rel Same (text.map write) field) :
    optional? f none field = some text := by
  cases text with
  | none =>
      cases hfield
      rfl
  | some s =>
      obtain ⟨⟨⟩⟩ := hfield
      rfl

/-! ### Poses -/

/-- The coordinates are integers of 32 bits with a sign. -/
structure Position.Fits (p : Position) : Prop where
  x : -0x80000000 ≤ p.x ∧ p.x < 0x80000000
  y : -0x80000000 ≤ p.y ∧ p.y < 0x80000000

theorem readsBack_position (f : Format) {p : Position} (h : p.Fits) : ReadsBack f p := by
  intro d hd
  obtain ⟨items, rfl, hitems⟩ := Same.list_inv hd
  obtain - | @⟨_, x, _, _, hx, - | @⟨_, y, _, _, hy, ⟨⟩⟩⟩ := hitems
  show (do some (⟨← read? f x, ← read? f y⟩ : Position)) = some p
  rw [readsBack_int f h.x x hx, readsBack_int f h.y y hy]
  rfl

/-- The fields that are written for a pose. -/
def Pose.fields (p : Pose) : List (String × Datum) :=
  [("position", write p.position), ("direction", write p.heading)]

theorem readsBack_pose (f : Format) {p : Pose} (h : p.position.Fits) : ReadsBack f p := by
  intro d hd
  obtain ⟨fs, rfl, hfields⟩ := Same.record_inv hd
  have hposition := (readsBack_position f h).required? (hfields "position")
  have hheading := (readsBack_heading f p.heading).required? (hfields "direction")
  show (do
    let position ← required? f (fs.lookup "position")
    let heading ← required? f (fs.lookup "direction")
    some (⟨position, heading⟩ : Pose)) = some p
  rw [hposition, hheading]
  rfl

/-! ### Definitions -/

namespace Level.Definition

/-- The fields that are written for a definition. -/
def fields (d : Definition) : List (String × Datum) :=
  [("name", write d.name), ("map", write d.map), ("facing", write d.facing),
    ("instructions", write d.instructions), ("max_instructions", write d.maxInstructions)]
  ++ match d.solution with
    | none => []
    | some words => [("solution", write words)]

theorem lookup_fields (d : Definition) :
    List.lookup "name" d.fields = some (write d.name) ∧
      List.lookup "map" d.fields = some (write d.map) ∧
      List.lookup "facing" d.fields = some (write d.facing) ∧
      List.lookup "instructions" d.fields = some (write d.instructions) ∧
      List.lookup "max_instructions" d.fields = some (write d.maxInstructions) ∧
      List.lookup "solution" d.fields = d.solution.map write := by
  unfold fields
  cases d.solution with
  | none => exact ⟨rfl, rfl, rfl, rfl, rfl, rfl⟩
  | some words => exact ⟨rfl, rfl, rfl, rfl, rfl, rfl⟩

end Level.Definition

/-- A definition is read back if its cap fits into 64 bits. -/
theorem readsBack_definition (f : Format) {d : Level.Definition}
    (hcap : d.maxInstructions < 0x10000000000000000) : ReadsBack f d := by
  intro t ht
  obtain ⟨fs, rfl, hfields⟩ := Same.record_inv ht
  obtain ⟨hname, hmap, hfacing, hinstructions, hmax, hsolution⟩ := d.lookup_fields
  have hrows : ReadsBack f d.map := readsBack_list fun s _ => readsBack_string f s
  have hkinds : ReadsBack f d.instructions := readsBack_list fun k _ => readsBack_kind f k
  have hwords := readsBack_omitted f d.solution (hsolution ▸ hfields "solution")
  show (do
    let name ← required? f (fs.lookup "name")
    let map ← required? f (fs.lookup "map")
    let facing ← optional? f .north (fs.lookup "facing")
    let instructions ← optional? f Kind.all (fs.lookup "instructions")
    let maxInstructions ← optional? f 10 (fs.lookup "max_instructions")
    let solution ← optional? f none (fs.lookup "solution")
    some { name, map, facing, instructions, maxInstructions, solution }) = some d
  rw [(readsBack_string f d.name).required? (hname ▸ hfields "name"),
    hrows.required? (hmap ▸ hfields "map"),
    (readsBack_heading f d.facing).optional? .north (hfacing ▸ hfields "facing"),
    hkinds.optional? Kind.all (hinstructions ▸ hfields "instructions"),
    (readsBack_nat f hcap).optional? 10 (hmax ▸ hfields "max_instructions"), hwords]
  rfl

end RobotMaze
