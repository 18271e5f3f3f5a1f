/-
What is asked of a codec.

A codec keeps documents if it has a text for each of them and reads the text as the same
document.  The fields of a table are known by their names, so their order does not count
(`Datum.Same`).  Documents are made of what every notation for them has: values, tables
of values and lists of such tables (`IsDocument`).
-/
import Mathlib.Data.List.Forall2
import Mathlib.Data.Option.Basic
import RobotMaze.Codec

namespace RobotMaze

/-! ### Trees without an order of fields -/

namespace Datum

/-- The trees are the same but for the order of the fields in their tables. -/
inductive Same : Datum → Datum → Prop
  | refl (d : Datum) : Same d d
  | list {items items' : List Datum} (h : List.Forall₂ Same items items') :
      Same (.list items) (.list items')
  | record {fs fs' : List (String × Datum)}
      (h : ∀ name, Option.Rel Same (fs.lookup name) (fs'.lookup name)) :
      Same (.record fs) (.record fs')

theorem Same.list_inv {items : List Datum} {d : Datum} (h : Same (.list items) d) :
    ∃ items', d = .list items' ∧ List.Forall₂ Same items items' := by
  cases h with
  | refl => exact ⟨items, rfl, List.forall₂_same.mpr fun d _ => .refl d⟩
  | list h => exact ⟨_, rfl, h⟩

theorem Same.record_inv {fs : List (String × Datum)} {d : Datum} (h : Same (.record fs) d) :
    ∃ fs', d = .record fs' ∧
      ∀ name, Option.Rel Same (fs.lookup name) (fs'.lookup name) := by
  cases h with
  | refl =>
      refine ⟨fs, rfl, fun name => ?_⟩
      cases fs.lookup name with
      | none => exact .none
      | some d => exact .some (.refl d)
  | record h => exact ⟨_, rfl, h⟩

/-- Where no name occurs twice, a field is found wherever it stands. -/
theorem lookup_eq_some_iff_mem {fs : List (String × Datum)} (hdistinct : (fs.map Prod.fst).Nodup)
    {name : String} {d : Datum} : fs.lookup name = some d ↔ (name, d) ∈ fs := by
  induction fs with
  | nil => simp
  | cons f fs ih =>
      obtain ⟨hnew, hdistinct⟩ := List.nodup_cons.mp hdistinct
      rw [List.lookup_cons, List.mem_cons, Prod.ext_iff]
      by_cases hname : name = f.1
      · subst hname
        have hnot : (f.1, d) ∉ fs := fun h => hnew (List.mem_map.mpr ⟨_, h, rfl⟩)
        simp [hnot, eq_comm]
      · rw [beq_eq_false_iff_ne.mpr hname]
        simp [hname, ih hdistinct]

/-- Another order of the fields makes no other tree. -/
theorem same_of_perm {fs fs' : List (String × Datum)} (hdistinct : (fs.map Prod.fst).Nodup)
    (hperm : fs'.Perm fs) : Same (.record fs) (.record fs') := by
  have hdistinct' := (hperm.map Prod.fst).nodup_iff.mpr hdistinct
  have hlookup : ∀ name, fs'.lookup name = fs.lookup name := by
    intro name
    refine Option.ext fun d => ?_
    rw [lookup_eq_some_iff_mem hdistinct', lookup_eq_some_iff_mem hdistinct, hperm.mem_iff]
  refine .record fun name => ?_
  rw [hlookup name]
  cases fs.lookup name with
  | none => exact .none
  | some d => exact .some (.refl d)

/-! ### Documents -/

/-- A single value: a truth value, an integer of 64 bits with a sign, or a text. -/
inductive IsScalar : Datum → Prop
  | bool (b : Bool) : IsScalar (.bool b)
  | int {i : Int} (h : -0x8000000000000000 ≤ i ∧ i < 0x8000000000000000) : IsScalar (.int i)
  | text (s : String) : IsScalar (.text s)

/-- A single value or a list of them. -/
inductive IsValue : Datum → Prop
  | scalar {d : Datum} (h : IsScalar d) : IsValue d
  | list {items : List Datum} (h : ∀ d ∈ items, IsScalar d) : IsValue (.list items)

/-- A name that needs no quotation marks as the name of a field. -/
def IsPlainName (name : String) : Prop :=
  name.toList ≠ [] ∧ (name.toList.all fun c => c.isAlphanum || c == '_' || c == '-') = true

instance (name : String) : Decidable (IsPlainName name) :=
  inferInstanceAs (Decidable (_ ∧ _))

/-- The fields have plain names and different ones. -/
structure Named (fs : List (String × Datum)) : Prop where
  plain : ∀ f ∈ fs, IsPlainName f.1
  distinct : (fs.map Prod.fst).Nodup

/-- The fields of a table that has values only. -/
structure IsTable (fs : List (String × Datum)) : Prop extends Named fs where
  values : ∀ f ∈ fs, IsValue f.2

/-- What the fields of a document hold. -/
inductive IsPart : Datum → Prop
  | value {d : Datum} (h : IsValue d) : IsPart d
  | table {fs : List (String × Datum)} (h : IsTable fs) : IsPart (.record fs)
  | tables {ts : List (List (String × Datum))} (h : ∀ fs ∈ ts, IsTable fs) :
      IsPart (.list (ts.map .record))

/-- The fields of a document. -/
structure IsDocument (fs : List (String × Datum)) : Prop extends Named fs where
  parts : ∀ f ∈ fs, IsPart f.2

end Datum

/-- The codec keeps documents: it can write each of them, and reads what it has written as
the same tree. -/
structure Codec.Faithful (codec : Codec) : Prop where
  writes : ∀ {fs : List (String × Datum)}, Datum.IsDocument fs →
    ∃ s, codec.print? (.record fs) = some s
  reads : ∀ {fs : List (String × Datum)} {s : String}, Datum.IsDocument fs →
    codec.print? (.record fs) = some s → ∃ d, codec.read? s = some d ∧ (Datum.record fs).Same d

end RobotMaze
