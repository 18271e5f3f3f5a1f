/-
Which rows are a map, and what is wrong with those that are not.

`IsMap` is the grammar of maps: rows of one length, made of five characters, with one
start and one goal.  `FirstFault` says which fault of other rows is reported.  It looks
at one place of the drawing and at all that stands before it in reading order, so it
knows nothing of a reader that carries marks along; that the reader stops at this place
and with this report is `ofRows_eq_error_iff`.

The lemmas on the reader have one shape: it fails on a text exactly if the text has a
first part that it reads and a place behind it that it refuses.  They are proved along
the reader, first for one row and then for all rows.

A map that is read can also be described: by its size, its wall squares, its start and
its goal.  `create` accepts this description and gives the same board, which is part of
`Depicts`; so of the faults that a description can have a map has none.
-/
import Mathlib.Logic.Basic
import RobotMaze.Proofs.Creation
import RobotMaze.Proofs.Drawing
import RobotMaze.Proofs.Run

namespace RobotMaze

namespace Board

/-! ### The grammar -/

def tileChars : List Char := ['.', '#', 'S', 'G', '*']

def startChars : List Char := ['S', '*']

def goalChars : List Char := ['G', '*']

/-- How long rows have to be: as long as the first. -/
def rowLength (drawn : List (List Char)) : Nat :=
  (drawn.headD []).length

/-- The rows of a map, without blank characters and empty rows. -/
structure IsMap (drawn : List (List Char)) : Prop where
  ne_nil : drawn ≠ []
  even : ∀ row ∈ drawn, row.length = rowLength drawn
  tiles : ∀ c ∈ drawn.flatten, c ∈ tileChars
  start : drawn.flatten.countP startChars.contains = 1
  goal : drawn.flatten.countP goalChars.contains = 1

/-- Some whole rows, and the characters of a further row up to some place, give no cause
for complaint. -/
structure Faultless (width : Nat) (above : List (List Char)) (before : List Char) : Prop where
  even : ∀ row ∈ above, row.length = width
  tiles : ∀ c ∈ above.flatten ++ before, c ∈ tileChars
  starts : (above.flatten ++ before).countP startChars.contains ≤ 1
  goals : (above.flatten ++ before).countP goalChars.contains ≤ 1

/-- What can be wrong with a character, given those before it. -/
inductive TileFault (before : List Char) (c : Char) (square : Position) : BoardError → Prop
  | unknown (hc : c ∉ tileChars) : TileFault before c square (.unknownTile c square)
  | secondStart (hc : c ∈ startChars) (hseen : ∃ d ∈ before, d ∈ startChars) :
      TileFault before c square .multipleStarts
  | secondGoal (hstart : ¬(c ∈ startChars ∧ ∃ d ∈ before, d ∈ startChars))
      (hc : c ∈ goalChars) (hseen : ∃ d ∈ before, d ∈ goalChars) :
      TileFault before c square .multipleGoals

/-- The fault that comes first in reading order, where the length of a row comes before its
characters. -/
inductive ScanFault (drawn : List (List Char)) : BoardError → Prop
  | ragged {above below : List (List Char)} {row : List Char}
      (hrows : drawn = above ++ row :: below) (hbefore : Faultless (rowLength drawn) above [])
      (hrow : row.length ≠ rowLength drawn) :
      ScanFault drawn (.ragged above.length (rowLength drawn) row.length)
  | tile {above below : List (List Char)} {before behind : List Char} {c : Char} {e : BoardError}
      (hrows : drawn = above ++ (before ++ c :: behind) :: below)
      (hbefore : Faultless (rowLength drawn) above before)
      (hrow : (before ++ c :: behind).length = rowLength drawn)
      (hfault : TileFault (above.flatten ++ before) c ⟨before.length, above.length⟩ e) :
      ScanFault drawn e

/-- The fault that is reported: that a start or a goal is missing shows only when all rows
are without fault. -/
inductive FirstFault (drawn : List (List Char)) : BoardError → Prop
  | empty (hrows : drawn = []) : FirstFault drawn .empty
  | scan {e : BoardError} (hscan : ScanFault drawn e) : FirstFault drawn e
  | missingStart (hrows : drawn ≠ []) (hall : Faultless (rowLength drawn) drawn [])
      (hnone : ∀ c ∈ drawn.flatten, c ∉ startChars) : FirstFault drawn .missingStart
  | missingGoal (hall : Faultless (rowLength drawn) drawn [])
      (hstart : ∃ c ∈ drawn.flatten, c ∈ startChars)
      (hnone : ∀ c ∈ drawn.flatten, c ∉ goalChars) : FirstFault drawn .missingGoal

/-! ### Characters and tiles -/

theorem isStart_eq_contains (t : Tile) : t.isStart = startChars.contains t.char := by
  cases t <;> rfl

theorem isGoal_eq_contains (t : Tile) : t.isGoal = goalChars.contains t.char := by
  cases t <;> rfl

theorem isWall_eq_beq (t : Tile) : t.isWall = (t.char == '#') := by
  cases t <;> rfl

theorem mem_tileChars_iff {c : Char} : c ∈ tileChars ↔ ∃ t : Tile, t.char = c := by
  constructor
  · intro hc
    have hcases : c = '.' ∨ c = '#' ∨ c = 'S' ∨ c = 'G' ∨ c = '*' := by
      simpa [tileChars] using hc
    rcases hcases with rfl | rfl | rfl | rfl | rfl
    · exact ⟨.free, rfl⟩
    · exact ⟨.wall, rfl⟩
    · exact ⟨.start, rfl⟩
    · exact ⟨.goal, rfl⟩
    · exact ⟨.startAndGoal, rfl⟩
  · intro h
    obtain ⟨t, rfl⟩ := h
    cases t <;> decide

theorem ofChar?_eq_none_iff {c : Char} : Tile.ofChar? c = none ↔ c ∉ tileChars := by
  rw [mem_tileChars_iff, not_exists, Option.eq_none_iff_forall_ne_some]
  exact forall_congr' fun t => not_congr Tile.ofChar?_eq_some_iff

theorem startChars_subset : startChars ⊆ tileChars := by decide

theorem goalChars_subset : goalChars ⊆ tileChars := by decide

/-- Characters of maps are those of tiles. -/
theorem exists_tiles {cs : List Char} (h : ∀ c ∈ cs, c ∈ tileChars) :
    ∃ ts : List Tile, ts.map Tile.char = cs := by
  induction cs with
  | nil => exact ⟨[], rfl⟩
  | cons c cs ih =>
      obtain ⟨hc, hrest⟩ := List.forall_mem_cons.mp h
      obtain ⟨ts, hts⟩ := ih hrest
      obtain ⟨t, ht⟩ := mem_tileChars_iff.mp hc
      exact ⟨t :: ts, by rw [List.map_cons, hts, ht]⟩

theorem countP_isStart (ts : List Tile) :
    ts.countP Tile.isStart = (ts.map Tile.char).countP startChars.contains := by
  rw [List.countP_map]
  exact List.countP_congr fun t _ => by rw [isStart_eq_contains]; rfl

theorem countP_isGoal (ts : List Tile) :
    ts.countP Tile.isGoal = (ts.map Tile.char).countP goalChars.contains := by
  rw [List.countP_map]
  exact List.countP_congr fun t _ => by rw [isGoal_eq_contains]; rfl

/-- The reader has met no fault so far exactly if it has read tiles that repeat no mark. -/
theorem faultless_iff {width : Nat} {above : List (List Char)} {before : List Char} :
    Faultless width above before ↔
      (∀ row ∈ above, row.length = width) ∧ ∃ ts : List Tile,
        ts.map Tile.char = above.flatten ++ before ∧
          Marks.Admits { start := false, goal := false } ts := by
  have hadmits : ∀ ts : List Tile, Marks.Admits { start := false, goal := false } ts ↔
      ts.countP Tile.isStart ≤ 1 ∧ ts.countP Tile.isGoal ≤ 1 := by
    intro ts
    simp [Marks.Admits, AtMostOnce]
  constructor
  · intro h
    obtain ⟨ts, hts⟩ := exists_tiles h.tiles
    refine ⟨h.even, ts, hts, (hadmits ts).mpr ?_⟩
    rw [countP_isStart, countP_isGoal, hts]
    exact ⟨h.starts, h.goals⟩
  · intro h
    obtain ⟨heven, ts, hts, hadm⟩ := h
    rw [hadmits, countP_isStart, countP_isGoal, hts] at hadm
    refine ⟨heven, ?_, hadm.1, hadm.2⟩
    intro c hc
    rw [← hts] at hc
    obtain ⟨t, -, rfl⟩ := List.mem_map.mp hc
    exact mem_tileChars_iff.mpr ⟨t, rfl⟩

/-! ### Where the reader stops -/

/-- The reader refuses a character at a square. -/
def Marks.Refuses (m : Marks) (c : Char) (square : Position) (e : BoardError) : Prop :=
  Tile.ofChar? c = none ∧ e = .unknownTile c square ∨
    ∃ t, Tile.ofChar? c = some t ∧ m.note t = .error e

/-- A row is refused at its first character or behind it. -/
theorem readRow_cons_eq_error_iff {y x : Nat} {m : Marks} {c : Char} {cs : List Char}
    {e : BoardError} :
    readRow y x m (c :: cs) = .error e ↔
      m.Refuses c ⟨x, y⟩ e ∨ ∃ t m₁, Tile.ofChar? c = some t ∧ m.note t = .ok m₁ ∧
        readRow y (x + 1) m₁ cs = .error e := by
  unfold Marks.Refuses
  rw [readRow]
  cases hc : Tile.ofChar? c with
  | none => simp [eq_comm]
  | some t =>
      cases hn : m.note t with
      | error e' => simp [hn]
      | ok m₁ =>
          cases hr : readRow y (x + 1) m₁ cs with
          | error e' => simp [hn, hr]
          | ok p => simp [hn, hr]

/-- **A row is refused at the first character that the tiles before it leave no room for.** -/
theorem readRow_eq_error_iff {y : Nat} {e : BoardError} {cs : List Char} :
    ∀ {x : Nat} {m : Marks},
      readRow y x m cs = .error e ↔
        ∃ (ts : List Tile) (c : Char) (behind : List Char), cs = ts.map Tile.char ++ c :: behind ∧
          m.Admits ts ∧ (m.after ts).Refuses c ⟨(x + ts.length : Nat), y⟩ e := by
  induction cs with
  | nil =>
      intro x m
      simp [readRow]
  | cons c cs ih =>
      intro x m
      rw [readRow_cons_eq_error_iff]
      constructor
      · intro h
        rcases h with hhere | ⟨t, m₁, hc, hn, hlater⟩
        · exact ⟨[], c, cs, rfl, m.admits_nil, by rwa [m.after_nil]⟩
        · obtain ⟨hone, rfl⟩ := Marks.note_eq_ok_iff.mp hn
          obtain ⟨ts, d, behind, rfl, hadm, hrefused⟩ := ih.mp hlater
          refine ⟨t :: ts, d, behind, ?_, Marks.admits_append.mpr ⟨hone, hadm⟩, ?_⟩
          · rw [List.map_cons, List.cons_append, Tile.ofChar?_eq_some_iff.mp hc]
          · rw [show m.after (t :: ts) = (m.after [t]).after ts from Marks.after_append m [t] ts,
              List.length_cons, Nat.add_comm ts.length 1, ← Nat.add_assoc]
            exact hrefused
      · intro h
        obtain ⟨ts, d, behind, hcs, hadm, hrefused⟩ := h
        cases ts with
        | nil =>
            obtain ⟨rfl, rfl⟩ := List.cons.inj hcs
            rw [m.after_nil] at hrefused
            exact Or.inl hrefused
        | cons t ts =>
            obtain ⟨rfl, rfl⟩ := List.cons.inj hcs
            obtain ⟨hone, hrest⟩ := Marks.admits_append.mp (show m.Admits ([t] ++ ts) from hadm)
            refine Or.inr ⟨t, m.after [t], Tile.ofChar?_char t,
              Marks.note_eq_ok_iff.mpr ⟨hone, rfl⟩, ih.mpr ⟨ts, d, behind, rfl, hrest, ?_⟩⟩
            rw [← Marks.after_append, Nat.add_assoc, Nat.add_comm 1]
            exact hrefused

/-- The reader refuses a row. -/
def Marks.RefusesRow (m : Marks) (width y : Nat) (row : List Char) (e : BoardError) : Prop :=
  row.length ≠ width ∧ e = .ragged y width row.length ∨
    row.length = width ∧ readRow y 0 m row = .error e

theorem readRows_cons_eq_error_iff {width y : Nat} {m : Marks} {row : List Char}
    {rows : List (List Char)} {e : BoardError} :
    readRows width y m (row :: rows) = .error e ↔
      m.RefusesRow width y row e ∨ row.length = width ∧ ∃ p, readRow y 0 m row = .ok p ∧
        readRows width (y + 1) p.2 rows = .error e := by
  unfold Marks.RefusesRow
  rw [readRows]
  by_cases hw : row.length = width
  · cases hr : readRow y 0 m row with
    | error e' => simp [hw]
    | ok p =>
        cases hrs : readRows width (y + 1) p.2 rows with
        | error e' => simp [hw, hrs]
        | ok us => simp [hw, hrs]
  · simp [hw, eq_comm]

/-- **Rows are refused at the first row that the rows before it leave no room for.** -/
theorem readRows_eq_error_iff {width : Nat} {e : BoardError} {rows : List (List Char)} :
    ∀ {y : Nat} {m : Marks},
      readRows width y m rows = .error e ↔
        ∃ (above : List (List Char)) (row : List Char) (below : List (List Char)) (ts : List Tile),
          rows = above ++ row :: below ∧ (∀ r ∈ above, r.length = width) ∧
            ts.map Tile.char = above.flatten ∧ m.Admits ts ∧
              (m.after ts).RefusesRow width (y + above.length) row e := by
  induction rows with
  | nil =>
      intro y m
      simp [readRows]
  | cons row rows ih =>
      intro y m
      rw [readRows_cons_eq_error_iff]
      constructor
      · intro h
        rcases h with hhere | ⟨hw, ⟨ts, m₁⟩, hr, hlater⟩
        · exact ⟨[], row, rows, [], rfl, by simp, rfl, m.admits_nil, by rwa [m.after_nil]⟩
        · obtain ⟨hmap, hadm, rfl⟩ := readRow_eq_ok_iff.mp hr
          obtain ⟨above, bad, below, us, rfl, heven, hus, hadm', hrefused⟩ := ih.mp hlater
          refine ⟨row :: above, bad, below, ts ++ us, rfl, List.forall_mem_cons.mpr ⟨hw, heven⟩,
            ?_, Marks.admits_append.mpr ⟨hadm, hadm'⟩, ?_⟩
          · rw [List.map_append, hmap, hus, List.flatten_cons]
          · rw [Marks.after_append, List.length_cons, Nat.add_comm above.length 1, ← Nat.add_assoc]
            exact hrefused
      · intro h
        obtain ⟨above, bad, below, ts, hrows, heven, hts, hadm, hrefused⟩ := h
        cases above with
        | nil =>
            obtain ⟨rfl, rfl⟩ := List.cons.inj hrows
            obtain rfl : ts = [] := List.map_eq_nil_iff.mp hts
            rw [m.after_nil] at hrefused
            exact Or.inl hrefused
        | cons first above =>
            obtain ⟨rfl, rfl⟩ := List.cons.inj hrows
            obtain ⟨hw, heven⟩ := List.forall_mem_cons.mp heven
            rw [List.flatten_cons] at hts
            obtain ⟨us, vs, rfl, hus, hvs⟩ := List.map_eq_append_iff.mp hts
            obtain ⟨hadm₁, hadm₂⟩ := Marks.admits_append.mp hadm
            refine Or.inr ⟨hw, (us, m.after us), readRow_eq_ok_iff.mpr ⟨hus, hadm₁, rfl⟩,
              ih.mpr ⟨above, bad, below, vs, rfl, heven, hvs, hadm₂, ?_⟩⟩
            rw [← Marks.after_append, Nat.add_assoc, Nat.add_comm 1]
            exact hrefused

/-! ### What is reported -/

/-- A tile repeats the start exactly if its character and an earlier one are starts. -/
theorem repeatsStart_iff {ts : List Tile} {t : Tile} :
    (t.isStart && (Marks.after { start := false, goal := false } ts).start) = true ↔
      t.char ∈ startChars ∧ ∃ d ∈ ts.map Tile.char, d ∈ startChars := by
  simp only [Marks.after, Bool.false_or, Bool.and_eq_true, isStart_eq_contains, List.any_eq_true,
    List.contains_iff_mem, List.mem_map, exists_exists_and_eq_and]

theorem repeatsGoal_iff {ts : List Tile} {t : Tile} :
    (t.isGoal && (Marks.after { start := false, goal := false } ts).goal) = true ↔
      t.char ∈ goalChars ∧ ∃ d ∈ ts.map Tile.char, d ∈ goalChars := by
  simp only [Marks.after, Bool.false_or, Bool.and_eq_true, isGoal_eq_contains, List.any_eq_true,
    List.contains_iff_mem, List.mem_map, exists_exists_and_eq_and]

/-- A mark that is repeated is a fault, and a second start is noticed first. -/
theorem note_eq_error_iff {m : Marks} {t : Tile} {e : BoardError} :
    m.note t = .error e ↔
      (t.isStart && m.start) = true ∧ e = .multipleStarts ∨
        ¬(t.isStart && m.start) = true ∧ (t.isGoal && m.goal) = true ∧ e = .multipleGoals := by
  unfold Marks.note
  generalize (t.isStart && m.start) = start
  generalize (t.isGoal && m.goal) = goal
  cases start <;> cases goal <;> simp [eq_comm]

/-- What the reader refuses is a fault of the character, given the characters before it. -/
theorem refuses_iff {ts : List Tile} {c : Char} {square : Position} {e : BoardError} :
    (Marks.after { start := false, goal := false } ts).Refuses c square e ↔
      TileFault (ts.map Tile.char) c square e := by
  unfold Marks.Refuses
  simp only [note_eq_error_iff, repeatsStart_iff, repeatsGoal_iff, Tile.ofChar?_eq_some_iff,
    ofChar?_eq_none_iff]
  constructor
  · intro h
    rcases h with ⟨hnone, rfl⟩ | ⟨t, rfl, ⟨⟨hc, hseen⟩, rfl⟩ | ⟨hfirst, ⟨hc, hseen⟩, rfl⟩⟩
    · exact .unknown hnone
    · exact .secondStart hc hseen
    · exact .secondGoal hfirst hc hseen
  · intro h
    cases h with
    | unknown hc => exact Or.inl ⟨hc, rfl⟩
    | secondStart hc hseen =>
        obtain ⟨t, rfl⟩ := mem_tileChars_iff.mp (startChars_subset hc)
        exact Or.inr ⟨t, rfl, Or.inl ⟨⟨hc, hseen⟩, rfl⟩⟩
    | secondGoal hfirst hc hseen =>
        obtain ⟨t, rfl⟩ := mem_tileChars_iff.mp (goalChars_subset hc)
        exact Or.inr ⟨t, rfl, Or.inr ⟨hfirst, ⟨hc, hseen⟩, rfl⟩⟩

/-- **The reader stops at the first fault of the rows.** -/
theorem readRows_eq_error_iff_scanFault {drawn : List (List Char)} {e : BoardError} :
    readRows (rowLength drawn) 0 { start := false, goal := false } drawn = .error e ↔
      ScanFault drawn e := by
  rw [readRows_eq_error_iff]
  constructor
  · intro h
    obtain ⟨above, row, below, ts, hrows, heven, hts, hadm, hrefused⟩ := h
    rw [Nat.zero_add] at hrefused
    rcases hrefused with ⟨hne, rfl⟩ | ⟨hw, hread⟩
    · refine .ragged hrows (faultless_iff.mpr ⟨heven, ts, ?_, hadm⟩) hne
      rw [hts, List.append_nil]
    · obtain ⟨us, c, behind, rfl, hadm', hrefused⟩ := readRow_eq_error_iff.mp hread
      have hmap : (ts ++ us).map Tile.char = above.flatten ++ us.map Tile.char := by
        rw [List.map_append, hts]
      rw [← Marks.after_append, refuses_iff, hmap, Nat.zero_add, ← List.length_map Tile.char]
        at hrefused
      exact .tile hrows
        (faultless_iff.mpr ⟨heven, ts ++ us, hmap, Marks.admits_append.mpr ⟨hadm, hadm'⟩⟩)
        hw hrefused
  · intro h
    cases h with
    | ragged hrows hbefore hrow =>
        obtain ⟨heven, ts, hts, hadm⟩ := faultless_iff.mp hbefore
        rw [List.append_nil] at hts
        refine ⟨_, _, _, ts, hrows, heven, hts, hadm, Or.inl ⟨hrow, ?_⟩⟩
        rw [Nat.zero_add]
    | tile hrows hbefore hrow hfault =>
        obtain ⟨heven, ts, hts, hadm⟩ := faultless_iff.mp hbefore
        obtain ⟨us, vs, rfl, hus, rfl⟩ := List.map_eq_append_iff.mp hts
        obtain ⟨hadm₁, hadm₂⟩ := Marks.admits_append.mp hadm
        refine ⟨_, _, _, us, hrows, heven, hus, hadm₁, Or.inr ⟨hrow, ?_⟩⟩
        refine readRow_eq_error_iff.mpr ⟨vs, _, _, rfl, hadm₂, ?_⟩
        rw [← Marks.after_append, refuses_iff, List.map_append, hus, Nat.zero_add, Nat.zero_add]
        rw [List.length_map] at hfault
        exact hfault

/-- Rows without a fault are read to the end. -/
theorem readRows_isOk_iff {drawn : List (List Char)} :
    (∃ ts, readRows (rowLength drawn) 0 { start := false, goal := false } drawn = .ok ts) ↔
      Faultless (rowLength drawn) drawn [] := by
  simp only [readRows_eq_ok_iff, faultless_iff, List.append_nil, exists_and_left]

/-- Tiles without a mark make no board. -/
theorem ofTiles_eq_error_iff {width height : Nat} {ts : List Tile}
    (hlen : ts.length = width * height) {e : BoardError} :
    ofTiles width height ts = .error e ↔
      (∀ c ∈ ts.map Tile.char, c ∉ startChars) ∧ e = .missingStart ∨
        (∃ c ∈ ts.map Tile.char, c ∈ startChars) ∧ (∀ c ∈ ts.map Tile.char, c ∉ goalChars) ∧
          e = .missingGoal := by
  have hnone : ∀ {q : Tile → Bool} {cs : List Char}, (∀ t, q t = cs.contains t.char) →
      (ts.findIdx? q = none ↔ ∀ c ∈ ts.map Tile.char, c ∉ cs) := by
    intro q cs hq
    simp [List.findIdx?_eq_none_iff, hq]
  have hstart := hnone isStart_eq_contains
  have hgoal := hnone isGoal_eq_contains
  have hsome : (∃ c ∈ ts.map Tile.char, c ∈ startChars) ↔ ¬ts.findIdx? Tile.isStart = none := by
    rw [hstart]
    simp only [not_forall, Decidable.not_not, exists_prop]
  rw [hsome, ← hstart, ← hgoal]
  unfold ofTiles
  cases hs : ts.findIdx? Tile.isStart with
  | none =>
      simp only [Except.error.injEq, true_and, not_true_eq_false, false_and, or_false]
      exact eq_comm
  | some s =>
      cases hg : ts.findIdx? Tile.isGoal with
      | none =>
          simp only [Except.error.injEq, reduceCtorEq, not_false_eq_true, true_and, false_and,
            false_or]
          exact eq_comm
      | some g =>
          obtain ⟨b, hb⟩ := exists_create_of_findIdx? hlen hs hg
          simp only [hb, reduceCtorEq, false_and, and_false, or_false]

/-- **The error is the first fault.** -/
theorem ofRows_eq_error_iff {rows : List String} {e : BoardError} :
    ofRows rows = .error e ↔ FirstFault (significantRows rows) e := by
  unfold ofRows
  split
  · rename_i hnone
    rw [hnone]
    constructor
    · intro h
      cases h
      exact .empty rfl
    · intro h
      cases h with
      | empty hrows => rfl
      | scan hscan => cases readRows_eq_error_iff_scanFault.mpr hscan
      | missingStart hrows hall hno => exact absurd rfl hrows
      | missingGoal hall hstart hno => simp at hstart
  · rename_i first rest hrows
    rw [hrows]
    split
    · rename_i e' hread
      have hnotAll : ¬Faultless (rowLength (first :: rest)) (first :: rest) [] := by
        rw [← readRows_isOk_iff]
        rintro ⟨ts, hts⟩
        cases hread.symm.trans hts
      constructor
      · intro h
        cases h
        exact .scan (readRows_eq_error_iff_scanFault.mp hread)
      · intro h
        cases h with
        | empty hnil => cases hnil
        | scan hscan =>
            cases hread.symm.trans (readRows_eq_error_iff_scanFault.mpr hscan)
            rfl
        | missingStart hne hall hno => exact absurd hall hnotAll
        | missingGoal hall hstart hno => exact absurd hall hnotAll
    · rename_i ts hread
      have hall : Faultless (rowLength (first :: rest)) (first :: rest) [] :=
        readRows_isOk_iff.mp ⟨ts, hread⟩
      obtain ⟨-, hflat, -⟩ := readRows_eq_ok_iff.mp hread
      rw [ofTiles_eq_error_iff (length_of_readRows hread), hflat]
      constructor
      · intro h
        rcases h with ⟨hno, rfl⟩ | ⟨hstart, hno, rfl⟩
        · exact .missingStart (List.cons_ne_nil _ _) hall hno
        · exact .missingGoal hall hstart hno
      · intro h
        cases h with
        | empty hnil => cases hnil
        | scan hscan => cases hread.symm.trans (readRows_eq_error_iff_scanFault.mpr hscan)
        | missingStart hne hall hno => exact Or.inl ⟨hno, rfl⟩
        | missingGoal hall hstart hno => exact Or.inr ⟨hstart, hno, rfl⟩

/-! ### What an accepted map shows -/

/-- The character that rows show in a column of a row. -/
def charAt? (drawn : List (List Char)) (x y : Nat) : Option Char :=
  drawn[y]?.bind fun row => row[x]?

/-- The squares that rows show as walls. -/
def wallSquares (drawn : List (List Char)) : List Position :=
  drawn.zipIdx.flatMap fun r => (r.1.zipIdx.filter fun c => c.1 == '#').map fun c => ⟨c.2, r.2⟩

/-- The board is the one that the rows show. -/
structure Depicts (b : Board) (drawn : List (List Char)) : Prop where
  width : b.width = rowLength drawn
  height : b.height = drawn.length
  wall : ∀ x y : Nat, ∀ c, charAt? drawn x y = some c → (b.isWall ⟨x, y⟩ = true ↔ c = '#')
  start : ∀ x y : Nat, ∀ c, charAt? drawn x y = some c → (b.start = ⟨x, y⟩ ↔ c ∈ startChars)
  goal : ∀ x y : Nat, ∀ c, charAt? drawn x y = some c → (b.goal = ⟨x, y⟩ ↔ c ∈ goalChars)
  /-- What the rows show is a description without fault. -/
  created : create (rowLength drawn) drawn.length (wallSquares drawn) b.start b.goal = .ok b

theorem mem_wallSquares_iff {drawn : List (List Char)} {p : Position} :
    p ∈ wallSquares drawn ↔ ∃ x y : Nat, p = ⟨x, y⟩ ∧ charAt? drawn x y = some '#' := by
  simp only [wallSquares, charAt?, List.mem_flatMap, List.mem_map, List.mem_filter,
    List.mem_zipIdx_iff_getElem?, Option.bind_eq_some_iff, beq_iff_eq, Prod.exists]
  constructor
  · rintro ⟨row, y, hrow, c, x, ⟨hc, rfl⟩, rfl⟩
    exact ⟨x, y, rfl, row, hrow, hc⟩
  · rintro ⟨x, y, rfl, row, hrow, hc⟩
    exact ⟨row, y, hrow, '#', x, ⟨hc, rfl⟩, rfl⟩

/-- A drawing shows every square of the board by its tile. -/
theorem charAt?_drawing {b : Board} {x y : Nat} {c : Char} :
    charAt? b.drawing x y = some c ↔ x < b.width ∧ y < b.height ∧ (b.tile ⟨x, y⟩).char = c := by
  have hrange : ∀ {n i a : Nat}, (List.range n)[i]? = some a ↔ i < n ∧ i = a := by
    intro n i a
    rw [List.getElem?_eq_some_iff]
    simp only [List.length_range, List.getElem_range, exists_prop]
  unfold charAt? drawing grid
  rw [List.getElem?_map, Option.bind_map, Option.bind_eq_some_iff]
  simp only [Function.comp_apply, List.getElem?_map, Option.map_eq_some_iff, hrange]
  constructor
  · rintro ⟨_, ⟨hy, rfl⟩, _, ⟨hx, rfl⟩, hc⟩
    exact ⟨hx, hy, hc⟩
  · rintro ⟨hx, hy, hc⟩
    exact ⟨y, ⟨hy, rfl⟩, x, ⟨hx, rfl⟩, hc⟩

theorem rowLength_drawing (b : Board) : rowLength b.drawing = b.width := by
  obtain ⟨-, hheight⟩ := b.size_pos
  have hrows : ∀ row ∈ b.drawing, row.length = b.width := fun _ => length_of_mem_grid
  have hlen := b.length_drawing
  unfold rowLength
  cases hd : b.drawing with
  | nil =>
      rw [hd] at hlen
      exact absurd hlen (Nat.ne_of_lt hheight)
  | cons row rows => exact hrows row (hd ▸ List.mem_cons_self)

/-- The drawing of a board keeps to the grammar. -/
theorem isMap_drawing (b : Board) : IsMap b.drawing := by
  refine ⟨?_, ?_, ?_, ?_, ?_⟩
  · intro hnil
    have hlen := b.length_drawing
    rw [hnil] at hlen
    exact absurd hlen (Nat.ne_of_lt b.size_pos.2)
  · rw [rowLength_drawing]
    exact fun _ => length_of_mem_grid
  · rw [flatten_drawing]
    intro c hc
    obtain ⟨t, -, rfl⟩ := List.mem_map.mp hc
    exact mem_tileChars_iff.mpr ⟨t, rfl⟩
  · rw [flatten_drawing, ← countP_isStart]
    exact countP_tiles b.start_free b.isStart_tile
  · rw [flatten_drawing, ← countP_isGoal]
    exact countP_tiles b.goal_free b.isGoal_tile

/-- A board is depicted by its drawing. -/
theorem depicts_drawing (b : Board) : b.Depicts b.drawing := by
  have hwall : ∀ p, b.contains p = true → b.isWall p = (wallSquares b.drawing).contains p := by
    intro p hp
    obtain ⟨hx, hw, hy, hh⟩ := Terrain.contains_iff.mp hp
    rw [Bool.eq_iff_iff, List.contains_iff_mem, mem_wallSquares_iff, ← isWall_tile,
      isWall_eq_beq, beq_iff_eq]
    simp only [charAt?_drawing]
    constructor
    · intro htile
      refine ⟨p.x.toNat, p.y.toNat, ?_, ?_⟩
      · ext
        · exact (Int.toNat_of_nonneg hx).symm
        · exact (Int.toNat_of_nonneg hy).symm
      · rw [Int.toNat_of_nonneg hx, Int.toNat_of_nonneg hy]
        exact ⟨by omega, by omega, htile⟩
    · rintro ⟨x, y, rfl, -, -, htile⟩
      exact htile
  refine ⟨b.rowLength_drawing.symm, b.length_drawing.symm, ?_, ?_, ?_, ?_⟩
  · intro x y c hc
    obtain ⟨-, -, rfl⟩ := charAt?_drawing.mp hc
    rw [← isWall_tile, isWall_eq_beq, beq_iff_eq]
  · intro x y c hc
    obtain ⟨-, -, rfl⟩ := charAt?_drawing.mp hc
    rw [← List.contains_iff_mem, ← isStart_eq_contains, isStart_tile, decide_eq_true_iff]
    exact eq_comm
  · intro x y c hc
    obtain ⟨-, -, rfl⟩ := charAt?_drawing.mp hc
    rw [← List.contains_iff_mem, ← isGoal_eq_contains, isGoal_tile, decide_eq_true_iff]
    exact eq_comm
  · rw [rowLength_drawing, length_drawing, create_eq_ok_iff]
    exact ⟨rfl, rfl, hwall, rfl, rfl⟩

/-- Rows that keep to the grammar have no fault. -/
theorem IsMap.not_firstFault {drawn : List (List Char)} (h : IsMap drawn) {e : BoardError} :
    ¬FirstFault drawn e := by
  -- A mark with an equal one before it would stand twice.
  have htwice : ∀ {above below : List (List Char)} {before behind cs : List Char} {c : Char},
      drawn = above ++ (before ++ c :: behind) :: below → c ∈ cs →
        (∃ d ∈ above.flatten ++ before, d ∈ cs) → drawn.flatten.countP cs.contains ≠ 1 := by
    intro above below before behind cs c hrows hc hseen
    obtain ⟨d, hd, hdc⟩ := hseen
    have hbefore : 0 < (above.flatten ++ before).countP cs.contains :=
      List.countP_pos_iff.mpr ⟨d, hd, List.contains_iff_mem.mpr hdc⟩
    have hflat : drawn.flatten = (above.flatten ++ before) ++ c :: (behind ++ below.flatten) := by
      rw [hrows, List.flatten_append, List.flatten_cons]
      simp only [List.append_assoc, List.cons_append]
    rw [hflat, List.countP_append, List.countP_cons_of_pos (List.contains_iff_mem.mpr hc)]
    omega
  have hsome : ∀ {cs : List Char}, drawn.flatten.countP cs.contains = 1 →
      ¬∀ c ∈ drawn.flatten, c ∉ cs := by
    intro cs hone hno
    obtain ⟨c, hc, hmem⟩ := List.countP_pos_iff.mp (show 0 < _ by rw [hone]; exact Nat.one_pos)
    exact hno c hc (List.contains_iff_mem.mp hmem)
  intro hfault
  cases hfault with
  | empty hrows => exact h.ne_nil hrows
  | missingStart hrows hall hno => exact hsome h.start hno
  | missingGoal hall hstart hno => exact hsome h.goal hno
  | scan hscan =>
      cases hscan with
      | ragged hrows hbefore hrow => exact hrow (h.even _ (by rw [hrows]; simp))
      | tile hrows hbefore hrow hfault =>
          cases hfault with
          | unknown hc => exact hc (h.tiles _ (by rw [hrows]; simp))
          | secondStart hc hseen => exact htwice hrows hc hseen h.start
          | secondGoal hfirst hc hseen => exact htwice hrows hc hseen h.goal

/--
**A map is read exactly if it keeps to the grammar, and otherwise its first fault is
reported.**  The board that is read is the one that the rows show; described by its size,
walls, start and goal it has none of the faults of a description.
-/
theorem ofRows_keeps_to_grammar (rows : List String) :
    ((∃ b, ofRows rows = .ok b) ↔ IsMap (significantRows rows)) ∧
      (∀ b, ofRows rows = .ok b → b.Depicts (significantRows rows)) ∧
        ∀ e, ofRows rows = .error e ↔ FirstFault (significantRows rows) e := by
  refine ⟨⟨?_, ?_⟩, ?_, fun e => ofRows_eq_error_iff⟩
  · intro h
    obtain ⟨b, hb⟩ := h
    rw [ofRows_eq_ok_iff.mp hb]
    exact b.isMap_drawing
  · intro h
    cases hread : ofRows rows with
    | ok b => exact ⟨b, rfl⟩
    | error e => exact absurd (ofRows_eq_error_iff.mp hread) h.not_firstFault
  · intro b hb
    rw [ofRows_eq_ok_iff.mp hb]
    exact b.depicts_drawing

/-- A map with blanks in it, and rows with three faults of which the second start comes first. -/
theorem ofRows_keeps_to_grammar_nook :
    ofRows [" S.\t#", "", "..G"] = .ok Level.nook.board ∧
      IsMap [['S', '.', '#'], ['.', '.', 'G']] ∧
      Level.nook.board.Depicts [['S', '.', '#'], ['.', '.', 'G']] ∧
      ofRows ["S. G", "\t", ".S?", "GG"] = .error .multipleStarts ∧
      FirstFault [['S', '.', 'G'], ['.', 'S', '?'], ['G', 'G']] .multipleStarts := by
  have hread : ofRows [" S.\t#", "", "..G"] = .ok Level.nook.board := rfl
  have hfail : ofRows ["S. G", "\t", ".S?", "GG"] = .error .multipleStarts := rfl
  obtain ⟨hmap, hdepicts, -⟩ := ofRows_keeps_to_grammar [" S.\t#", "", "..G"]
  exact ⟨hread, hmap.mp ⟨_, hread⟩, hdepicts _ hread, hfail,
    ((ofRows_keeps_to_grammar ["S. G", "\t", ".S?", "GG"]).2.2 _).mp hfail⟩

end Board

end RobotMaze
