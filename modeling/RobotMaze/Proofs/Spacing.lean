/-
How a map is spaced does not matter, and drawing a board undoes the spacing.

Blank characters in the rows of a map and rows that hold nothing else are not read.
`tidied` takes them out of a map, and the rows of the board that was read are the tidied
rows.  So two maps that differ only in their spacing are the same map.  What it means to
differ only in spacing is said without the reader: one comes from the other by putting in
and taking out blanks and blank rows, one at a time (`Respaced`).

Rows can be written to a text and read from it again line by line because no tile is a
line break (`rows_eq_lines`).
-/
import Mathlib.Logic.Relation
import RobotMaze.Proofs.Drawing
import RobotMaze.Proofs.Run

namespace RobotMaze

namespace Text

/-! ### Lines -/

/-- The lines of a text.  A line break may have a carriage return before it, which then
belongs to it; what follows the last line break is one more line unless it is empty. -/
def lines (s : String) : List String :=
  let pieces := s.toList.splitOn '\n'
  let ended := pieces.dropLast.map fun l => if l.getLast? = some '\r' then l.dropLast else l
  let rest := pieces.getLast?.toList.filter fun l => !l.isEmpty
  (ended ++ rest).map String.ofList

theorem toList_join_empty (parts : List String) :
    (join "" parts).toList = parts.flatMap String.toList := by
  unfold join
  induction parts with
  | nil => rfl
  | cons s parts ih =>
      cases parts with
      | nil => rw [String.intercalate_singleton, List.flatMap_singleton]
      | cons t parts =>
          rw [String.intercalate_cons_cons, String.toList_append, ih, String.append_empty,
            List.flatMap_cons (x := s)]

/-- Pieces that each end at a line break are split at these. -/
theorem splitOn_flatMap_concat {ls : List (List Char)} (hls : ∀ l ∈ ls, '\n' ∉ l) :
    (ls.flatMap (· ++ ['\n'])).splitOn '\n' = ls ++ [[]] := by
  induction ls with
  | nil => exact List.splitOn_nil '\n'
  | cons l ls ih =>
      obtain ⟨hl, hrest⟩ := List.forall_mem_cons.mp hls
      rw [List.flatMap_cons, List.append_assoc, List.singleton_append,
        List.splitOn_append_cons_self_of_not_mem hl, ih hrest]
      rfl

/-- Lines that are written one after another are found again. -/
theorem lines_join {ls : List String}
    (hls : ∀ l ∈ ls, '\n' ∉ l.toList ∧ '\r' ∉ l.toList) :
    lines (join "" (ls.map fun l => l ++ "\n")) = ls := by
  have hbreak : "\n".toList = ['\n'] := rfl
  have htext : (join "" (ls.map fun l => l ++ "\n")).toList
      = (ls.map String.toList).flatMap (· ++ ['\n']) := by
    rw [toList_join_empty, List.flatMap_map, List.flatMap_map]
    simp only [String.toList_append, hbreak]
  have hsplit : ∀ l ∈ ls.map String.toList, '\n' ∉ l := by
    intro l hl
    obtain ⟨s, hs, rfl⟩ := List.mem_map.mp hl
    exact (hls s hs).1
  have hline : ∀ l ∈ ls,
      (String.ofList (if l.toList.getLast? = some '\r' then l.toList.dropLast else l.toList))
        = l := by
    intro l hl
    have hend : l.toList.getLast? ≠ some '\r' :=
      fun h => (hls l hl).2 (List.mem_of_getLast? h)
    rw [if_neg hend, String.ofList_toList]
  unfold lines
  simp only [htext, splitOn_flatMap_concat hsplit, List.dropLast_concat, List.getLast?_concat]
  show ((List.map _ (ls.map String.toList)) ++ []).map String.ofList = ls
  rw [List.append_nil, List.map_map, List.map_map]
  exact (List.map_congr_left hline).trans (List.map_id' ls)

end Text

namespace Board

/-- The characters in the rows of a board are tiles. -/
theorem exists_tile_of_mem_rows {b : Board} {row : String} (hrow : row ∈ b.rows) {c : Char}
    (hc : c ∈ row.toList) : ∃ t : Tile, t.char = c := by
  obtain ⟨y, -, rfl⟩ := List.mem_map.mp hrow
  unfold Board.row at hc
  rw [String.toList_ofList] at hc
  obtain ⟨x, -, hx⟩ := List.mem_map.mp hc
  exact ⟨_, hx⟩

/-- The rows of a board are the lines of its text. -/
theorem rows_eq_lines (b : Board) : b.rows = Text.lines b.text := by
  have htile : ∀ t : Tile, t.char ≠ '\n' ∧ t.char ≠ '\r' := by
    intro t
    cases t <;> decide
  refine (Text.lines_join ?_).symm
  intro row hrow
  constructor
  · intro hc
    obtain ⟨t, ht⟩ := exists_tile_of_mem_rows hrow hc
    exact (htile t).1 ht
  · intro hc
    obtain ⟨t, ht⟩ := exists_tile_of_mem_rows hrow hc
    exact (htile t).2 ht

/-! ### Tidied rows -/

/-- The rows of a map without their white space, and without those that are then empty. -/
def tidied (rows : List String) : List String :=
  (rows.map fun row => String.ofList (row.toList.filter fun c => c.toNat ∉ Text.whiteSpace)).filter
    fun row => row ≠ ""

theorem tidied_eq (rows : List String) :
    tidied rows = (significantRows rows).map String.ofList := by
  have hempty : ∀ cs : List Char, decide (String.ofList cs ≠ "") = !cs.isEmpty := by
    intro cs
    cases cs with
    | nil => rfl
    | cons c cs => simp
  have hblank : ∀ c : Char, decide (c.toNat ∉ Text.whiteSpace) = !Text.isBlank c := by
    intro c
    rw [Bool.eq_iff_iff, decide_eq_true_iff, Bool.not_eq_true', ← Bool.not_eq_true,
      Text.isBlank_iff]
  unfold tidied significantRows Text.withoutBlanks
  simp only [hblank]
  rw [List.filter_map, List.filter_map, List.map_map]
  simp only [Function.comp_def, hempty]

/-- The board that was read from a map shows the tidied rows. -/
theorem rows_of_ofRows {rows : List String} {b : Board} (h : ofRows rows = .ok b) :
    b.rows = tidied rows := by
  rw [rows_eq_drawing, tidied_eq, ofRows_eq_ok_iff.mp h]

/-! ### Spacing -/

/-- One character of white space more in a row, or one row more that is nothing else. -/
inductive Respaced : List String → List String → Prop
  | char (above below : List String) (before behind : List Char) {c : Char}
      (hc : c.toNat ∈ Text.whiteSpace) :
      Respaced (above ++ String.ofList (before ++ behind) :: below)
        (above ++ String.ofList (before ++ c :: behind) :: below)
  | row (above below : List String) {row : String}
      (hrow : ∀ c ∈ row.toList, c.toNat ∈ Text.whiteSpace) :
      Respaced (above ++ below) (above ++ row :: below)

theorem significantRows_append (above below : List String) :
    significantRows (above ++ below) = significantRows above ++ significantRows below := by
  unfold significantRows
  rw [List.map_append, List.filter_append]

/-- Of one row only its characters that are not blank count. -/
theorem significantRows_cons_congr {row row' : String} (rows : List String)
    (h : Text.withoutBlanks row.toList = Text.withoutBlanks row'.toList) :
    significantRows (row :: rows) = significantRows (row' :: rows) := by
  unfold significantRows
  rw [List.map_cons, List.map_cons, h]

theorem significantRows_cons_of_blank {row : String}
    (hrow : ∀ c ∈ row.toList, c.toNat ∈ Text.whiteSpace) (rows : List String) :
    significantRows (row :: rows) = significantRows rows := by
  have hnone : Text.withoutBlanks row.toList = [] := by
    refine List.filter_eq_nil_iff.mpr ?_
    intro c hc
    rw [Text.isBlank_iff.mpr (hrow c hc)]
    exact Bool.false_ne_true
  unfold significantRows
  rw [List.map_cons, hnone]
  rfl

/-- One more blank leaves the rows that count as they are. -/
theorem Respaced.significantRows_eq {rows rows' : List String} (h : Respaced rows rows') :
    significantRows rows' = significantRows rows := by
  cases h with
  | char above below before behind hc =>
      rw [significantRows_append, significantRows_append]
      refine congrArg (significantRows above ++ ·) (significantRows_cons_congr below ?_)
      unfold Text.withoutBlanks
      rw [String.toList_ofList, String.toList_ofList, List.filter_append, List.filter_append,
        List.filter_cons_of_neg (by rw [Text.isBlank_iff.mpr hc]; exact Bool.false_ne_true)]
  | row above below hrow =>
      rw [significantRows_append, significantRows_append, significantRows_cons_of_blank hrow]

/-- Only the rows that count are read. -/
theorem ofRows_congr {rows rows' : List String} (h : significantRows rows' = significantRows rows) :
    ofRows rows' = ofRows rows := by
  unfold ofRows
  rw [h]

/-- Any number of blanks put in and taken out leave the rows that count as they are. -/
theorem significantRows_eq_of_eqvGen {rows rows' : List String}
    (h : Relation.EqvGen Respaced rows rows') : significantRows rows' = significantRows rows := by
  induction h with
  | rel _ _ hone => exact hone.significantRows_eq
  | refl _ => rfl
  | symm _ _ _ ih => exact ih.symm
  | trans _ _ _ _ _ ih₁ ih₂ => exact ih₂.trans ih₁

/--
**Maps are read and drawn without loss.**  The board of a map shows the tidied map, every
board is read back from its own rows, which are the lines of its text, and a map is read
the same however its rows are spaced.
-/
theorem notation_round_trip :
    (∀ rows b, ofRows rows = .ok b → b.rows = tidied rows) ∧
    (∀ b : Board, b.rows = Text.lines b.text ∧ ofRows b.rows = .ok b) ∧
    (∀ rows rows', Relation.EqvGen Respaced rows rows' → ofRows rows' = ofRows rows) := by
  refine ⟨?_, ?_, ?_⟩
  · intro rows b h
    exact rows_of_ofRows h
  · intro b
    exact ⟨b.rows_eq_lines, ofRows_rows b⟩
  · intro rows rows' h
    exact ofRows_congr (significantRows_eq_of_eqvGen h)

theorem notation_round_trip_nook :
    ofRows [" S.\t#", "", "..G"] = .ok Level.nook.board ∧
      Level.nook.board.rows = ["S.#", "..G"] ∧
      Relation.EqvGen Respaced ["S.#", "..G"] ["S.#", " ", ". .G"] ∧
      ofRows ["S.#", " ", ". .G"] = .ok Level.nook.board := by
  have hread : ofRows [" S.\t#", "", "..G"] = .ok Level.nook.board := rfl
  have hrow : Respaced ["S.#", "..G"] ["S.#", " ", "..G"] :=
    .row ["S.#"] ["..G"] (by simp [Text.whiteSpace])
  have hchar : Respaced ["S.#", " ", "..G"] ["S.#", " ", ". .G"] :=
    .char ["S.#", " "] [] ['.'] ['.', 'G'] (c := ' ') (by decide)
  have hboth : Relation.EqvGen Respaced ["S.#", "..G"] ["S.#", " ", ". .G"] :=
    .trans _ _ _ (.rel _ _ hrow) (.rel _ _ hchar)
  exact ⟨hread, notation_round_trip.1 _ _ hread, hboth, notation_round_trip.2.2 _ _ hboth⟩

end Board

end RobotMaze
