/-
Reading a map is the inverse of drawing one.

The main result is `ofRows_eq_ok_iff`: rows are read as a board exactly if, without
their blank characters and empty rows, they are the drawing of that board.  Everything
that is said elsewhere about maps that are turned, mirrored or fenced in goes through
it: instead of following the reader through a changed text, one finds the board whose
drawing the changed text is.

The reader works on one list of tiles and the drawing is a list of rows, so the two are
compared in the middle, at the tiles of a board in the order in which they are stored.
`readRows_eq_ok_iff` says which rows are read as which tiles, by induction along the
reader; the marks it carries amount to "each mark at most once" (`Admits`).
`tiles_of_ofTiles` and `ofTiles_tiles` say which tiles make which board, and
`flatten_drawing` joins the rows of a drawing to its tiles.
-/
import RobotMaze.Board.Map
import RobotMaze.Proofs.Creation

namespace RobotMaze

namespace Tile

theorem ofChar?_char (t : Tile) : ofChar? t.char = some t := by
  cases t <;> rfl

/-- A tile is known by whether it is a wall and which marks it bears. -/
theorem eq_of_marks {t u : Tile} (hwall : t.isWall = u.isWall) (hstart : t.isStart = u.isStart)
    (hgoal : t.isGoal = u.isGoal) : t = u := by
  cases t <;> cases u <;> simp_all [isWall, isStart, isGoal]

theorem ofChar?_eq_some_iff {c : Char} {t : Tile} : ofChar? c = some t ↔ t.char = c := by
  constructor
  · intro h
    unfold ofChar? at h
    split at h <;> cases h <;> rfl
  · intro h
    rw [← h]
    exact ofChar?_char t

end Tile

theorem Terrain.positionAt_injective {width i j : Nat}
    (h : positionAt width i = positionAt width j) : i = j := by
  have hx := congrArg Position.x h
  have hy := congrArg Position.y h
  simp only [positionAt, Int.natCast_inj] at hx hy
  rw [← Nat.div_add_mod i width, ← Nat.div_add_mod j width, hx, hy]

namespace Board

/-! ### The marks that the reader carries -/

/-- Among these tiles a mark stands at most once, and not at all if it was seen before. -/
def AtMostOnce (seen : Bool) (q : Tile → Bool) (ts : List Tile) : Prop :=
  seen.toNat + ts.countP q ≤ 1

theorem atMostOnce_append {seen : Bool} {q : Tile → Bool} {ts us : List Tile} :
    AtMostOnce seen q (ts ++ us) ↔
      AtMostOnce seen q ts ∧ AtMostOnce (seen || ts.any q) q us := by
  unfold AtMostOnce
  rw [List.countP_append]
  have hany : ts.any q = true ↔ 0 < ts.countP q := by
    rw [List.countP_pos_iff, List.any_eq_true]
  by_cases hq : ts.any q = true
  · have hpos := hany.mp hq
    rw [hq, Bool.or_true, Bool.toNat_true]
    omega
  · have hzero : ts.countP q = 0 := by
      rw [hany] at hq
      omega
    rw [Bool.eq_false_iff.mpr hq, Bool.or_false, hzero]
    have := seen.toNat_le
    omega

theorem atMostOnce_singleton {seen : Bool} {q : Tile → Bool} {t : Tile} :
    AtMostOnce seen q [t] ↔ ¬(q t && seen) = true := by
  cases seen <;> cases hq : q t <;> simp [AtMostOnce, hq]

/-- The marks after some more tiles. -/
def Marks.after (m : Marks) (ts : List Tile) : Marks :=
  { start := m.start || ts.any Tile.isStart, goal := m.goal || ts.any Tile.isGoal }

/-- The tiles repeat no mark. -/
def Marks.Admits (m : Marks) (ts : List Tile) : Prop :=
  AtMostOnce m.start Tile.isStart ts ∧ AtMostOnce m.goal Tile.isGoal ts

theorem Marks.after_append (m : Marks) (ts us : List Tile) :
    m.after (ts ++ us) = (m.after ts).after us := by
  simp only [after, List.any_append, Bool.or_assoc]

theorem Marks.admits_append {m : Marks} {ts us : List Tile} :
    m.Admits (ts ++ us) ↔ m.Admits ts ∧ (m.after ts).Admits us := by
  unfold Admits
  rw [atMostOnce_append, atMostOnce_append, and_and_and_comm]
  rfl

theorem Marks.admits_nil (m : Marks) : m.Admits [] :=
  ⟨m.start.toNat_le, m.goal.toNat_le⟩

theorem Marks.after_nil (m : Marks) : m.after [] = m := by
  simp [after]

theorem Marks.note_eq_ok_iff {m m' : Marks} {t : Tile} :
    m.note t = .ok m' ↔ m.Admits [t] ∧ m' = m.after [t] := by
  have hafter : m.after [t] = { start := m.start || t.isStart, goal := m.goal || t.isGoal } := by
    simp [after]
  unfold note Admits
  rw [atMostOnce_singleton, atMostOnce_singleton, hafter]
  by_cases hs : (t.isStart && m.start) = true
  · rw [if_pos hs]
    simp [hs]
  · rw [if_neg hs]
    by_cases hg : (t.isGoal && m.goal) = true
    · rw [if_pos hg]
      simp [hg]
    · rw [if_neg hg, Except.ok.injEq]
      exact ⟨fun h => ⟨⟨hs, hg⟩, h.symm⟩, fun h => h.2.symm⟩

/-! ### Which rows are read as which tiles -/

/-- What is read of a row is its first tile and what is read of the rest. -/
theorem readRow_cons_eq_ok_iff {y x : Nat} {m m' : Marks} {c : Char} {cs : List Char}
    {ts : List Tile} :
    readRow y x m (c :: cs) = .ok (ts, m') ↔
      ∃ t us m₁, Tile.ofChar? c = some t ∧ m.note t = .ok m₁ ∧
        readRow y (x + 1) m₁ cs = .ok (us, m') ∧ ts = t :: us := by
  rw [readRow]
  constructor
  · intro h
    split at h
    · cases h
    · rename_i t hc
      split at h
      · cases h
      · rename_i m₁ hn
        split at h
        · cases h
        · rename_i us m₂ hr
          cases h
          exact ⟨t, us, m₁, hc, hn, hr, rfl⟩
  · intro h
    obtain ⟨t, us, m₁, hc, hn, hr, rfl⟩ := h
    simp only [hc, hn, hr]

theorem readRow_eq_ok_iff {y : Nat} {cs : List Char} :
    ∀ {x : Nat} {m m' : Marks} {ts : List Tile},
      readRow y x m cs = .ok (ts, m') ↔
        ts.map Tile.char = cs ∧ m.Admits ts ∧ m' = m.after ts := by
  induction cs with
  | nil =>
      intro x m m' ts
      rw [readRow, Except.ok.injEq, Prod.mk.injEq, List.map_eq_nil_iff]
      constructor
      · intro h
        obtain ⟨rfl, rfl⟩ := h
        exact ⟨rfl, m.admits_nil, m.after_nil.symm⟩
      · intro h
        obtain ⟨rfl, -, rfl⟩ := h
        exact ⟨rfl, m.after_nil.symm⟩
  | cons c cs ih =>
      intro x m m' ts
      rw [readRow_cons_eq_ok_iff]
      constructor
      · intro h
        obtain ⟨t, us, m₁, hc, hn, hr, rfl⟩ := h
        obtain ⟨hone, rfl⟩ := Marks.note_eq_ok_iff.mp hn
        obtain ⟨hus, hadm, rfl⟩ := ih.mp hr
        refine ⟨?_, Marks.admits_append.mpr ⟨hone, hadm⟩, (Marks.after_append m [t] us).symm⟩
        rw [List.map_cons, Tile.ofChar?_eq_some_iff.mp hc, hus]
      · intro h
        obtain ⟨hmap, hadm, hm⟩ := h
        obtain ⟨t, us, rfl, hc, hus⟩ := List.map_eq_cons_iff.mp hmap
        obtain ⟨hone, hrest⟩ := Marks.admits_append.mp (show m.Admits ([t] ++ us) from hadm)
        exact ⟨t, us, m.after [t], Tile.ofChar?_eq_some_iff.mpr hc,
          Marks.note_eq_ok_iff.mpr ⟨hone, rfl⟩,
          ih.mpr ⟨hus, hrest, by rw [hm]; exact Marks.after_append m [t] us⟩, rfl⟩

theorem readRows_cons_eq_ok_iff {width y : Nat} {m : Marks} {row : List Char}
    {rows : List (List Char)} {ts : List Tile} :
    readRows width y m (row :: rows) = .ok ts ↔
      row.length = width ∧ ∃ us vs m₁, readRow y 0 m row = .ok (us, m₁) ∧
        readRows width (y + 1) m₁ rows = .ok vs ∧ ts = us ++ vs := by
  rw [readRows]
  constructor
  · intro h
    split at h
    · cases h
    · rename_i hw
      split at h
      · cases h
      · rename_i us m₁ hr
        split at h
        · cases h
        · rename_i vs hrs
          cases h
          exact ⟨Decidable.not_not.mp hw, us, vs, m₁, hr, hrs, rfl⟩
  · intro h
    obtain ⟨hw, us, vs, m₁, hr, hrs, rfl⟩ := h
    simp only [hw, hr, hrs, ne_eq, not_true_eq_false, if_false]

/-- Rows are read as tiles exactly if they have the width, the tiles are theirs and no
mark is repeated. -/
theorem readRows_eq_ok_iff {width : Nat} {rows : List (List Char)} :
    ∀ {y : Nat} {m : Marks} {ts : List Tile},
      readRows width y m rows = .ok ts ↔
        (∀ row ∈ rows, row.length = width) ∧ ts.map Tile.char = rows.flatten ∧ m.Admits ts := by
  induction rows with
  | nil =>
      intro y m ts
      rw [readRows, Except.ok.injEq, List.flatten_nil, List.map_eq_nil_iff]
      constructor
      · intro h
        subst h
        exact ⟨by simp, rfl, m.admits_nil⟩
      · intro h
        obtain ⟨-, rfl, -⟩ := h
        rfl
  | cons row rows ih =>
      intro y m ts
      rw [readRows_cons_eq_ok_iff, List.flatten_cons, List.forall_mem_cons]
      constructor
      · intro h
        obtain ⟨hw, us, vs, m₁, hrow, hrows, rfl⟩ := h
        obtain ⟨hus, hadm, rfl⟩ := readRow_eq_ok_iff.mp hrow
        obtain ⟨hall, hvs, hadm'⟩ := ih.mp hrows
        refine ⟨⟨hw, hall⟩, ?_, Marks.admits_append.mpr ⟨hadm, hadm'⟩⟩
        rw [List.map_append, hus, hvs]
      · intro h
        obtain ⟨⟨hw, hall⟩, hmap, hadm⟩ := h
        obtain ⟨us, vs, rfl, hus, hvs⟩ := List.map_eq_append_iff.mp hmap
        obtain ⟨hadm, hadm'⟩ := Marks.admits_append.mp hadm
        exact ⟨hw, us, vs, m.after us, readRow_eq_ok_iff.mpr ⟨hus, hadm, rfl⟩,
          ih.mpr ⟨hall, hvs, hadm'⟩, rfl⟩

/-- All tiles are read, row by row. -/
theorem length_of_readRows {width y : Nat} {m : Marks} {rows : List (List Char)} {ts : List Tile}
    (h : readRows width y m rows = .ok ts) : ts.length = width * rows.length := by
  obtain ⟨hall, hflat, -⟩ := readRows_eq_ok_iff.mp h
  rw [← List.length_map Tile.char, hflat, List.length_flatten, List.map_congr_left hall,
    List.map_const', List.sum_replicate_nat, Nat.mul_comm]

/-! ### The tiles of a board -/

theorem tile_of_contains {b : Board} {p : Position} (h : b.contains p = true) :
    b.tile p = Cell.tile { position := p, wall := b.isWall p, isGoal := p == b.goal,
                            isStart := p == b.start } := by
  unfold tile
  rw [cell?_eq_some_iff.mpr ⟨h, rfl⟩]
  rfl

theorem tile_of_not_contains {b : Board} {p : Position} (h : ¬b.contains p = true) :
    b.tile p = .wall := by
  unfold tile
  rw [Terrain.cell?_of_not_contains h]
  rfl

theorem isWall_tile (b : Board) (p : Position) : (b.tile p).isWall = b.isWall p := by
  by_cases hp : b.contains p = true
  · rw [tile_of_contains hp]
    cases b.isWall p <;> cases p == b.start <;> cases p == b.goal <;> rfl
  · rw [tile_of_not_contains hp, Terrain.isWall_of_not_contains hp]
    rfl

/-- A free square shows the marks that it bears, and a wall bears none. -/
theorem isStart_tile (b : Board) (p : Position) : (b.tile p).isStart = decide (p = b.start) := by
  by_cases hp : p = b.start
  · rw [tile_of_contains (hp ▸ Terrain.contains_of_isWall_eq_false b.start_free), hp, b.start_free,
      beq_self_eq_true, decide_eq_true rfl]
    cases b.start == b.goal <;> rfl
  · rw [decide_eq_false hp]
    by_cases hin : b.contains p = true
    · rw [tile_of_contains hin, beq_eq_false_iff_ne.mpr hp]
      cases b.isWall p <;> cases p == b.goal <;> rfl
    · rw [tile_of_not_contains hin]
      rfl

theorem isGoal_tile (b : Board) (p : Position) : (b.tile p).isGoal = decide (p = b.goal) := by
  by_cases hp : p = b.goal
  · rw [tile_of_contains (hp ▸ Terrain.contains_of_isWall_eq_false b.goal_free), hp, b.goal_free,
      beq_self_eq_true, decide_eq_true rfl]
    cases b.goal == b.start <;> rfl
  · rw [decide_eq_false hp]
    by_cases hin : b.contains p = true
    · rw [tile_of_contains hin, beq_eq_false_iff_ne.mpr hp]
      cases b.isWall p <;> cases p == b.start <;> rfl
    · rw [tile_of_not_contains hin]
      rfl

/-- Two boards of the same size that show the same tiles are the same board. -/
theorem eq_of_tile_eq {b c : Board} (hwidth : b.width = c.width) (hheight : b.height = c.height)
    (htile : ∀ p, b.contains p = true → b.tile p = c.tile p) : b = c := by
  have hwall : ∀ p, b.contains p = true → b.isWall p = c.isWall p := by
    intro p hp
    rw [← isWall_tile, ← isWall_tile, htile p hp]
  have hmark : ∀ {q : Tile → Bool} {s s' : Position}, b.isWall s = false →
      (∀ p, q (b.tile p) = decide (p = s)) → (∀ p, q (c.tile p) = decide (p = s')) → s = s' := by
    intro q s s' hfree hb hc
    have h := congrArg q (htile s (Terrain.contains_of_isWall_eq_false hfree))
    rw [hb, hc, decide_eq_true rfl] at h
    exact of_decide_eq_true h.symm
  exact eq_of_isWall hwidth hheight hwall (hmark b.start_free b.isStart_tile c.isStart_tile)
    (hmark b.goal_free b.isGoal_tile c.isGoal_tile)

/-- The tiles of a board in the order in which a map shows them. -/
def tiles (b : Board) : List Tile :=
  (List.range (b.width * b.height)).map fun i => b.tile (Terrain.positionAt b.width i)

theorem eq_of_tiles_eq {b c : Board} (hwidth : b.width = c.width) (hheight : b.height = c.height)
    (htiles : b.tiles = c.tiles) : b = c := by
  refine eq_of_tile_eq hwidth hheight ?_
  intro p hp
  have hlt : b.index p < b.width * b.height := by
    rw [← b.size_cells]
    exact Terrain.index_lt hp
  unfold tiles at htiles
  rw [← hwidth, ← hheight] at htiles
  have h := List.map_inj_left.mp htiles (b.index p) (List.mem_range.mpr hlt)
  rwa [Terrain.positionAt_index hp] at h

/-- Of all tiles of a board one is at a given position. -/
theorem countP_tiles {b : Board} {q : Tile → Bool} {s : Position} (hfree : b.isWall s = false)
    (hq : ∀ p, q (b.tile p) = decide (p = s)) : b.tiles.countP q = 1 := by
  unfold tiles
  rw [List.countP_map, Function.comp_def]
  simp only [hq]
  exact Terrain.countP_positionAt (Terrain.contains_of_isWall_eq_false hfree)

/-- The tiles of a board bear each mark once. -/
theorem admits_tiles (b : Board) : Marks.Admits { start := false, goal := false } b.tiles := by
  constructor
  · show 0 + b.tiles.countP Tile.isStart ≤ 1
    rw [Nat.zero_add]
    exact Nat.le_of_eq (countP_tiles b.start_free b.isStart_tile)
  · show 0 + b.tiles.countP Tile.isGoal ≤ 1
    rw [Nat.zero_add]
    exact Nat.le_of_eq (countP_tiles b.goal_free b.isGoal_tile)

/-! ### Which tiles make which board -/

/-- What stands at most once in a list stands at one index only. -/
theorem eq_of_countP_le_one {q : Tile → Bool} {ts : List Tile} (h : ts.countP q ≤ 1) {i j : Nat}
    (hi : i < ts.length) (hj : j < ts.length) (hqi : q ts[i] = true) (hqj : q ts[j] = true) :
    i = j := by
  have hlt : ∀ {i j : Nat} (hi : i < ts.length) (hj : j < ts.length), q ts[i] = true →
      q ts[j] = true → ¬i < j := by
    intro i j hi hj hqi hqj hij
    have hbefore : 0 < (ts.take j).countP q :=
      List.countP_pos_iff.mpr ⟨ts[i], List.mem_take_iff_getElem.mpr ⟨i, by omega, rfl⟩, hqi⟩
    have hafter : 0 < (ts.drop j).countP q :=
      List.countP_pos_iff.mpr ⟨ts[j], List.mem_drop_iff_getElem.mpr ⟨0, by omega, by simp⟩, hqj⟩
    have hsum := congrArg (List.countP q) (List.take_append_drop j ts)
    rw [List.countP_append] at hsum
    omega
  exact Nat.le_antisymm (Nat.le_of_not_lt (hlt hj hi hqj hqi))
    (Nat.le_of_not_lt (hlt hi hj hqi hqj))

/-- The walls that are read are the tiles of walls. -/
theorem contains_wallsOf {width : Nat} {ts : List Tile} {i : Nat} (hi : i < ts.length) :
    (wallsOf width ts).contains (Terrain.positionAt width i) = ts[i].isWall := by
  rw [Bool.eq_iff_iff, List.contains_iff_mem]
  simp only [wallsOf, List.mem_map, List.mem_filter, List.mem_zipIdx_iff_getElem?, Prod.exists]
  constructor
  · rintro ⟨t, j, ⟨ht, hwall⟩, hj⟩
    obtain rfl : j = i := Terrain.positionAt_injective hj
    rw [List.getElem?_eq_getElem hi, Option.some.injEq] at ht
    rwa [ht]
  · intro hwall
    exact ⟨ts[i], i, ⟨List.getElem?_eq_getElem hi, hwall⟩, rfl⟩

/-- A tile that is no wall stands on a free square. -/
theorem isFree_positionAt {width height : Nat} {ts : List Tile} (hlen : ts.length = width * height)
    {i : Nat} (hi : i < ts.length) (hfree : ts[i].isWall = false) :
    IsFree width height (wallsOf width ts) (Terrain.positionAt width i) :=
  isFree_iff.mpr
    ⟨Terrain.inside_positionAt (hlen ▸ hi), (contains_wallsOf hi).trans hfree⟩

/-- A mark stands at the index where it was found and nowhere else. -/
theorem mark_eq_decide {width : Nat} {q : Tile → Bool} {ts : List Tile} (h : ts.countP q ≤ 1)
    {s i : Nat} (hs : s < ts.length) (hi : i < ts.length) (hqs : q ts[s] = true) :
    q ts[i] = decide (Terrain.positionAt width i = Terrain.positionAt width s) := by
  by_cases hqi : q ts[i] = true
  · have his : i = s := eq_of_countP_le_one h hi hs hqi hqs
    subst his
    rw [hqi, decide_eq_true rfl]
  · have hne : Terrain.positionAt width i ≠ Terrain.positionAt width s := by
      intro hp
      have his : i = s := Terrain.positionAt_injective hp
      subst his
      exact hqi hqs
    rw [Bool.eq_false_iff.mpr hqi, decide_eq_false hne]

/-- Tiles make a board exactly if their description does. -/
theorem ofTiles_eq_ok_iff {width height : Nat} {ts : List Tile} {b : Board} :
    ofTiles width height ts = .ok b ↔
      ∃ s g, ts.findIdx? Tile.isStart = some s ∧ ts.findIdx? Tile.isGoal = some g ∧
        b.DescribedBy width height (wallsOf width ts) (Terrain.positionAt width s)
          (Terrain.positionAt width g) := by
  unfold ofTiles
  cases hs : ts.findIdx? Tile.isStart with
  | none => simp
  | some s =>
      cases hg : ts.findIdx? Tile.isGoal with
      | none => simp
      | some g => simp [create_eq_ok_iff]

/-- A board that is made of tiles shows these tiles. -/
theorem tiles_of_ofTiles {width height : Nat} {ts : List Tile} {b : Board}
    (hlen : ts.length = width * height) (hadm : Marks.Admits { start := false, goal := false } ts)
    (h : ofTiles width height ts = .ok b) :
    b.width = width ∧ b.height = height ∧ b.tiles = ts := by
  have honce : ts.countP Tile.isStart ≤ 1 ∧ ts.countP Tile.isGoal ≤ 1 := by
    simpa [Marks.Admits, AtMostOnce] using hadm
  obtain ⟨s, g, hs, hg, hb⟩ := ofTiles_eq_ok_iff.mp h
  obtain ⟨hslt, hsq, -⟩ := List.findIdx?_eq_some_iff_getElem.mp hs
  obtain ⟨hglt, hgq, -⟩ := List.findIdx?_eq_some_iff_getElem.mp hg
  refine ⟨hb.width_eq, hb.height_eq, ?_⟩
  unfold tiles
  rw [hb.width_eq, hb.height_eq]
  refine List.ext_getElem (by rw [List.length_map, List.length_range, hlen]) ?_
  intro i _ hi
  rw [List.getElem_map, List.getElem_range]
  refine Tile.eq_of_marks ?_ ?_ ?_
  · rw [isWall_tile, hb.wall _ (Terrain.inside_positionAt (hlen ▸ hi)), contains_wallsOf hi]
  · rw [isStart_tile, hb.start_eq]
    exact (mark_eq_decide honce.1 hslt hi hsq).symm
  · rw [isGoal_tile, hb.goal_eq]
    exact (mark_eq_decide honce.2 hglt hi hgq).symm

/-- What tiles describe is without fault. -/
theorem exists_create_of_findIdx? {width height : Nat} {ts : List Tile} {s g : Nat}
    (hlen : ts.length = width * height) (hs : ts.findIdx? Tile.isStart = some s)
    (hg : ts.findIdx? Tile.isGoal = some g) :
    ∃ b, create width height (wallsOf width ts) (Terrain.positionAt width s)
      (Terrain.positionAt width g) = .ok b := by
  obtain ⟨hslt, hsq, -⟩ := List.findIdx?_eq_some_iff_getElem.mp hs
  obtain ⟨hglt, hgq, -⟩ := List.findIdx?_eq_some_iff_getElem.mp hg
  have hsize : ¬(width = 0 ∨ height = 0) := by
    rintro (rfl | rfl)
    · rw [Nat.zero_mul] at hlen
      omega
    · rw [Nat.mul_zero] at hlen
      omega
  exact (exists_create_iff hsize).mpr
    ⟨isFree_positionAt hlen hslt (Tile.isWall_of_isStart hsq),
      isFree_positionAt hlen hglt (Tile.isWall_of_isGoal hgq)⟩

/-- Tiles that bear both marks make a board. -/
theorem ofTiles_isOk {width height : Nat} {ts : List Tile} (hlen : ts.length = width * height)
    (hstart : 0 < ts.countP Tile.isStart) (hgoal : 0 < ts.countP Tile.isGoal) :
    ∃ b, ofTiles width height ts = .ok b := by
  have hfound : ∀ {q : Tile → Bool}, 0 < ts.countP q → ∃ i, ts.findIdx? q = some i := by
    intro q hq
    obtain ⟨t, ht, hqt⟩ := List.countP_pos_iff.mp hq
    refine Option.ne_none_iff_exists'.mp fun hnone => ?_
    rw [List.findIdx?_eq_none_iff.mp hnone t ht] at hqt
    cases hqt
  obtain ⟨s, hs⟩ := hfound hstart
  obtain ⟨g, hg⟩ := hfound hgoal
  obtain ⟨b, hb⟩ := exists_create_of_findIdx? hlen hs hg
  exact ⟨b, ofTiles_eq_ok_iff.mpr ⟨s, g, hs, hg, create_eq_ok_iff.mp hb⟩⟩

/-- The tiles of a board make that board. -/
theorem ofTiles_tiles {b : Board} {width height : Nat} (hwidth : b.width = width)
    (hheight : b.height = height) : ofTiles width height b.tiles = .ok b := by
  have hlen : b.tiles.length = width * height := by
    unfold tiles
    rw [List.length_map, List.length_range, hwidth, hheight]
  have hstart : 0 < b.tiles.countP Tile.isStart := by
    rw [countP_tiles b.start_free b.isStart_tile]
    exact Nat.one_pos
  have hgoal : 0 < b.tiles.countP Tile.isGoal := by
    rw [countP_tiles b.goal_free b.isGoal_tile]
    exact Nat.one_pos
  obtain ⟨c, hc⟩ := ofTiles_isOk hlen hstart hgoal
  obtain ⟨hcw, hch, htiles⟩ := tiles_of_ofTiles hlen b.admits_tiles hc
  rw [hc, eq_of_tiles_eq (hcw.trans hwidth.symm) (hch.trans hheight.symm) htiles]

/-! ### Drawings -/

/-- The characters of a rectangle, row after row. -/
def grid (width height : Nat) (f : Position → Char) : List (List Char) :=
  (List.range height).map fun y : Nat => (List.range width).map fun x : Nat => f ⟨x, y⟩

theorem length_of_mem_grid {width height : Nat} {f : Position → Char} {row : List Char}
    (h : row ∈ grid width height f) : row.length = width := by
  obtain ⟨y, -, rfl⟩ := List.mem_map.mp h
  rw [List.length_map, List.length_range]

/-- The rows of a rectangle one after another are its squares in the order of storage. -/
theorem flatten_grid (width height : Nat) (f : Position → Char) :
    (grid width height f).flatten
      = (List.range (width * height)).map fun i => f (Terrain.positionAt width i) := by
  have hsquares := congrArg (List.map f) (Terrain.squares_eq width height)
  rw [List.map_map, Terrain.squares, List.map_flatMap] at hsquares
  rw [grid, ← List.flatMap_def]
  simpa [Function.comp_def] using hsquares

/-- Rows of tiles have neither blank characters nor empty rows to lose. -/
theorem significantRows_grid {width height : Nat} (hwidth : 0 < width) (f : Position → Tile) :
    significantRows ((grid width height fun p => (f p).char).map String.ofList)
      = grid width height fun p => (f p).char := by
  have hblank : ∀ t : Tile, (!Text.isBlank t.char) = true := by
    intro t
    cases t <;> rfl
  have hrow : ∀ row ∈ grid width height fun p => (f p).char,
      Text.withoutBlanks (String.ofList row).toList = row := by
    intro row hmem
    obtain ⟨y, -, rfl⟩ := List.mem_map.mp hmem
    rw [String.toList_ofList]
    unfold Text.withoutBlanks
    refine List.filter_eq_self.mpr ?_
    intro c hc
    obtain ⟨x, -, rfl⟩ := List.mem_map.mp hc
    exact hblank _
  have hne : ∀ row ∈ grid width height fun p => (f p).char, (!row.isEmpty) = true := by
    intro row hmem
    have hlen := length_of_mem_grid hmem
    cases row with
    | nil => exact absurd hlen (Nat.ne_of_lt hwidth)
    | cons c cs => rfl
  unfold significantRows
  rw [List.map_map, Function.comp_def, List.map_congr_left hrow, List.map_id']
  exact List.filter_eq_self.mpr hne

/-- A board as rows of characters. -/
def drawing (b : Board) : List (List Char) :=
  grid b.width b.height fun p => (b.tile p).char

theorem length_drawing (b : Board) : b.drawing.length = b.height := by
  unfold drawing grid
  rw [List.length_map, List.length_range]

/-- The cells that are stored for a row are those of its squares, from west to east. -/
theorem row_eq {b : Board} {y : Nat} (hy : y < b.height) :
    b.row y = String.ofList ((List.range b.width).map fun x : Nat => (b.tile ⟨x, y⟩).char) := by
  refine congrArg String.ofList (List.ext_getElem? fun x => ?_)
  by_cases hx : x < b.width
  · have hlt : y * b.width + x < b.width * b.height := by
      have hrow : (y + 1) * b.width ≤ b.height * b.width := Nat.mul_le_mul_right _ hy
      rw [Nat.add_mul, Nat.one_mul] at hrow
      rw [Nat.mul_comm b.width]
      omega
    have hp : Terrain.positionAt b.width (y * b.width + x) = ⟨x, y⟩ := by
      unfold Terrain.positionAt
      rw [Nat.mul_comm y, Nat.mul_add_mod, Nat.mod_eq_of_lt hx,
        Nat.mul_add_div (Nat.zero_lt_of_lt hx), Nat.div_eq_of_lt hx, Nat.add_zero]
    have hcell := Terrain.getElem?_cells hlt
    have hin := Terrain.contains_positionAt hlt
    rw [hp] at hcell hin
    have hend : y * b.width + x < (y + 1) * b.width := by
      rw [Nat.add_mul, Nat.one_mul]
      omega
    have hstored : (b.cells.extract (y * b.width) ((y + 1) * b.width)).toList[x]?
        = b.cell? ⟨x, y⟩ := by
      rw [Array.getElem?_toList, Array.getElem?_extract, hcell, if_pos]
      rw [b.size_cells]
      omega
    have htile : (b.cell? ⟨x, y⟩).map Cell.tile = some (b.tile ⟨x, y⟩) := by
      obtain ⟨c, hc⟩ := Option.isSome_iff_exists.mp (Terrain.isSome_cell?.mpr hin)
      unfold tile
      rw [hc]
      rfl
    rw [List.getElem?_map, hstored, List.getElem?_map, List.getElem?_range hx, Option.map_some,
      ← Option.map_some, ← htile, Option.map_map]
    rfl
  · have hlen : (b.cells.extract (y * b.width) ((y + 1) * b.width)).toList.length ≤ x := by
      rw [Array.length_toList, Array.size_extract, Nat.add_mul, Nat.one_mul]
      omega
    rw [List.getElem?_map, List.getElem?_eq_none hlen, List.getElem?_map,
      List.getElem?_eq_none (by rw [List.length_range]; omega)]
    rfl

theorem rows_eq_drawing (b : Board) : b.rows = b.drawing.map String.ofList := by
  unfold rows drawing grid
  rw [List.map_map]
  exact List.map_congr_left fun y hy => row_eq (List.mem_range.mp hy)

theorem flatten_drawing (b : Board) : b.drawing.flatten = b.tiles.map Tile.char := by
  unfold drawing tiles
  rw [flatten_grid, List.map_map]
  rfl

/-- Rows of the right number and length that hold the tiles of a board draw it. -/
theorem eq_drawing_of_flatten_eq {b : Board} {m : List (List Char)} (hheight : m.length = b.height)
    (hwidth : ∀ row ∈ m, row.length = b.width) (hflat : m.flatten = b.tiles.map Tile.char) :
    m = b.drawing := by
  refine List.eq_iff_flatten_eq.mpr ⟨by rw [hflat, flatten_drawing], ?_⟩
  have hlengths : b.drawing.map List.length = b.drawing.map fun _ => b.width :=
    List.map_congr_left fun _ => length_of_mem_grid
  rw [List.map_congr_left hwidth, hlengths, List.map_const', List.map_const', hheight,
    length_drawing]

/-- **Rows are read as a board exactly if they are its drawing,** blank characters and
empty rows apart. -/
theorem ofRows_eq_ok_iff {rows : List String} {b : Board} :
    ofRows rows = .ok b ↔ significantRows rows = b.drawing := by
  unfold ofRows
  constructor
  · intro h
    split at h
    · cases h
    · rename_i first rest hrows
      split at h
      · cases h
      · rename_i ts hread
        obtain ⟨hall, hflat, hadm⟩ := readRows_eq_ok_iff.mp hread
        obtain ⟨hwidth, hheight, htiles⟩ := tiles_of_ofTiles (length_of_readRows hread) hadm h
        rw [hrows]
        refine eq_drawing_of_flatten_eq hheight.symm ?_ (by rw [htiles, hflat])
        rw [hwidth]
        exact hall
  · intro h
    have hall : ∀ row ∈ significantRows rows, row.length = b.width := by
      rw [h]
      exact fun row => length_of_mem_grid
    have hheight : b.height = (significantRows rows).length := by
      rw [h, length_drawing]
    have hflat : b.tiles.map Tile.char = (significantRows rows).flatten := by
      rw [h, flatten_drawing]
    split
    · rename_i hnone
      rw [hnone] at hheight
      exact absurd hheight (Nat.ne_of_gt b.size_pos.2)
    · rename_i first rest hrows
      rw [hrows] at hall hheight hflat
      have hwidth : first.length = b.width := hall first List.mem_cons_self
      have hread : readRows first.length 0 { start := false, goal := false } (first :: rest)
          = .ok b.tiles :=
        readRows_eq_ok_iff.mpr ⟨by rw [hwidth]; exact hall, hflat, b.admits_tiles⟩
      split
      · rename_i e he
        rw [hread] at he
        cases he
      · rename_i ts hts
        rw [hread, Except.ok.injEq] at hts
        subst hts
        exact ofTiles_tiles hwidth.symm hheight

/-- A board is read from its own rows. -/
theorem ofRows_rows (b : Board) : ofRows b.rows = .ok b := by
  refine ofRows_eq_ok_iff.mpr ?_
  rw [rows_eq_drawing]
  exact significantRows_grid b.size_pos.1 _

end Board

end RobotMaze
