/-
Boards that are made from a description.

A description gives the size, a list of wall squares, the start and the goal.  A board is
the one of a description if it has its size, its marks and, inside, the listed walls
(`DescribedBy`); then it is the only one, and it is what `create` makes
(`create_eq_ok_iff`).  `create_eq_error_iff` says which error all other descriptions give.
Of a list of walls only the squares inside count (`create_congr`).

What a board shows of its description is read off its cells.  They are stored row by row,
and `Follows` says of the storage that every square inside has a place of its own there,
that there is no other place, and what the writes of `create` have left in it.
-/
import RobotMaze.Board

namespace RobotMaze

/-- The position lies inside a rectangle of this size. -/
def Position.Within (p : Position) (width height : Nat) : Prop :=
  0 ≤ p.x ∧ p.x < width ∧ 0 ≤ p.y ∧ p.y < height

theorem Terrain.inside_iff {width height : Nat} {p : Position} :
    inside width height p = true ↔ p.Within width height :=
  decide_eq_true_iff

namespace Board

variable {width height : Nat} {walls : List Position}

/-! ### Descriptions that make a board -/

/-- The board is the one of this description. -/
structure DescribedBy (b : Board) (width height : Nat) (walls : List Position)
    (start goal : Position) : Prop where
  width_eq : b.width = width
  height_eq : b.height = height
  wall : ∀ p, Terrain.inside width height p = true → b.isWall p = walls.contains p
  start_eq : b.start = start
  goal_eq : b.goal = goal

theorem DescribedBy.contains_iff {b : Board} {start goal p : Position}
    (h : b.DescribedBy width height walls start goal) :
    b.contains p = true ↔ Terrain.inside width height p = true := by
  unfold Terrain.contains
  rw [h.width_eq, h.height_eq]

/-- A description is one of a single board. -/
theorem DescribedBy.unique {b c : Board} {start goal : Position}
    (hb : b.DescribedBy width height walls start goal)
    (hc : c.DescribedBy width height walls start goal) : b = c := by
  refine eq_of_isWall (hb.width_eq.trans hc.width_eq.symm) (hb.height_eq.trans hc.height_eq.symm) ?_
    (hb.start_eq.trans hc.start_eq.symm) (hb.goal_eq.trans hc.goal_eq.symm)
  intro p hp
  have hin := hb.contains_iff.mp hp
  rw [hb.wall p hin, hc.wall p hin]

/-- The free squares of a board are free in its description. -/
theorem DescribedBy.free {b : Board} {start goal p : Position}
    (h : b.DescribedBy width height walls start goal) (hp : b.isWall p = false) :
    Terrain.inside width height p = true ∧ walls.contains p = false := by
  have hin := h.contains_iff.mp (Terrain.contains_of_isWall_eq_false hp)
  exact ⟨hin, (h.wall p hin).symm.trans hp⟩

/-- A mark that is found on a free square is the one that was asked for. -/
theorem locate_eq_ok_iff {t : Thunk Terrain} {which : Endpoint} {p : Position}
    {q : { q : Position // Terrain.inside width height q = true ∧ t.get.isWall q = false }} :
    locate width height t which p = .ok q ↔ q.1 = p := by
  obtain ⟨q, hin, hfree⟩ := q
  unfold locate
  constructor
  · intro h
    split at h
    · split at h
      · cases h
        rfl
      · cases h
    · cases h
  · intro h
    cases h
    rw [dif_pos hin, dif_pos hfree]

/-- **A description makes the board that it describes,** and none if there is no such board. -/
theorem create_eq_ok_iff {start goal : Position} {b : Board} :
    create width height walls start goal = .ok b ↔
      b.DescribedBy width height walls start goal := by
  have hmade : ∀ {c : Board}, create width height walls start goal = .ok c →
      c.DescribedBy width height walls start goal := by
    intro c h
    unfold create at h
    split at h
    · cases h
    · simp only at h
      split at h
      · cases h
      · rename_i s hs
        split at h
        · cases h
        · rename_i g hg
          cases h
          exact {
            width_eq := Terrain.width_ofWalls
            height_eq := Terrain.height_ofWalls
            wall := fun p hp => isWall_marked.trans (Terrain.isWall_ofWalls hp)
            start_eq := locate_eq_ok_iff.mp hs
            goal_eq := locate_eq_ok_iff.mp hg }
  constructor
  · exact hmade
  · intro h
    have hfree : ∀ p, b.isWall p = false → Terrain.inside width height p = true ∧
        (Terrain.ofWalls width height walls).isWall p = false := by
      intro p hp
      obtain ⟨hin, hoff⟩ := h.free hp
      exact ⟨hin, (Terrain.isWall_ofWalls hin).trans hoff⟩
    have hs := hfree start (h.start_eq ▸ b.start_free)
    have hg := hfree goal (h.goal_eq ▸ b.goal_free)
    have hsize : ¬(width = 0 ∨ height = 0) := by
      have hin := hs.1
      simp only [Terrain.inside, decide_eq_true_eq] at hin
      omega
    have hlocate : ∀ which p (hp : Terrain.inside width height p = true ∧
        (Terrain.ofWalls width height walls).isWall p = false),
        locate width height (Thunk.mk fun _ => Terrain.ofWalls width height walls) which p
          = .ok ⟨p, hp⟩ :=
      fun which p hp => locate_eq_ok_iff.mpr rfl
    have hcreate : ∃ c, create width height walls start goal = .ok c := by
      unfold create
      rw [if_neg hsize]
      simp only [hlocate .start start hs, hlocate .goal goal hg]
      exact ⟨_, rfl⟩
    obtain ⟨c, hc⟩ := hcreate
    rw [hc, (hmade hc).unique h]

/-- The board of a size that has walls where a test says so. -/
def ofTest (width height : Nat) (test : Position → Bool) (start goal : Position)
    (hstart : Terrain.inside width height start = true ∧ test start = false)
    (hgoal : Terrain.inside width height goal = true ∧ test goal = false) : Board where
  toTerrain := Terrain.ofCells width height
    (fun p => { position := p, wall := test p, isGoal := p == goal, isStart := p == start })
    fun _ => rfl
  start := start
  goal := goal
  start_free := (Terrain.isWall_of_cell? (Terrain.cell?_ofCells hstart.1)).trans hstart.2
  goal_free := (Terrain.isWall_of_cell? (Terrain.cell?_ofCells hgoal.1)).trans hgoal.2
  isStart_cell := by
    intro p c h
    rw [Terrain.eq_of_cell?_ofCells h]
  isGoal_cell := by
    intro p c h
    rw [Terrain.eq_of_cell?_ofCells h]

/-- If the test holds everywhere outside, it says of every position what the board says. -/
theorem isWall_ofTest {test : Position → Bool} {start goal : Position}
    {hstart : Terrain.inside width height start = true ∧ test start = false}
    {hgoal : Terrain.inside width height goal = true ∧ test goal = false}
    (hout : ∀ p, test p = false → Terrain.inside width height p = true) (p : Position) :
    (ofTest width height test start goal hstart hgoal).isWall p = test p := by
  by_cases hp : (ofTest width height test start goal hstart hgoal).contains p = true
  · obtain ⟨c, hc⟩ := Option.isSome_iff_exists.mp (Terrain.isSome_cell?.mpr hp)
    have hcell :
        c = { position := p, wall := test p, isGoal := p == goal, isStart := p == start } :=
      Terrain.eq_of_cell?_ofCells (show (Terrain.ofCells _ _ _ fun _ => rfl).cell? p = _ from hc)
    rw [Terrain.isWall_of_cell? hc, hcell]
  · rw [Terrain.isWall_of_not_contains hp]
    cases htest : test p with
    | true => rfl
    | false => exact absurd (hout p htest) hp

/-! ### Descriptions that are refused -/

/-- A mark may stand on the square. -/
def IsFree (width height : Nat) (walls : List Position) (p : Position) : Prop :=
  p.Within width height ∧ p ∉ walls

/-- Why a mark may not stand on a square. -/
inductive Misplaced (width height : Nat) (walls : List Position) (which : Endpoint)
    (p : Position) : BoardError → Prop
  | outside (hout : ¬p.Within width height) :
      Misplaced width height walls which p (.outOfBounds which p width height)
  | onWall (hin : p.Within width height) (hwall : p ∈ walls) :
      Misplaced width height walls which p (.onWall which p)

theorem isFree_iff {p : Position} :
    IsFree width height walls p ↔
      Terrain.inside width height p = true ∧ walls.contains p = false := by
  unfold IsFree
  rw [Terrain.inside_iff, ← Bool.not_eq_true, List.contains_iff_mem]

theorem Misplaced.not_isFree {which : Endpoint} {p : Position} {e : BoardError}
    (h : Misplaced width height walls which p e) : ¬IsFree width height walls p := by
  intro hfree
  cases h with
  | outside hout => exact hout hfree.1
  | onWall hin hwall => exact hfree.2 hwall

theorem locate_eq_error_iff {which : Endpoint} {p : Position} {e : BoardError} :
    locate width height (Thunk.mk fun _ => Terrain.ofWalls width height walls) which p = .error e ↔
      Misplaced width height walls which p e := by
  unfold locate
  by_cases hp : Terrain.inside width height p = true
  · rw [dif_pos hp]
    have hin : p.Within width height := Terrain.inside_iff.mp hp
    have hget : (Thunk.mk fun _ => Terrain.ofWalls width height walls).get.isWall p
        = walls.contains p := Terrain.isWall_ofWalls hp
    by_cases hw : walls.contains p = false
    · rw [dif_pos (hget.trans hw)]
      constructor
      · intro h
        cases h
      · intro h
        exact absurd (isFree_iff.mpr ⟨hp, hw⟩) h.not_isFree
    · rw [dif_neg (hget ▸ hw), Except.error.injEq]
      have hwall : p ∈ walls := by simpa using hw
      constructor
      · intro h
        rw [← h]
        exact .onWall hin hwall
      · intro h
        cases h with
        | outside hout => exact absurd hin hout
        | onWall => rfl
  · rw [dif_neg hp, Except.error.injEq]
    have hout : ¬p.Within width height := fun hin => hp (Terrain.inside_iff.mpr hin)
    constructor
    · intro h
      rw [← h]
      exact .outside hout
    · intro h
      cases h with
      | outside => rfl
      | onWall hin hwall => exact absurd hin hout

/-- A mark that is found is found on a free square. -/
theorem isFree_of_locate {which : Endpoint} {p : Position} {q : { _q : Position // _ }}
    (h : locate width height (Thunk.mk fun _ => Terrain.ofWalls width height walls) which p
      = .ok q) : IsFree width height walls p := by
  have hq := locate_eq_ok_iff.mp h
  obtain ⟨q, hin, hfree⟩ := q
  obtain rfl : q = p := hq
  exact isFree_iff.mpr ⟨hin, (Terrain.isWall_ofWalls hin).symm.trans hfree⟩

/-- **The start is examined before the goal,** and of each of them first where it lies. -/
theorem create_eq_error_iff (hsize : ¬(width = 0 ∨ height = 0)) {start goal : Position}
    {e : BoardError} :
    create width height walls start goal = .error e ↔
      Misplaced width height walls .start start e ∨
        IsFree width height walls start ∧ Misplaced width height walls .goal goal e := by
  unfold create
  rw [if_neg hsize, ← locate_eq_error_iff, ← locate_eq_error_iff]
  simp only
  split
  · next e' hs =>
      have hno := (locate_eq_error_iff.mp hs).not_isFree
      simp [hs, hno]
  · next s hs =>
      have hfree := isFree_of_locate hs
      split
      · next e' hg => simp [hs, hg, hfree]
      · next g hg => simp [hs, hg]

/-- A description of some size is refused for nothing but a misplaced mark. -/
theorem exists_create_iff (hsize : ¬(width = 0 ∨ height = 0)) {start goal : Position} :
    (∃ b, create width height walls start goal = .ok b) ↔
      IsFree width height walls start ∧ IsFree width height walls goal := by
  constructor
  · intro h
    obtain ⟨b, hb⟩ := h
    have hb := create_eq_ok_iff.mp hb
    exact ⟨isFree_iff.mpr (hb.free (hb.start_eq ▸ b.start_free)),
      isFree_iff.mpr (hb.free (hb.goal_eq ▸ b.goal_free))⟩
  · intro h
    cases hcreate : create width height walls start goal with
    | ok b => exact ⟨b, rfl⟩
    | error e =>
        rcases (create_eq_error_iff hsize).mp hcreate with hs | ⟨-, hg⟩
        · exact absurd h.1 hs.not_isFree
        · exact absurd h.2 hg.not_isFree

/-- In a description that makes a board the start can be put on any other free square. -/
theorem exists_create_of_isWall {start goal p : Position} {b : Board}
    (h : create width height walls start goal = .ok b) (hfree : b.isWall p = false) :
    ∃ b', create width height walls p goal = .ok b' ∧ (∀ q, b'.isWall q = b.isWall q) ∧
      b'.start = p ∧ b'.goal = b.goal := by
  have hb := create_eq_ok_iff.mp h
  have hpos := b.size_pos
  rw [hb.width_eq, hb.height_eq] at hpos
  have hsize : ¬(width = 0 ∨ height = 0) := by omega
  obtain ⟨b', hb'⟩ := (exists_create_iff hsize).mpr
    ⟨isFree_iff.mpr (hb.free hfree), ((exists_create_iff hsize).mp ⟨b, h⟩).2⟩
  have hmade := create_eq_ok_iff.mp hb'
  refine ⟨b', hb', fun q => ?_, hmade.start_eq, hmade.goal_eq.trans hb.goal_eq.symm⟩
  by_cases hq : Terrain.inside width height q = true
  · rw [hmade.wall q hq, hb.wall q hq]
  · rw [Terrain.isWall_of_not_contains (mt hmade.contains_iff.mp hq),
      Terrain.isWall_of_not_contains (mt hb.contains_iff.mp hq)]

/-- Of the listed walls those inside the rectangle count, and neither their order nor how
often they are listed. -/
theorem create_congr {walls' : List Position} {start goal : Position}
    (h : ∀ p, p.Within width height → (p ∈ walls' ↔ p ∈ walls)) :
    create width height walls' start goal = create width height walls start goal := by
  have hfree : ∀ p, IsFree width height walls' p ↔ IsFree width height walls p := by
    intro p
    unfold IsFree
    constructor
    · exact fun hp => ⟨hp.1, fun hw => hp.2 ((h p hp.1).mpr hw)⟩
    · exact fun hp => ⟨hp.1, fun hw => hp.2 ((h p hp.1).mp hw)⟩
  have hmisplaced : ∀ which p e, Misplaced width height walls which p e →
      Misplaced width height walls' which p e := by
    intro which p e hp
    cases hp with
    | outside hout => exact .outside hout
    | onWall hin hwall => exact .onWall hin ((h p hin).mpr hwall)
  by_cases hsize : width = 0 ∨ height = 0
  · unfold create
    rw [if_pos hsize, if_pos hsize]
  · cases hcreate : create width height walls start goal with
    | ok b =>
        rw [create_eq_ok_iff] at hcreate ⊢
        refine ⟨hcreate.width_eq, hcreate.height_eq, fun p hp => ?_, hcreate.start_eq,
          hcreate.goal_eq⟩
        rw [hcreate.wall p hp, Bool.eq_iff_iff, List.contains_iff_mem, List.contains_iff_mem]
        exact (h p (Terrain.inside_iff.mp hp)).symm
    | error e =>
        rw [create_eq_error_iff hsize] at hcreate ⊢
        rcases hcreate with hs | ⟨hs, hg⟩
        · exact Or.inl (hmisplaced _ _ _ hs)
        · exact Or.inr ⟨(hfree start).mpr hs, hmisplaced _ _ _ hg⟩

/-! ### What a board shows of its description -/

/-- The cells of a board are those of a description. -/
structure Follows (b : Board) (width height : Nat) (walls : List Position)
    (start goal : Position) : Prop where
  width_eq : b.width = width
  height_eq : b.height = height
  start_eq : b.start = start
  goal_eq : b.goal = goal
  size_cells : b.cells.size = width * height
  /-- A square is stored behind the rows to the north of it and the squares to the west. -/
  stored : ∀ p, p.Within width height →
    b.cells[p.y.toNat * width + p.x.toNat]? = b.cell? p
  /-- Nothing else is stored. -/
  stored_only : ∀ i c, b.cells[i]? = some c →
    ∃ p, p.Within width height ∧ i = p.y.toNat * width + p.x.toNat ∧ b.cell? p = some c
  isSome_cell : ∀ p, (b.cell? p).isSome = true ↔ p.Within width height
  cell : ∀ p c, b.cell? p = some c →
    c.position = p ∧ (c.wall = true ↔ p ∈ walls) ∧ (c.isStart = true ↔ p = start) ∧
      (c.isGoal = true ↔ p = goal)
  one_start : b.cells.countP Cell.isStart = 1
  one_goal : b.cells.countP Cell.isGoal = 1

/-- Of all cells one stands on a given free square. -/
theorem countP_cells {b : Board} {q : Cell → Bool} {s : Position} (hfree : b.isWall s = false)
    (hq : ∀ p c, b.cell? p = some c → q c = (p == s)) : b.cells.countP q = 1 := by
  have hcells : b.cells.toList.map q
      = (List.range (b.width * b.height)).map fun i => Terrain.positionAt b.width i == s := by
    refine List.ext_getElem? ?_
    intro i
    by_cases hi : i < b.width * b.height
    · have hin : b.contains (Terrain.positionAt b.width i) = true :=
        Terrain.contains_positionAt hi
      have hcell := cell?_eq_some_iff.mpr ⟨hin, rfl⟩
      rw [List.getElem?_map, Array.getElem?_toList, Terrain.getElem?_cells hi, hcell]
      simp [hi, hq _ _ hcell]
    · simp [hi, b.size_cells]
  have hsame := congrArg (List.countP id) hcells
  rw [List.countP_map, List.countP_map] at hsame
  rw [← Array.countP_toList]
  exact hsame.trans (Terrain.countP_positionAt (Terrain.contains_of_isWall_eq_false hfree))

theorem follows_of_create {start goal : Position} {b : Board}
    (h : create width height walls start goal = .ok b) :
    b.Follows width height walls start goal := by
  have hmade := create_eq_ok_iff.mp h
  have hwidth := hmade.width_eq
  have hheight := hmade.height_eq
  have hin : ∀ p, b.contains p = true ↔ p.Within width height := fun p =>
    hmade.contains_iff.trans Terrain.inside_iff
  have hcell : ∀ p c, b.cell? p = some c →
      c.position = p ∧ (c.wall = true ↔ p ∈ walls) ∧ (c.isStart = true ↔ p = start) ∧
        (c.isGoal = true ↔ p = goal) := by
    intro p c hc
    obtain ⟨hp, rfl⟩ := cell?_eq_some_iff.mp hc
    have hwall := hmade.wall p (hmade.contains_iff.mp hp)
    refine ⟨rfl, ?_, ?_, ?_⟩
    · rw [hwall, List.contains_iff_mem]
    · rw [beq_iff_eq, hmade.start_eq]
    · rw [beq_iff_eq, hmade.goal_eq]
  exact {
    width_eq := hwidth
    height_eq := hheight
    start_eq := hmade.start_eq
    goal_eq := hmade.goal_eq
    size_cells := by rw [b.size_cells, hwidth, hheight]
    stored := by
      intro p hp
      have hc := (hin p).mpr hp
      have hlt := Terrain.index_lt hc
      rw [b.size_cells] at hlt
      have hget := Terrain.getElem?_cells hlt
      rw [Terrain.positionAt_index hc, Terrain.index, hwidth] at hget
      exact hget
    stored_only := by
      intro i c hc
      have hi : i < b.width * b.height := by
        rw [← b.size_cells]
        exact (Array.getElem?_eq_some_iff.mp hc).1
      refine ⟨Terrain.positionAt b.width i, (hin _).mp (Terrain.contains_positionAt hi), ?_, ?_⟩
      · rw [← hwidth]
        exact (Terrain.index_positionAt b.toTerrain i).symm
      · rw [← Terrain.getElem?_cells hi, hc]
    isSome_cell := fun p => Terrain.isSome_cell?.trans (hin p)
    cell := hcell
    one_start := countP_cells b.start_free fun p c hc => by
      rw [Bool.eq_iff_iff, (hcell p c hc).2.2.1, beq_iff_eq, hmade.start_eq]
    one_goal := countP_cells b.goal_free fun p c hc => by
      rw [Bool.eq_iff_iff, (hcell p c hc).2.2.2, beq_iff_eq, hmade.goal_eq] }

/--
**A board is exactly what its description says.**  A description of some size is refused
if its start or else its goal lies outside or on a wall, with the first of these as the
error, and otherwise it makes a board whose cells are those of the description.  The list
of walls counts only as a set of squares inside the rectangle.
-/
theorem create_follows_description (hwidth : 0 < width) (hheight : 0 < height)
    (walls : List Position) (start goal : Position) :
    (∀ e, create width height walls start goal = .error e ↔
      Misplaced width height walls .start start e ∨
        IsFree width height walls start ∧ Misplaced width height walls .goal goal e) ∧
    ((∃ b, create width height walls start goal = .ok b) ↔
      IsFree width height walls start ∧ IsFree width height walls goal) ∧
    (∀ b, create width height walls start goal = .ok b →
      b.Follows width height walls start goal) ∧
    (∀ walls', (∀ p, p.Within width height → (p ∈ walls' ↔ p ∈ walls)) →
      create width height walls' start goal = create width height walls start goal) := by
  have hsize : ¬(width = 0 ∨ height = 0) := by omega
  exact ⟨fun e => create_eq_error_iff hsize, exists_create_iff hsize,
    fun b => follows_of_create, fun walls' => create_congr⟩

/-- A description with a wall outside and one listed twice, and two with a misplaced mark. -/
theorem create_follows_description_corner :
    let walls : List Position := [⟨2, 0⟩, ⟨7, -1⟩, ⟨2, 0⟩]
    (∃ b, create 3 2 walls ⟨0, 0⟩ ⟨2, 1⟩ = .ok b ∧ b.Follows 3 2 walls ⟨0, 0⟩ ⟨2, 1⟩) ∧
      create 3 2 walls ⟨0, 0⟩ ⟨2, 1⟩ = create 3 2 [⟨2, 0⟩] ⟨0, 0⟩ ⟨2, 1⟩ ∧
      create 3 2 walls ⟨2, 0⟩ ⟨3, 0⟩ = .error (.onWall .start ⟨2, 0⟩) ∧
      create 3 2 walls ⟨0, 1⟩ ⟨3, 0⟩ = .error (.outOfBounds .goal ⟨3, 0⟩ 3 2) := by
  intro walls
  have hsame : ∀ p : Position, p.Within 3 2 → (p ∈ walls ↔ p ∈ [(⟨2, 0⟩ : Position)]) := by
    intro p hp
    simp only [walls, List.mem_cons, List.not_mem_nil, or_false, Position.ext_iff]
    unfold Position.Within at hp
    omega
  have hfree : IsFree 3 2 walls ⟨0, 0⟩ ∧ IsFree 3 2 walls ⟨2, 1⟩ ∧ IsFree 3 2 walls ⟨0, 1⟩ :=
    ⟨isFree_iff.mpr (by decide), isFree_iff.mpr (by decide), isFree_iff.mpr (by decide)⟩
  have hwall : Misplaced 3 2 walls .start ⟨2, 0⟩ (.onWall .start ⟨2, 0⟩) :=
    .onWall (Terrain.inside_iff.mp (by decide)) List.mem_cons_self
  have houtside : Misplaced 3 2 walls .goal ⟨3, 0⟩ (.outOfBounds .goal ⟨3, 0⟩ 3 2) :=
    locate_eq_error_iff.mp rfl
  have hpos : 0 < 3 ∧ 0 < 2 := by decide
  have htheorem := create_follows_description hpos.1 hpos.2
  obtain ⟨-, hok, hfollows, -⟩ := htheorem walls ⟨0, 0⟩ ⟨2, 1⟩
  obtain ⟨b, hb⟩ := hok.mpr ⟨hfree.1, hfree.2.1⟩
  exact ⟨⟨b, hb, hfollows b hb⟩, (htheorem [⟨2, 0⟩] ⟨0, 0⟩ ⟨2, 1⟩).2.2.2 walls hsame,
    ((htheorem walls ⟨2, 0⟩ ⟨3, 0⟩).1 _).mpr (Or.inl hwall),
    ((htheorem walls ⟨0, 1⟩ ⟨3, 0⟩).1 _).mpr (Or.inr ⟨hfree.2.2, houtside⟩)⟩

end Board

end RobotMaze
