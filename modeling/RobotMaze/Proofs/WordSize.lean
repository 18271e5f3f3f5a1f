/-
Words of 32 and 64 bits are enough for a run.

The library computes with integers of any size.  A machine has words: coordinates of 32
bits with a sign, and indices of 64 bits without one.  `Program.trace?` is a run on such a
machine.  It adds, multiplies and reads the walls as a run does, one operation after
another, and has no result as soon as a number does not fit its word or an index lies
beyond the walls.

What a run computes is the squares that it looks at, and `Program.looks` lists them.  Each
function of the machine succeeds exactly if these squares can be addressed, and then gives
what the library gives (`trace?_eq_some_iff`).  So it remains to bound the squares, and this
is the safety of runs: the robot stands on the board at every moment, and it looks at
neighbours of its square only.  They lie on the board or on the rim around it, so on a
board whose sides fit a coordinate nothing can overflow, and the squares at the far edges
of the largest board just fit.
-/
import RobotMaze.Proofs.Walls

namespace RobotMaze

/-! ### A machine with words -/

namespace Machine

/-- What a word of 32 bits with a sign can hold. -/
abbrev IsCoordinate (i : Int) : Prop :=
  -2147483648 ≤ i ∧ i ≤ 2147483647

/-- What a word of 64 bits without a sign can hold. -/
abbrev IsIndex (n : Nat) : Prop :=
  n ≤ 18446744073709551615

def coordinate? (i : Int) : Option Int :=
  if IsCoordinate i then some i else none

def index? (n : Nat) : Option Nat :=
  if IsIndex n then some n else none

theorem coordinate?_eq_some_iff {i j : Int} : coordinate? i = some j ↔ IsCoordinate i ∧ i = j := by
  rw [coordinate?, Option.ite_none_right_eq_some, Option.some.injEq]

theorem index?_eq_some_iff {m n : Nat} : index? m = some n ↔ IsIndex m ∧ m = n := by
  rw [index?, Option.ite_none_right_eq_some, Option.some.injEq]

end Machine

/-- The adjacent square in a compass direction. -/
def Position.step? (p : Position) (h : Heading) : Option Position := do
  let x ← Machine.coordinate? (p.x + h.delta.x)
  let y ← Machine.coordinate? (p.y + h.delta.y)
  return ⟨x, y⟩

/-- Whether a position is a wall; the walls are read on the terrain only. -/
def Terrain.isWall? (t : Terrain) (p : Position) : Option Bool :=
  if t.contains p then do
    let row ← Machine.index? (p.y.toNat * t.width)
    let i ← Machine.index? (row + p.x.toNat)
    t.cells[i]?.map Cell.wall
  else some true

/-- The adjacent square, and whether it is a wall. -/
def Pose.look? (t : Terrain) (p : Pose) (h : Heading) : Option (Position × Bool) := do
  let q ← p.position.step? h
  let wall ← t.isWall? q
  return (q, wall)

def Action.next? (t : Terrain) (p : Pose) : Action → Option Pose
  | .forward => do
    let (q, wall) ← p.look? t p.heading
    return if wall then p else p.movedTo q
  | .left => some (p.turnedTo p.heading.left)
  | .right => some (p.turnedTo p.heading.right)

def Command.next? (t : Terrain) (p : Pose) : Command → Option Pose
  | .act a => a.next? t p
  | .ifWall s a => do
    let (_, wall) ← p.look? t (p.heading.toward s)
    if wall then a.next? t p else return p

/-- The poses of a run on the machine. -/
def Program.trace? (t : Terrain) (p : Pose) : Program → Option Trace
  | [] => some [p]
  | c :: cs => do
    let q ← c.next? t p
    let later ← trace? t q cs
    return p :: later

/-! ### What is looked at -/

/-- The squares that an action looks at. -/
def Action.looks (p : Pose) : Action → List Position
  | .forward => [p.ahead]
  | .left => []
  | .right => []

/-- The squares that a command looks at, in order. -/
def Command.looks (t : Terrain) (p : Pose) : Command → List Position
  | .act a => a.looks p
  | .ifWall s a => p.sensed s :: if t.senses p s then a.looks p else []

/-- The squares that a run looks at, in order. -/
def Program.looks (t : Terrain) (p : Pose) : Program → List Position
  | [] => []
  | c :: cs => c.looks t p ++ looks t (c.apply t p) cs

/-- Whether the machine can look at a square: its coordinates fit, and if it lies on the
terrain, so does all that is computed to find its entry. -/
structure Terrain.Addresses (t : Terrain) (q : Position) : Prop where
  x : Machine.IsCoordinate q.x
  y : Machine.IsCoordinate q.y
  index : t.contains q = true →
    Machine.IsIndex (q.y.toNat * t.width) ∧ Machine.IsIndex (t.index q)

/-! ### The machine succeeds exactly on what it can address -/

section Machine

variable {t : Terrain}

theorem Position.step?_eq_some_iff {p q : Position} {h : Heading} :
    p.step? h = some q ↔
      Machine.IsCoordinate (p.step h).x ∧ Machine.IsCoordinate (p.step h).y ∧ p.step h = q := by
  unfold step?
  simp only [Option.bind_eq_bind, Option.bind_eq_some_iff, Machine.coordinate?_eq_some_iff]
  constructor
  · rintro ⟨x, ⟨hx, rfl⟩, y, ⟨hy, rfl⟩, hq⟩
    exact ⟨hx, hy, Option.some.inj hq⟩
  · rintro ⟨hx, hy, rfl⟩
    exact ⟨_, ⟨hx, rfl⟩, _, ⟨hy, rfl⟩, rfl⟩

namespace Terrain

theorem isWall?_eq_some_iff {q : Position} {wall : Bool} :
    t.isWall? q = some wall ↔
      (t.contains q = true →
        Machine.IsIndex (q.y.toNat * t.width) ∧ Machine.IsIndex (t.index q)) ∧
      t.isWall q = wall := by
  by_cases hc : t.contains q = true
  · have hentry : t.cells[t.index q]?.map Cell.wall = some (t.isWall q) := by
      obtain ⟨c, hcell⟩ := Option.isSome_iff_exists.mp (isSome_cell?.mpr hc)
      rw [isWall_of_cell? hcell, ← cell?_of_contains hc, hcell, Option.map_some]
    simp only [isWall?, hc, if_true, Option.bind_eq_bind, Option.bind_eq_some_iff,
      Machine.index?_eq_some_iff, true_imp_iff]
    constructor
    · rintro ⟨row, ⟨hrow, rfl⟩, i, ⟨hi, rfl⟩, hwall⟩
      exact ⟨⟨hrow, hi⟩, Option.some.inj (hentry.symm.trans hwall)⟩
    · rintro ⟨⟨hrow, hi⟩, rfl⟩
      exact ⟨_, ⟨hrow, rfl⟩, _, ⟨hi, rfl⟩, hentry⟩
  · simp [isWall?, isWall_of_not_contains hc, hc]

end Terrain

variable {p : Pose}

/-- The machine can look at a neighbour exactly if it can address it, and goes on with what
is there. -/
theorem Pose.bind_look?_eq_some_iff {α : Type} {h : Heading} {next : Position × Bool → Option α}
    {r : α} :
    (p.look? t h >>= next) = some r ↔
      t.Addresses (p.neighbour h) ∧ next (p.neighbour h, t.isWall (p.neighbour h)) = some r := by
  unfold look?
  simp only [Option.bind_eq_bind, Option.bind_eq_some_iff, Option.pure_def, Option.some.injEq,
    Position.step?_eq_some_iff, Terrain.isWall?_eq_some_iff]
  constructor
  · rintro ⟨-, ⟨-, ⟨hx, hy, rfl⟩, -, ⟨hindex, rfl⟩, rfl⟩, hr⟩
    exact ⟨⟨hx, hy, hindex⟩, hr⟩
  · rintro ⟨haddress, hr⟩
    exact ⟨_, ⟨_, ⟨haddress.x, haddress.y, rfl⟩, _, ⟨haddress.index, rfl⟩, rfl⟩, hr⟩

theorem Action.next?_eq_some_iff {a : Action} {q : Pose} :
    a.next? t p = some q ↔ (∀ r ∈ a.looks p, t.Addresses r) ∧ a.apply t p = q := by
  cases a with
  | forward =>
      unfold next? looks
      rw [Pose.bind_look?_eq_some_iff, List.forall_mem_singleton]
      exact and_congr_right fun _ => Option.some_inj
  | left => simp [next?, looks, apply]
  | right => simp [next?, looks, apply]

theorem Command.next?_eq_some_iff {c : Command} {q : Pose} :
    c.next? t p = some q ↔ (∀ r ∈ c.looks t p, t.Addresses r) ∧ c.apply t p = q := by
  cases c with
  | act a => exact Action.next?_eq_some_iff
  | ifWall s a =>
      unfold next? looks
      rw [Pose.bind_look?_eq_some_iff, List.forall_mem_cons, and_assoc]
      refine and_congr_right fun _ => ?_
      show (if t.senses p s then a.next? t p else some p) = some q ↔
        _ ∧ (if t.senses p s then a.apply t p else p) = q
      by_cases hsensed : t.senses p s = true
      · rw [if_pos hsensed, if_pos hsensed, if_pos hsensed]
        exact Action.next?_eq_some_iff
      · rw [if_neg hsensed, if_neg hsensed, if_neg hsensed]
        simp

theorem Program.trace?_eq_some_iff {cs : Program} : ∀ {p : Pose} {r : Trace},
    trace? t p cs = some r ↔ (∀ q ∈ looks t p cs, t.Addresses q) ∧ trace t p cs = r := by
  induction cs with
  | nil => intro p r; simp [trace?, looks, trace]
  | cons c cs ih =>
      intro p r
      simp only [trace?, looks, List.forall_mem_append, Option.bind_eq_bind,
        Option.bind_eq_some_iff, Command.next?_eq_some_iff, ih]
      constructor
      · rintro ⟨q, ⟨hnow, rfl⟩, later, ⟨hlater, rfl⟩, hr⟩
        exact ⟨⟨hnow, hlater⟩, Option.some.inj hr⟩
      · rintro ⟨⟨hnow, hlater⟩, rfl⟩
        exact ⟨_, ⟨hnow, rfl⟩, _, ⟨hlater, rfl⟩, rfl⟩

end Machine

/-! ### Everything that is looked at is near -/

/-- On a terrain or on the rim of squares around it. -/
def Terrain.WithinRim (t : Terrain) (q : Position) : Prop :=
  (-1 ≤ q.x ∧ q.x ≤ t.width) ∧ -1 ≤ q.y ∧ q.y ≤ t.height

namespace Terrain

variable {t : Terrain}

theorem withinRim_step {p : Position} (hp : t.contains p = true) (h : Heading) :
    t.WithinRim (p.step h) := by
  obtain ⟨hx, hw, hy, hh⟩ := contains_iff.1 hp
  unfold WithinRim
  cases h <;> simp only [Position.step, Heading.delta, Position.add_x, Position.add_y] <;> omega

/-- If the sides fit a coordinate, so does the rim, and their product fits an index. -/
theorem addresses_of_withinRim {q : Position} (hwidth : t.width ≤ 2147483647)
    (hheight : t.height ≤ 2147483647) (h : t.WithinRim q) : t.Addresses q := by
  obtain ⟨hx, hy⟩ := h
  refine ⟨by omega, by omega, fun hc => ?_⟩
  obtain ⟨-, hw, -, hh⟩ := contains_iff.1 hc
  have hrow : q.y.toNat * t.width ≤ 2147483647 * 2147483647 :=
    Nat.mul_le_mul (by omega) hwidth
  unfold index
  omega

end Terrain

/-! What is looked at is a neighbour of a square that the robot stands on. -/

theorem Action.exists_neighbour_of_mem_looks {p : Pose} {q : Position} {a : Action}
    (hq : q ∈ a.looks p) : ∃ h, q = p.neighbour h := by
  cases a with
  | forward => exact ⟨p.heading, List.mem_singleton.mp hq⟩
  | left => cases hq
  | right => cases hq

theorem Command.exists_neighbour_of_mem_looks {t : Terrain} {p : Pose} {q : Position}
    {c : Command} (hq : q ∈ c.looks t p) : ∃ h, q = p.neighbour h := by
  cases c with
  | act a => exact Action.exists_neighbour_of_mem_looks hq
  | ifWall s a =>
      rcases List.mem_cons.mp hq with hsensed | hbody
      · exact ⟨p.heading.toward s, hsensed⟩
      · split at hbody
        · exact Action.exists_neighbour_of_mem_looks hbody
        · cases hbody

theorem Program.exists_neighbour_of_mem_looks {t : Terrain} {q : Position} {cs : Program} :
    ∀ {p : Pose}, q ∈ looks t p cs → ∃ r ∈ trace t p cs, ∃ h, q = r.neighbour h := by
  induction cs with
  | nil => intro p hq; cases hq
  | cons c cs ih =>
      intro p hq
      rcases List.mem_append.mp hq with hnow | hlater
      · exact ⟨p, List.mem_cons_self, Command.exists_neighbour_of_mem_looks hnow⟩
      · obtain ⟨r, hr, hnext⟩ := ih hlater
        exact ⟨r, List.mem_cons_of_mem p hr, hnext⟩

namespace Level

/--
**A run never overflows.**  On a board whose sides fit a coordinate of 32 bits, all
neighbours of the squares that the robot stands on lie on the board or on the rim around it.
So do the squares that the run looks at, and where one of them lies on the board, its index
is less than the number of cells.  The machine therefore runs the program to its end, and
through the same poses.
-/
theorem run_fits_words {l : Level} (hwidth : l.board.width ≤ 2147483647)
    (hheight : l.board.height ≤ 2147483647) (cs : Program) :
    let looks := Program.looks l.board.toTerrain l.start cs
    (∀ p ∈ (l.run cs).trace, ∀ h, l.board.WithinRim (p.neighbour h)) ∧
    (∀ q ∈ looks, -1 ≤ q.x ∧ q.x ≤ l.board.width ∧ -1 ≤ q.y ∧ q.y ≤ l.board.height) ∧
    (∀ q ∈ looks, l.board.contains q = true →
      l.board.index q < l.board.width * l.board.height) ∧
    l.board.cells.size = l.board.width * l.board.height ∧
    Program.trace? l.board.toTerrain l.start cs = some (l.run cs).trace := by
  intro looks
  have hnear : ∀ p ∈ (l.run cs).trace, ∀ h, l.board.WithinRim (p.neighbour h) :=
    fun _ hp h => Terrain.withinRim_step (l.free_of_mem_trace hp).1 h
  have hlooks : ∀ q ∈ looks, l.board.WithinRim q := by
    intro q hq
    obtain ⟨p, hp, h, rfl⟩ := Program.exists_neighbour_of_mem_looks hq
    exact hnear p hp h
  refine ⟨hnear, ?_, ?_, l.board.size_cells, ?_⟩
  · intro q hq
    obtain ⟨⟨hx, hw⟩, hy, hh⟩ := hlooks q hq
    exact ⟨hx, hw, hy, hh⟩
  · intro q _ hc
    rw [← l.board.size_cells]
    exact Terrain.index_lt hc
  · exact Program.trace?_eq_some_iff.mpr
      ⟨fun q hq => Terrain.addresses_of_withinRim hwidth hheight (hlooks q hq), rfl⟩

/-- In the longest corridor that the machine can hold, the square ahead of its end is the
last one that fits. -/
theorem run_fits_words_corridor :
    let corridor : Level := {
      name := "corridor"
      board := Board.ofTest 2147483647 1 (fun _ => false) ⟨2147483646, 0⟩ ⟨2147483646, 0⟩
        (by decide) (by decide)
      facing := .east
      palette := Palette.ofKinds Kind.all
      cap := 5
      solution := none }
    let cs : Program := [.act .forward, .ifWall .left .right]
    corridor.board.width ≤ 2147483647 ∧ corridor.board.height ≤ 2147483647 ∧
      Program.looks corridor.board.toTerrain corridor.start cs
        = [⟨2147483647, 0⟩, ⟨2147483646, -1⟩] ∧
      Program.trace? corridor.board.toTerrain corridor.start cs
        = some [⟨⟨2147483646, 0⟩, .east⟩, ⟨⟨2147483646, 0⟩, .east⟩, ⟨⟨2147483646, 0⟩, .south⟩] := by
  intro corridor cs
  have hwidth : corridor.board.width ≤ 2147483647 := Nat.le_refl _
  have hheight : corridor.board.height ≤ 2147483647 := by decide
  obtain ⟨-, -, -, -, hrun⟩ := run_fits_words hwidth hheight cs
  exact ⟨hwidth, hheight, rfl, hrun.trans rfl⟩

end Level

end RobotMaze
