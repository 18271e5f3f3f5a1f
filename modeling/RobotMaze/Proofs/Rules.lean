/-
A program that a level accepts can only do what the level offers.

`check` reads a program and never runs it, and a run never asks for the palette.  What
connects them is `Admits`: the program is short enough, and every kind that one of its
commands requires is on the palette.  The level accepts exactly these programs
(`check_eq_ok_iff`).

In a run, a command carries out its own action or does nothing (`Command.apply_eq_or`),
whether it is a conditional or not and whatever stands around the robot.  So the action
can be told from what a step changed: a new square from a step ahead, a turn to one side
from a turn to that side.  The kind of this action is among those that the command
requires, for a conditional as the kind of its body.
-/
import RobotMaze.Proofs.Run

namespace RobotMaze

/-! ### What the level accepts -/

theorem Command.kind_mem_required (c : Command) : c.kind ∈ c.required := by
  cases c <;> exact List.mem_cons_self

/-- A conditional requires the kind of its body. -/
theorem Command.kind_action_mem_required (c : Command) : c.action.kind ∈ c.required := by
  cases c with
  | act a => exact List.mem_cons_self
  | ifWall s a => exact List.mem_cons_of_mem _ List.mem_cons_self

namespace Level

variable {l : Level} {cs : Program}

/-- A program that keeps to the cap and the palette of a level. -/
structure Admits (l : Level) (cs : Program) : Prop where
  length_le : cs.length ≤ l.cap
  allows : ∀ c ∈ cs, ∀ k ∈ c.required, l.palette.allows k = true

theorem firstMissing_eq_none_iff {palette : Palette} :
    firstMissing palette cs = none ↔ ∀ c ∈ cs, ∀ k ∈ c.required, palette.allows k = true := by
  unfold firstMissing
  rw [List.findSome?_eq_none_iff]
  constructor
  · intro h c hc k hk
    obtain ⟨i, hi⟩ := List.mem_iff_getElem?.mp hc
    have hfind := Option.map_eq_none_iff.mp (h (c, i) (List.mk_mem_zipIdx_iff_getElem?.mpr hi))
    have hk' := List.find?_eq_none.mp hfind k hk
    cases ha : palette.allows k with
    | true => rfl
    | false => exact absurd (congrArg Bool.not ha) hk'
  · intro h c hc
    have hmem : c.1 ∈ cs := List.mem_of_getElem? (List.mem_zipIdx_iff_getElem?.mp hc)
    refine Option.map_eq_none_iff.mpr (List.find?_eq_none.mpr fun k hk => ?_)
    rw [h c.1 hmem k hk]
    exact Bool.false_ne_true

/-- A level accepts exactly the programs that keep to its rules. -/
theorem check_eq_ok_iff : l.check cs = .ok () ↔ l.Admits cs := by
  unfold check
  by_cases hlength : cs.length > l.cap
  · rw [if_pos hlength]
    constructor
    · intro h
      cases h
    · intro h
      exact absurd h.length_le (Nat.not_le_of_lt hlength)
  · rw [if_neg hlength]
    cases hmissing : firstMissing l.palette cs with
    | none => exact ⟨fun _ => ⟨Nat.le_of_not_lt hlength, firstMissing_eq_none_iff.mp hmissing⟩,
        fun _ => rfl⟩
    | some m =>
        constructor
        · intro h
          cases h
        · intro h
          rw [firstMissing_eq_none_iff.mpr h.allows] at hmissing
          cases hmissing

end Level

/-! ### What a command does tells its action -/

theorem Heading.toward_injective {h : Heading} {s s' : Sense} (he : h.toward s = h.toward s') :
    s = s' := by
  cases h <;> cases s <;> cases s' <;> revert he <;> decide

/-- Only a step ahead changes the square. -/
theorem Command.position_apply {t : Terrain} {p : Pose} {c : Command}
    (h : c.action ≠ .forward) : (c.apply t p).position = p.position := by
  rcases c.apply_eq_or t p with hstay | hact
  · rw [hstay]
  · rw [hact]
    cases ha : c.action with
    | forward => exact absurd ha h
    | left => rfl
    | right => rfl

/-- Only a turn to that side changes the heading to that side. -/
theorem Command.side_of_heading_eq {t : Terrain} {p : Pose} {c : Command} {s : Sense}
    (hs : s ≠ .ahead) (h : (c.apply t p).heading = p.heading.toward s) : c.action.side = s := by
  rcases c.apply_eq_or t p with hstay | hact
  · rw [hstay] at h
    have hahead : p.heading.toward s = p.heading.toward .ahead := h.symm
    exact absurd (Heading.toward_injective hahead) hs
  · rw [hact, Action.heading_apply] at h
    exact Heading.toward_injective h

namespace Level

variable {l : Level} {cs : Program}

/-! ### What an accepted program does -/

namespace Admits

theorem allows_action (h : l.Admits cs) {c : Command} (hc : c ∈ cs) :
    l.palette.allows c.action.kind = true :=
  h.allows c hc _ c.kind_action_mem_required

theorem action_ne (h : l.Admits cs) {c : Command} (hc : c ∈ cs) {a : Action}
    (hno : l.palette.allows a.kind = false) : c.action ≠ a := by
  intro ha
  have hallowed := h.allows_action hc
  rw [ha, hno] at hallowed
  exact Bool.false_ne_true hallowed

/-- Without steps ahead the robot stays on its square. -/
theorem position_of_mem_trace (h : l.Admits cs) (hno : l.palette.allows .moveForward = false)
    {q : Pose} (hq : q ∈ (l.run cs).trace) : q.position = l.start.position := by
  obtain ⟨n, -, hend⟩ := Program.mem_trace_iff.mp hq
  rw [hend]
  refine Program.final_induct_of_mem (P := fun r => r.position = l.start.position) ?_ l.start rfl
  intro c hc r hr
  have hne : c.action ≠ .forward := h.action_ne (List.mem_of_mem_take hc) hno
  exact (Command.position_apply hne).trans hr

/-- Without turns to a side, no step of the run turns to it. -/
theorem heading_of_mem_steps (h : l.Admits cs) {a : Action} (ha : a ≠ .forward)
    (hno : l.palette.allows a.kind = false) {s : Pose × Pose} (hs : s ∈ (l.run cs).trace.steps) :
    s.2.heading ≠ s.1.heading.toward a.side := by
  intro hturn
  obtain ⟨c, hc, hstep⟩ := Program.exists_command_of_mem_steps hs
  rw [hstep] at hturn
  have hahead : a.side ≠ Action.forward.side := fun he => ha (Action.side_injective he)
  have hside : c.action.side = a.side := Command.side_of_heading_eq hahead hturn
  exact h.action_ne hc hno (Action.side_injective hside)

end Admits

/--
**An accepted program keeps to the rules when it runs.**  The run of a program that a
level accepts has at most one pose more than the cap; it leaves the start only if the
level offers steps ahead, and it turns to a side only if the level offers that turn.
Whatever a command of the program carries out, the body of a conditional included, is
on the palette.
-/
theorem accepted_program_keeps_to_rules (h : l.check cs = .ok ()) :
    (l.run cs).trace.length ≤ l.cap + 1 ∧
    (l.palette.allows .moveForward = false →
      ∀ q ∈ (l.run cs).trace, q.position = l.start.position) ∧
    (l.palette.allows .turnLeft = false →
      ∀ s ∈ (l.run cs).trace.steps, s.2.heading ≠ s.1.heading.left) ∧
    (l.palette.allows .turnRight = false →
      ∀ s ∈ (l.run cs).trace.steps, s.2.heading ≠ s.1.heading.right) ∧
    (∀ c ∈ cs, l.palette.allows c.kind = true ∧ l.palette.allows c.action.kind = true) := by
  have hadmits := check_eq_ok_iff.mp h
  refine ⟨?_, ?_, ?_, ?_, ?_⟩
  · show (Program.trace l.board.toTerrain l.start cs).length ≤ l.cap + 1
    rw [Program.length_trace]
    exact Nat.succ_le_succ hadmits.length_le
  · intro hno q hq
    exact hadmits.position_of_mem_trace hno hq
  · intro hno s hs
    exact hadmits.heading_of_mem_steps (a := .left) (by decide) hno hs
  · intro hno s hs
    exact hadmits.heading_of_mem_steps (a := .right) (by decide) hno hs
  · intro c hc
    exact ⟨hadmits.allows c hc _ c.kind_mem_required, hadmits.allows_action hc⟩

/-- One level that offers right turns only, and one without right turns. -/
theorem accepted_program_keeps_to_rules_nook :
    let l := { Level.nook with palette := Palette.ofKinds [.turnRight, .conditionalWall] }
    let turning : Program := [.act .right, .ifWall .right .right]
    let m := { Level.nook with
      palette := Palette.ofKinds [.moveForward, .turnLeft, .conditionalWall] }
    let walking : Program := [.act .forward, .ifWall .ahead .left, .act .forward]
    l.check turning = .ok () ∧ (l.run turning).trace.length ≤ l.cap + 1 ∧
      l.palette.allows .moveForward = false ∧
      (∀ q ∈ (l.run turning).trace, q.position = l.start.position) ∧
      l.palette.allows .turnLeft = false ∧
      (∀ s ∈ (l.run turning).trace.steps, s.2.heading ≠ s.1.heading.left) ∧
      m.check walking = .ok () ∧ m.palette.allows .turnRight = false ∧
      (∀ s ∈ (m.run walking).trace.steps, s.2.heading ≠ s.1.heading.right) := by
  intro l turning m walking
  have hl : l.check turning = .ok () := rfl
  have hm : m.check walking = .ok () := rfl
  obtain ⟨hlength, hstay, hleft, -, -⟩ := accepted_program_keeps_to_rules hl
  obtain ⟨-, -, -, hright, -⟩ := accepted_program_keeps_to_rules hm
  exact ⟨hl, hlength, rfl, hstay rfl, rfl, hleft rfl, hm, rfl, hright rfl⟩

end Level

end RobotMaze
