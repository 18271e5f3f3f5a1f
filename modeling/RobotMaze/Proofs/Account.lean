/-
Every command of a program is accounted for.

A step of a run is one of three motions: the robot goes to the square ahead, it turns by a
quarter where it stands, or it rests.  Two poses show which one it was (`Motion.between`), so
no step is two of them, and that no command does anything else is `Pose.Goes`.  Counted over
a run, the three make up the length of the program.

Poses do not show why a robot rests.  The reasons are in the command and in the walls around
the robot, and `Command.Idles` lists them: a wall ahead of a step, a conditional that senses
a free square, and a conditional that fires only to step into a wall.  The first and the last
of them are what the log takes note of.  A command that fires and leaves the robot as it is
has tried to move into a wall (`Command.blocked_eq`), and therefore the events of a run can
be told from its steps (`Program.blockedPoses_eq`), and the rests without an event are the
conditionals that did not fire.
-/
import RobotMaze.Proofs.Distance

namespace RobotMaze

/-- What a step of a run can be. -/
inductive Motion where
  /-- One square ahead, with the same heading. -/
  | advance
  /-- A quarter to either side, on the same square. -/
  | turn
  | rest
deriving DecidableEq

namespace Motion

/-- Whether a motion takes a robot from one pose to the other. -/
def Takes (p q : Pose) : Motion → Prop
  | advance => q = p.movedTo p.ahead
  | turn => q = p.turnedTo p.heading.left ∨ q = p.turnedTo p.heading.right
  | rest => q = p

instance (p q : Pose) : (m : Motion) → Decidable (m.Takes p q)
  | advance => inferInstanceAs (Decidable (q = p.movedTo p.ahead))
  | turn => inferInstanceAs
      (Decidable (q = p.turnedTo p.heading.left ∨ q = p.turnedTo p.heading.right))
  | rest => inferInstanceAs (Decidable (q = p))

/-- The motion that two poses show. -/
def between (p q : Pose) : Motion :=
  if p.position ≠ q.position then .advance
  else if p.heading ≠ q.heading then .turn
  else .rest

theorem Takes.eq_between {p q : Pose} {m : Motion} (h : m.Takes p q) : m = between p q := by
  cases m with
  | advance =>
      have hq : q = p.movedTo p.ahead := h
      have hne : p.position ≠ p.ahead := (p.position.step_ne p.heading).symm
      simp [between, hq, Pose.movedTo, hne]
  | turn =>
      have hleft : p.heading ≠ p.heading.left := p.heading.left_ne.symm
      have hright : p.heading ≠ p.heading.right := p.heading.right_ne.symm
      rcases h with hq | hq
      · simp [between, hq, Pose.turnedTo, hleft]
      · simp [between, hq, Pose.turnedTo, hright]
  | rest =>
      have hq : q = p := h
      simp [between, hq]

end Motion

namespace Pose.Goes

variable {t : Terrain} {p q : Pose}

theorem exists_motion (h : p.Goes t q) : ∃ m : Motion, m.Takes p q := by
  cases h with
  | stays => exact ⟨.rest, rfl⟩
  | left => exact ⟨.turn, Or.inl rfl⟩
  | right => exact ⟨.turn, Or.inr rfl⟩
  | forward free => exact ⟨.advance, rfl⟩

/-- What one command may do is one motion. -/
theorem existsUnique_motion (h : p.Goes t q) : ∃! m : Motion, m.Takes p q := by
  obtain ⟨m, hm⟩ := h.exists_motion
  exact ⟨m, hm, fun m' hm' => hm'.eq_between.trans hm.eq_between.symm⟩

theorem takes_iff (h : p.Goes t q) {m : Motion} : m.Takes p q ↔ Motion.between p q = m := by
  obtain ⟨m', hm'⟩ := h.exists_motion
  constructor
  · intro hm
    exact hm.eq_between.symm
  · intro hm
    rw [← hm, ← hm'.eq_between]
    exact hm'

/-- Of the three ways to count a step one counts it, and the others do not. -/
theorem counted_once (h : p.Goes t q) :
    (if p.position != q.position then 1 else 0) + (if Motion.turn.Takes p q then 1 else 0)
      + (if p == q then 1 else 0) = 1 := by
  have hturn := h.takes_iff (m := .turn)
  by_cases hposition : p.position = q.position
  · by_cases hheading : p.heading = q.heading
    · simp [hturn, Motion.between, Pose.ext_iff, hposition, hheading]
    · simp [hturn, Motion.between, Pose.ext_iff, hposition, hheading]
  · simp [hturn, Motion.between, Pose.ext_iff, hposition]

end Pose.Goes

/-! ### Why a robot rests -/

/-- The reasons for which a command leaves the robot as it is. -/
inductive Command.Idles (t : Terrain) (p : Pose) : Command → Prop
  /-- A step into a wall. -/
  | bumps (hwall : t.isWall p.ahead = true) : Idles t p (.act .forward)
  /-- A conditional that senses a free square. -/
  | waits {s : Sense} {a : Action} (hfree : t.isWall (p.sensed s) = false) :
      Idles t p (.ifWall s a)
  /-- A conditional that senses a wall, with a step into a wall. -/
  | firesAndBumps {s : Sense} (hsensed : t.isWall (p.sensed s) = true)
      (hwall : t.isWall p.ahead = true) : Idles t p (.ifWall s .forward)

section Reasons

variable {t : Terrain} {p : Pose}

/-- The only action that can fail is a step, and only a wall ahead makes it fail. -/
theorem Action.apply_eq_self_iff {a : Action} :
    a.apply t p = p ↔ a = .forward ∧ t.isWall p.ahead = true := by
  cases a with
  | forward =>
      by_cases hw : t.isWall p.ahead = true
      · simp [Action.apply, hw]
      · have hne : p.ahead ≠ p.position := p.position.step_ne p.heading
        simp [Action.apply, hw, Pose.movedTo, Pose.ext_iff, hne]
  | left => simp [Action.apply, Pose.turnedTo, Pose.ext_iff, p.heading.left_ne]
  | right => simp [Action.apply, Pose.turnedTo, Pose.ext_iff, p.heading.right_ne]

theorem Command.apply_eq_self_iff {c : Command} : c.apply t p = p ↔ c.Idles t p := by
  cases c with
  | act a =>
      show a.apply t p = p ↔ _
      rw [Action.apply_eq_self_iff]
      constructor
      · rintro ⟨rfl, hwall⟩
        exact .bumps hwall
      · intro h
        cases h with
        | bumps hwall => exact ⟨rfl, hwall⟩
  | ifWall s a =>
      by_cases hs : t.isWall (p.sensed s) = true
      · rw [show (ifWall s a).apply t p = a.apply t p from if_pos hs, Action.apply_eq_self_iff]
        constructor
        · rintro ⟨rfl, hwall⟩
          exact .firesAndBumps hs hwall
        · intro h
          cases h with
          | waits hfree => exact absurd hs (by simp [hfree])
          | firesAndBumps hsensed hwall => exact ⟨rfl, hwall⟩
      · have hstay : (ifWall s a).apply t p = p := if_neg hs
        exact ⟨fun _ => .waits (Bool.eq_false_iff.mpr hs), fun _ => hstay⟩

/-- To fire in vain is to try to move into a wall. -/
theorem Command.blocked_eq (c : Command) :
    c.blocked t p = (c.fires t p && c.apply t p == p) := by
  unfold blocked
  by_cases hf : c.fires t p = true
  · rw [apply_of_fires hf, Bool.and_assoc, Bool.eq_iff_iff]
    simp [Action.apply_eq_self_iff]
  · simp [hf]

end Reasons

/-! ### The steps of a run with their commands -/

namespace Program

variable {t : Terrain}

/-- Each command of a program, with the poses before and after it. -/
def steps (t : Terrain) (p : Pose) (cs : Program) : List (Command × Pose × Pose) :=
  cs.zip (trace t p cs).steps

theorem steps_cons (t : Terrain) (p : Pose) (c : Command) (cs : Program) :
    steps t p (c :: cs) = (c, p, c.apply t p) :: steps t (c.apply t p) cs := by
  unfold steps
  rw [steps_trace_cons, List.zip_cons_cons]

theorem map_fst_steps (t : Terrain) (p : Pose) (cs : Program) :
    (steps t p cs).map Prod.fst = cs :=
  List.map_fst_zip (Nat.le_of_eq (length_steps_trace t p cs).symm)

theorem map_snd_steps (t : Terrain) (p : Pose) (cs : Program) :
    (steps t p cs).map Prod.snd = (trace t p cs).steps :=
  List.map_snd_zip (Nat.le_of_eq (length_steps_trace t p cs))

theorem eq_apply_of_mem_steps {cs : Program} {s : Command × Pose × Pose} :
    ∀ {p : Pose}, s ∈ steps t p cs → s.2.2 = s.1.apply t s.2.1 := by
  induction cs with
  | nil => intro p h; simp [steps] at h
  | cons c cs ih =>
      intro p h
      rw [steps_cons, List.mem_cons] at h
      rcases h with rfl | hlater
      · rfl
      · exact ih hlater

/-! ### Counting -/

/-- The three motions add up to the program. -/
theorem countP_motions (cs : Program) : ∀ p : Pose,
    ((trace t p cs).steps.countP fun s => s.1.position != s.2.position)
      + ((trace t p cs).steps.countP fun s => Motion.turn.Takes s.1 s.2)
      + ((trace t p cs).steps.countP fun s => s.1 == s.2) = cs.length := by
  induction cs with
  | nil => exact fun p => rfl
  | cons c cs ih =>
      intro p
      have hrest := ih (c.apply t p)
      have hone := (c.goes_apply t p).counted_once
      rw [steps_trace_cons]
      simp only [List.countP_cons, List.length_cons, decide_eq_true_eq]
      omega

theorem blockedPoses_eq (cs : Program) : ∀ p : Pose,
    blockedPoses t p cs
      = ((steps t p cs).filter fun s => s.1.blocked t s.2.1).map fun s => s.2.1 := by
  induction cs with
  | nil => exact fun p => rfl
  | cons c cs ih =>
      intro p
      rw [steps_cons, List.filter_cons]
      simp only [blockedPoses, ih]
      split <;> rfl

/-- In a step of a run, whoever fires in vain has tried to move into a wall. -/
theorem blocked_of_mem_steps {p : Pose} {cs : Program} {s : Command × Pose × Pose}
    (hs : s ∈ steps t p cs) :
    s.1.blocked t s.2.1 = (s.1.fires t s.2.1 && s.2.2 == s.2.1) := by
  rw [eq_apply_of_mem_steps hs]
  exact s.1.blocked_eq

/-- A rest is noted, or it is that of a conditional that did not fire. -/
theorem length_blockedPoses (p : Pose) (cs : Program) :
    (blockedPoses t p cs).length + (steps t p cs).countP (fun s => !s.1.fires t s.2.1)
      = (trace t p cs).steps.countP fun s => s.1 == s.2 := by
  have hrests : ((trace t p cs).steps.countP fun s => s.1 == s.2)
      = (steps t p cs).countP fun s => s.2.1 == s.2.2 := by
    rw [← map_snd_steps, List.countP_map]
    rfl
  rw [hrests, blockedPoses_eq, List.length_map, ← List.countP_eq_length_filter,
    List.countP_eq_countP_filter_add (steps t p cs) (fun s => s.2.1 == s.2.2)
      (fun s => s.1.fires t s.2.1), List.countP_filter, List.countP_filter]
  congr 1
  · refine List.countP_congr fun s hs => ?_
    rw [blocked_of_mem_steps hs, Bool.and_comm, BEq.comm]
  · refine List.countP_congr fun s hs => ?_
    by_cases hf : s.1.fires t s.2.1 = true
    · simp [hf]
    · simp [hf, eq_apply_of_mem_steps hs, Command.apply_of_not_fires (Bool.eq_false_iff.mpr hf)]

end Program

/-- The number of steps that turned the robot. -/
def Outcome.turnsMade (o : Outcome) : Nat :=
  o.trace.steps.countP fun s => Motion.turn.Takes s.1 s.2

namespace Level

/-- The events that the log of a run shows as blocked moves. -/
def blockedEvents (l : Level) (cs : Program) : List Event :=
  (l.runEvents cs).filter fun e => e.entry.message == "move blocked"

theorem blockedEvents_eq (l : Level) (cs : Program) :
    l.blockedEvents cs
      = (Program.blockedPoses l.board.toTerrain l.start cs).map Pose.blockedEvent := by
  unfold blockedEvents runEvents
  rw [List.filter_append, List.filter_map]
  simp [Function.comp_def, Pose.blockedEvent, Event.entry]

/--
**Every command of a program is accounted for.**  Each step of a run is one of three motions,
and it is a rest exactly for one of the reasons in `Command.Idles`; moves, turns and rests
add up to the length of the program.  The log notes a blocked move for every rest whose
command fired, in the order of the steps, with the pose of the robot and the wall ahead of
it; all other rests are conditionals that sensed a free square.
-/
theorem run_accounts_for_commands (l : Level) (cs : Program) :
    let t := l.board.toTerrain
    let steps := Program.steps t l.start cs
    (steps.map Prod.fst = cs ∧ steps.map Prod.snd = (l.run cs).trace.steps) ∧
    (∀ c p q, (c, p, q) ∈ steps →
      (∃! m : Motion, m.Takes p q) ∧ (q = p ↔ c.Idles t p)) ∧
    (l.run cs).cellsMoved + (l.run cs).turnsMade + (l.run cs).idleSteps = cs.length ∧
    (l.blockedEvents cs).length + steps.countP (fun s => !s.1.fires t s.2.1)
      = (l.run cs).idleSteps ∧
    l.blockedEvents cs = (steps.filter fun s => s.1.fires t s.2.1 && s.2.2 == s.2.1).map
      (fun s => .moveBlocked s.2.1 s.2.1.ahead) ∧
    (∀ e ∈ l.blockedEvents cs, ∃ c p, (c, p, p) ∈ steps ∧ t.isWall p.ahead = true ∧
      e.entry.fields = [("from", .text p.text), ("x", .number p.ahead.x),
        ("y", .number p.ahead.y)]) := by
  intro t steps
  have hevents : l.blockedEvents cs
      = (steps.filter fun s => s.1.fires t s.2.1 && s.2.2 == s.2.1).map
        (fun s => .moveBlocked s.2.1 s.2.1.ahead) := by
    rw [blockedEvents_eq, Program.blockedPoses_eq, List.map_map,
      List.filter_congr fun s hs => Program.blocked_of_mem_steps hs]
    rfl
  refine ⟨⟨Program.map_fst_steps _ _ _, Program.map_snd_steps _ _ _⟩, ?_,
    Program.countP_motions cs l.start, ?_, hevents, ?_⟩
  · intro c p q hstep
    have hq : q = c.apply t p := Program.eq_apply_of_mem_steps hstep
    rw [hq]
    exact ⟨(c.goes_apply t p).existsUnique_motion, Command.apply_eq_self_iff⟩
  · rw [blockedEvents_eq, List.length_map]
    exact Program.length_blockedPoses l.start cs
  · intro e he
    rw [hevents, List.mem_map] at he
    obtain ⟨⟨c, p, q⟩, hstep, rfl⟩ := he
    obtain ⟨hmem, hvain⟩ := List.mem_filter.mp hstep
    obtain ⟨hfires, hsame⟩ : c.fires t p = true ∧ q = p := by simpa using hvain
    subst hsame
    have happly : c.apply t q = q := (Program.eq_apply_of_mem_steps hmem).symm
    rw [Command.apply_of_fires hfires, Action.apply_eq_self_iff] at happly
    exact ⟨c, q, hmem, happly.2, rfl⟩

/-- A step, all three ways to rest, and a turn; two of the rests are noted. -/
theorem run_accounts_for_commands_nook :
    let cs : Program := [.act .forward, .act .forward, .ifWall .right .left,
      .ifWall .ahead .forward, .act .left]
    let steps := Program.steps nook.board.toTerrain nook.start cs
    let p : Pose := ⟨⟨1, 0⟩, .east⟩
    let e : Event := .moveBlocked p ⟨2, 0⟩
    (.ifWall .ahead .forward, p, p) ∈ steps ∧ (∃! m : Motion, m.Takes p p) ∧
      (Command.ifWall .ahead .forward).Idles nook.board.toTerrain p ∧
      nook.blockedEvents cs = [e, e] ∧ e ∈ nook.blockedEvents cs ∧
      ∃ c q, (c, q, q) ∈ steps ∧ nook.board.isWall q.ahead = true ∧
        e.entry.fields = [("from", .text q.text), ("x", .number q.ahead.x),
          ("y", .number q.ahead.y)] := by
  intro cs steps p e
  have hstep : (.ifWall .ahead .forward, p, p) ∈ steps := by decide
  obtain ⟨-, hsteps, -, -, hevents, hnoted⟩ := run_accounts_for_commands nook cs
  obtain ⟨hmotion, hidles⟩ := hsteps _ _ _ hstep
  have hlog : nook.blockedEvents cs = [e, e] := hevents
  have hmem : e ∈ nook.blockedEvents cs := by simp [hlog]
  exact ⟨hstep, hmotion, hidles.mp rfl, hlog, hmem, hnoted e hmem⟩

end Level

end RobotMaze
