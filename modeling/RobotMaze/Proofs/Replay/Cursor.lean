/-
A cursor stays on its trace and goes through it to the end.

Whatever was asked of a cursor before, it stands on a frame of its trace; of an empty trace
there is none, and there it stays where it started.  `index ≤ frames.length - 1` says both at
once (`On`), and each motion keeps it: one that would leave the trace is refused and moves
nothing.

What is left for the cursor to show are the frames behind its own (`remaining`).  Asked for the
next frame it gives the first of them and leaves the others, or it gives none if there are none,
so a cursor that goes on and on gives these frames in order and then none for good.  All
that is said of going on follows from this by induction on what remains.
-/
import RobotMaze.Proofs.Run
import RobotMaze.Replay.Cursor

namespace RobotMaze.Replay.Cursor

/-- The frames that the cursor has not come to. -/
def remaining (c : Cursor) : Trace :=
  c.frames.drop (c.index + 1)

/-- What each of these motions gives. -/
def answers (c : Cursor) : List Motion → List (Option Pose)
  | [] => []
  | m :: motions => (c.perform m).1 :: (c.perform m).2.answers motions

/-- So many times to the next frame. -/
def onward (steps : Nat) : List Motion :=
  List.replicate steps .next

variable {c : Cursor} {frames : Trace}

/-! ### One motion -/

theorem length_remaining (c : Cursor) : c.remaining.length = c.frames.length - (c.index + 1) :=
  List.length_drop

/-- The cursor is at the end if no frame remains. -/
theorem atEnd_iff : c.atEnd = true ↔ c.remaining = [] := by
  rw [remaining, List.drop_eq_nil_iff, atEnd, decide_eq_true_iff]

/-- At the end there is no next frame. -/
theorem perform_next_of_nil (h : c.remaining = []) : c.perform .next = (none, c) :=
  if_pos (atEnd_iff.mpr h)

/-- The next frame is the first that remains. -/
theorem perform_next_of_cons {pose : Pose} {rest : Trace} (h : c.remaining = pose :: rest) :
    c.perform .next = (some pose, { c with index := c.index + 1 }) := by
  have hmore : ¬c.atEnd = true := by
    rw [atEnd_iff, h]
    exact List.cons_ne_nil pose rest
  have hframe : c.frames[c.index + 1]? = some pose := by
    rw [← List.head?_drop]
    exact congrArg List.head? h
  show c.next = _
  unfold next
  rw [if_neg hmore]
  exact congrArg (·, _) hframe

/-- The others remain after it. -/
theorem remaining_succ {pose : Pose} {rest : Trace} (h : c.remaining = pose :: rest) :
    ({ c with index := c.index + 1 } : Cursor).remaining = rest := by
  show c.frames.drop (c.index + 1 + 1) = rest
  rw [← List.tail_drop]
  exact congrArg List.tail h

theorem perform_jump_of_some {i : Nat} {pose : Pose} (h : c.frames[i]? = some pose) :
    c.perform (.jump i) = (some pose, { c with index := i }) := by
  show c.jump i = _
  unfold jump
  rw [h]

theorem perform_jump_of_le {i : Nat} (h : c.frames.length ≤ i) :
    c.perform (.jump i) = (none, c) := by
  show c.jump i = _
  unfold jump
  rw [List.getElem?_eq_none h]

/-- A motion to the next frame that gives none moves nothing. -/
theorem perform_next_of_none (h : (c.perform .next).1 = none) : (c.perform .next).2 = c := by
  cases hrest : c.remaining with
  | nil => rw [perform_next_of_nil hrest]
  | cons pose rest =>
      rw [perform_next_of_cons hrest] at h
      cases h

/-! ### Any motions -/

/-- The cursor stands on a frame of this trace, or at the start if it is empty. -/
structure On (frames : Trace) (c : Cursor) : Prop where
  trace : c.frames = frames
  index : c.index ≤ frames.length - 1

theorem On.atStart (frames : Trace) : (Cursor.atStart frames).On frames :=
  ⟨rfl, Nat.zero_le _⟩

theorem On.lt (h : c.On frames) (hframes : 0 < frames.length) : c.index < frames.length :=
  Nat.lt_of_le_of_lt h.index (Nat.sub_lt hframes Nat.one_pos)

/-- No motion leaves the trace. -/
theorem On.perform (h : c.On frames) (m : Motion) : (c.perform m).2.On frames := by
  cases m with
  | next =>
      cases hrest : c.remaining with
      | nil =>
          rw [perform_next_of_nil hrest]
          exact h
      | cons pose rest =>
          have hlength := c.length_remaining
          rw [hrest, List.length_cons, h.trace] at hlength
          rw [perform_next_of_cons hrest]
          refine ⟨h.trace, ?_⟩
          show c.index + 1 ≤ _
          omega
  | jump i =>
      rcases Nat.lt_or_ge i c.frames.length with hlt | hle
      · rw [perform_jump_of_some (List.getElem?_eq_getElem hlt)]
        rw [h.trace] at hlt
        exact ⟨h.trace, Nat.le_sub_one_of_lt hlt⟩
      · rw [perform_jump_of_le hle]
        exact h
  | rewind => exact ⟨h.trace, Nat.zero_le _⟩

theorem On.performAll (motions : List Motion) :
    ∀ {c : Cursor}, c.On frames → (c.performAll motions).On frames := by
  induction motions with
  | nil => exact fun h => h
  | cons m motions ih => exact fun h => ih (h.perform m)

/-- A cursor shows a frame unless its trace is empty. -/
theorem On.frame?_eq_none_iff (h : c.On frames) : c.frame? = none ↔ frames.length = 0 := by
  have hindex := h.index
  rw [frame?, h.trace, List.getElem?_eq_none_iff]
  omega

/-! ### Going on -/

theorem answers_onward_succ (c : Cursor) (steps : Nat) :
    c.answers (onward (steps + 1))
      = (c.perform .next).1 :: (c.perform .next).2.answers (onward steps) :=
  rfl

theorem performAll_onward_succ (c : Cursor) (steps : Nat) :
    c.performAll (onward (steps + 1)) = (c.perform .next).2.performAll (onward steps) :=
  rfl

/-- At the end nothing happens any more, however often the next frame is asked for. -/
theorem onward_of_nil (h : c.remaining = []) (steps : Nat) :
    c.answers (onward steps) = List.replicate steps none ∧ c.performAll (onward steps) = c := by
  induction steps with
  | zero => exact ⟨rfl, rfl⟩
  | succ steps ih =>
      rw [answers_onward_succ, performAll_onward_succ, perform_next_of_nil h]
      exact ⟨congrArg (none :: ·) ih.1, ih.2⟩

/-- A cursor that goes on gives what remains, frame by frame, and then none for good. -/
theorem answers_onward {rest : Trace} (steps : Nat) :
    ∀ {c : Cursor}, c.remaining = rest →
      c.answers (onward (rest.length + steps)) = rest.map some ++ List.replicate steps none := by
  induction rest with
  | nil =>
      intro c h
      rw [List.length_nil, Nat.zero_add]
      exact (onward_of_nil h steps).1
  | cons pose rest ih =>
      intro c h
      rw [List.length_cons, Nat.succ_add, answers_onward_succ, perform_next_of_cons h,
        ih (remaining_succ h)]
      rfl

/-- It comes to one frame after another, and stays on the last. -/
theorem performAll_onward (steps : Nat) :
    ∀ {c : Cursor}, c.On frames →
      c.performAll (onward steps)
        = { frames, index := min (c.index + steps) (frames.length - 1) } := by
  induction steps with
  | zero =>
      intro c h
      rw [Nat.add_zero, Nat.min_eq_left h.index, ← h.trace]
      rfl
  | succ steps ih =>
      intro c h
      have hlength := c.length_remaining
      rw [h.trace] at hlength
      rw [performAll_onward_succ, ih (h.perform .next)]
      cases hrest : c.remaining with
      | nil =>
          rw [hrest, List.length_nil] at hlength
          have hmin : min (c.index + steps) (frames.length - 1)
              = min (c.index + (steps + 1)) (frames.length - 1) := by omega
          rw [perform_next_of_nil hrest]
          exact congrArg (Cursor.mk frames) hmin
      | cons pose rest =>
          have hmin : min (c.index + 1 + steps) (frames.length - 1)
              = min (c.index + (steps + 1)) (frames.length - 1) := by omega
          rw [perform_next_of_cons hrest]
          exact congrArg (Cursor.mk frames) hmin

/--
**A cursor walks through its trace.**  Whatever was asked of it, it stands within the trace and
shows the frame it stands on, and what is refused leaves it there.  From wherever it has got to it
goes on through all frames that remain, in order and to the last one; then there is none,
and it stays.  It is at the end exactly if no frame remains.
-/
theorem walks_to_end (frames : Trace) (motions : List Motion) :
    let c := (atStart frames).performAll motions
    let rest := frames.drop (c.index + 1)
    (0 < frames.length → c.index < frames.length) ∧ (frames.length = 0 → c.index = 0) ∧
    c.frame? = frames[c.index]? ∧ (c.frame? = none ↔ frames.length = 0) ∧
    (∀ i, frames.length ≤ i → c.perform (.jump i) = (none, c)) ∧
    (∀ i pose, frames[i]? = some pose → c.perform (.jump i) = (some pose, { frames, index := i })) ∧
    ((c.perform .next).1 = none → (c.perform .next).2 = c) ∧
    (∀ steps, c.answers (onward (rest.length + steps))
      = rest.map some ++ List.replicate steps none) ∧
    (∀ steps, c.performAll (onward steps)
      = { frames, index := min (c.index + steps) (frames.length - 1) }) ∧
    (c.atEnd = true ↔ rest = []) := by
  intro c rest
  have hon : c.On frames := On.performAll motions (.atStart frames)
  have hrest : c.remaining = rest := congrArg (List.drop (c.index + 1)) hon.trace
  refine ⟨hon.lt, fun hnil => ?_, congrArg (·[c.index]?) hon.trace, hon.frame?_eq_none_iff,
    fun i hi => perform_jump_of_le (hon.trace ▸ hi), fun i pose hi => ?_, perform_next_of_none,
    fun steps => answers_onward steps hrest, fun steps => performAll_onward steps hon,
    hrest ▸ atEnd_iff⟩
  · have hindex := hon.index
    omega
  · rw [← hon.trace] at hi ⊢
    exact perform_jump_of_some hi

/-- From the fourth of six frames, to which it came by a jump after one that was refused. -/
theorem walks_to_end_nook :
    let frames := (Level.nook.run Program.throughNook).trace
    let c := (atStart frames).performAll [.next, .jump 6, .next, .rewind, .jump 3]
    let rest := frames.drop (c.index + 1)
    c.index = 3 ∧ c.index < frames.length ∧ c.perform (.jump 6) = (none, c) ∧
      rest.length = 2 ∧ c.answers (onward (rest.length + 2)) = rest.map some ++ [none, none] ∧
      c.performAll (onward 4) = { frames, index := 5 } ∧ c.atEnd = false := by
  intro frames c rest
  obtain ⟨hlt, -, -, -, hrefused, -, -, hanswers, hplace, hend⟩ :=
    walks_to_end frames [.next, .jump 6, .next, .rewind, .jump 3]
  have hindex : c.index = 3 := by decide
  have hlength : rest.length = 2 := by decide
  have hlast : min (c.index + 4) (frames.length - 1) = 5 := by decide
  have hmore : rest ≠ [] := List.ne_nil_of_length_pos (hlength ▸ Nat.two_pos)
  have hfar : c.performAll (onward 4) = { frames, index := 5 } := hlast ▸ hplace 4
  exact ⟨hindex, hlt (by decide), hrefused 6 (by decide), hlength, hanswers 2, hfar,
    Bool.eq_false_iff.mpr (mt hend.mp hmore)⟩

end RobotMaze.Replay.Cursor
