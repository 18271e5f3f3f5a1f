/-
A cursor on the frames of a trace.

The cursor starts on the first frame and never leaves the trace: a step past the end
and a jump to a frame that does not exist are refused and leave it where it is.
-/
import RobotMaze.Outcome

namespace RobotMaze.Replay

/-- Frames, and the one that is being looked at. -/
structure Cursor where
  frames : Trace
  index : Nat
deriving DecidableEq

namespace Cursor

def atStart (frames : Trace) : Cursor :=
  { frames, index := 0 }

def frame? (c : Cursor) : Option Pose :=
  c.frames[c.index]?

/-- Whether no frame follows. -/
def atEnd (c : Cursor) : Bool :=
  c.frames.length ≤ c.index + 1

/-- Goes to the next frame, if there is one, and gives it. -/
def next (c : Cursor) : Option Pose × Cursor :=
  if c.atEnd then (none, c)
  else
    let after := { c with index := c.index + 1 }
    (after.frame?, after)

theorem atEnd_iff_le {c : Cursor} : c.atEnd = true ↔ c.frames.length ≤ c.index + 1 :=
  decide_eq_true_iff

/-- There is a next frame exactly if the cursor is not at the end, and it moves one on to it. -/
theorem next_eq_some_iff {c d : Cursor} {pose : Pose} :
    c.next = (some pose, d) ↔
      c.frames[c.index + 1]? = some pose ∧ d = { c with index := c.index + 1 } := by
  unfold next
  split
  · next hend =>
    have hnone : c.frames[c.index + 1]? = none := List.getElem?_eq_none (atEnd_iff_le.mp hend)
    simp [hnone]
  · simp [frame?, eq_comm]

theorem next_eq_none {c d : Cursor} (h : c.next = (none, d)) : c.atEnd = true ∧ c = d := by
  unfold next at h
  split at h
  · next hend => exact ⟨hend, congrArg Prod.snd h⟩
  · next hmore =>
    have hframe : c.frames[c.index + 1]? = none := congrArg Prod.fst h
    exact absurd (atEnd_iff_le.mpr (List.getElem?_eq_none_iff.mp hframe)) hmore

/-- Goes to a frame by its number, if there is one, and gives it. -/
def jump (c : Cursor) (index : Nat) : Option Pose × Cursor :=
  match c.frames[index]? with
  | some pose => (some pose, { c with index })
  | none => (none, c)

def rewind (c : Cursor) : Cursor :=
  { c with index := 0 }

inductive Motion where
  | next
  | jump (index : Nat)
  | rewind
deriving DecidableEq

/-- Carries out a motion: the frame it gives, and the cursor after it. -/
def perform (c : Cursor) : Motion → Option Pose × Cursor
  | .next => c.next
  | .jump i => c.jump i
  | .rewind => (none, c.rewind)

def performAll (c : Cursor) (motions : List Motion) : Cursor :=
  motions.foldl (fun d m => (d.perform m).2) c

end Cursor

end RobotMaze.Replay
