/-
Replays that run beside the one who watches them.

A session is a replay that sends its frames into a queue, and a watcher who takes them
out, may ask for the replay to stop, and may go away.  The two are independent: a
`Move` is one step of either, and any list of moves is a possible course of events.  The
replay has the same cursor and listens to the same channel as `Replay.loop`, but of time
there is only the order of the moves: it sends frame after frame, and ends when its cursor
is on the last one, when it looks at the flag and finds it up, or when there is nobody left
to send to.  Sending a frame and the look that follows it are two moves, so that the
watcher may come between them.
-/
import RobotMaze.Replay

namespace RobotMaze.Replay

/-- A frame in the queue, with its number. -/
abbrev Parcel := Nat × Pose

/-- Where the sending side is. -/
inductive Phase where
  /-- It is about to send its first frame. -/
  | starting
  /-- It is about to see whether there is more to send and whether the flag is up. -/
  | looking
  /-- It waits for its next frame or for news. -/
  | waiting
  | ended (outcome : ReplayOutcome)
deriving DecidableEq

/-- A replay and its watcher. -/
structure Session where
  cursor : Cursor
  phase : Phase
  /-- The end of the channel that the replay listens to. -/
  receiver : Receiver
  /-- The frames that were sent and not yet taken out. -/
  queue : List Parcel
  /-- The frames that the watcher has taken out. -/
  received : List Parcel
  /-- Whether the watcher no longer takes frames. -/
  unwatched : Bool
deriving DecidableEq

/-- One step of the replay or of its watcher. -/
inductive Move where
  /-- The replay's next frame is due. -/
  | frame
  /-- The replay looks whether to go on. -/
  | look
  /-- The replay is woken by the channel. -/
  | news
  | receive
  | cancel
  /-- The watcher takes no more frames. -/
  | unwatch
  /-- The watcher gives up the means to stop the replay. -/
  | letGo
deriving DecidableEq

namespace Session

def create (frames : Trace) : Session where
  cursor := .atStart frames
  phase := .starting
  receiver := .fresh
  queue := []
  received := []
  unwatched := false

def outcome? (s : Session) : Option ReplayOutcome :=
  match s.phase with
  | .ended o => some o
  | _ => none

/-- What the replay does before it waits: it ends if no frame is left or the flag is up. -/
def look (s : Session) : Session :=
  if s.cursor.atEnd then { s with phase := .ended .completed }
  else if s.receiver.flag then { s with phase := .ended (.cancelled s.cursor.index) }
  else { s with phase := .waiting }

/-- Sends a frame with its number, if there is somebody to send it to. -/
def send (s : Session) (parcel : Parcel) : Session :=
  if s.unwatched then { s with phase := .ended (.cancelled parcel.1) }
  else { s with phase := .looking, queue := s.queue ++ [parcel] }

/-- Sends the first frame, if there is one. -/
def sendFirst (s : Session) : Session :=
  match s.cursor.frame? with
  | some pose => s.send (0, pose)
  | none => { s with phase := .looking }

/-- Goes to the next frame and sends it, if there is one. -/
def sendNext (s : Session) : Session :=
  match s.cursor.next with
  | (some pose, cursor) => { s with cursor }.send (cursor.index, pose)
  | (none, cursor) => { s with cursor, phase := .looking }

/-- Carries out a move; a move that is not possible has no effect. -/
def perform (s : Session) : Move → Session
  | .frame =>
    match s.phase with
    | .starting => s.sendFirst
    | .waiting => s.sendNext
    | _ => s
  | .look => if s.phase = .looking then s.look else s
  | .news =>
    if s.phase = .waiting ∧ s.receiver.hasNews then
      { s with phase := .looking, receiver := s.receiver.observe }
    else s
  | .receive =>
    match s.queue with
    | [] => s
    | parcel :: rest =>
      if s.unwatched then s
      else { s with queue := rest, received := s.received ++ [parcel] }
  | .cancel => { s with receiver := s.receiver.receive (.send true) }
  | .unwatch => { s with unwatched := true, queue := [] }
  | .letGo => { s with receiver := s.receiver.receive .leave }

def performAll (s : Session) (moves : List Move) : Session :=
  moves.foldl perform s

/-! ### Waiting for the replay -/

/-- The next step of a replay that is left alone: news wakes it at once, a frame only
when it is due. -/
def nextMove (s : Session) : Move :=
  match s.phase with
  | .looking => .look
  | .waiting => if s.receiver.hasNews then .news else .frame
  | _ => .frame

/-- How many steps the frames and the news that are left can lead to. -/
def ahead (s : Session) : Nat :=
  2 * (s.cursor.frames.length - (s.cursor.index + 1)) + 2 * s.receiver.pendingNews

/-- How many steps a replay that is left alone has at most before it. -/
def stepsLeft (s : Session) : Nat :=
  match s.phase with
  | .ended _ => 0
  | .starting => 3 + s.ahead
  | .looking => 2 + s.ahead
  -- Nobody waits at the end, where a tick would only lead back to the look.
  | .waiting => (if s.cursor.atEnd then 3 else 1) + s.ahead

theorem stepsLeft_send_le (s : Session) (parcel : Parcel) :
    (s.send parcel).stepsLeft ≤ 2 + s.ahead := by
  unfold send
  split
  · exact Nat.zero_le _
  · exact Nat.le_refl _

theorem stepsLeft_sendFirst_lt {s : Session} (hp : s.phase = .starting) :
    s.sendFirst.stepsLeft < s.stepsLeft := by
  have hleft : s.stepsLeft = 3 + s.ahead := by simp only [stepsLeft, hp]
  rw [hleft]
  unfold sendFirst
  split
  · exact Nat.lt_of_le_of_lt (s.stepsLeft_send_le _) (by omega)
  · show 2 + s.ahead < 3 + s.ahead
    omega

theorem stepsLeft_sendNext_lt {s : Session} (hp : s.phase = .waiting) :
    s.sendNext.stepsLeft < s.stepsLeft := by
  have hleft : s.stepsLeft = (if s.cursor.atEnd then 3 else 1) + s.ahead := by
    simp only [stepsLeft, hp]
  rw [hleft]
  unfold sendNext
  split
  · next pose cursor hnext =>
    obtain ⟨hpose, rfl⟩ := Cursor.next_eq_some_iff.mp hnext
    have hlt := (List.getElem?_eq_some_iff.mp hpose).1
    refine Nat.lt_of_le_of_lt (stepsLeft_send_le _ _) ?_
    show 2 + (2 * (s.cursor.frames.length - (s.cursor.index + 1 + 1)) + 2 * s.receiver.pendingNews)
      < _ + (2 * (s.cursor.frames.length - (s.cursor.index + 1)) + 2 * s.receiver.pendingNews)
    split <;> omega
  · next cursor hnext =>
    obtain ⟨hend, rfl⟩ := Cursor.next_eq_none hnext
    rw [if_pos hend]
    show 2 + s.ahead < 3 + s.ahead
    omega

theorem stepsLeft_look_lt {s : Session} (hp : s.phase = .looking) :
    s.look.stepsLeft < s.stepsLeft := by
  have hleft : s.stepsLeft = 2 + s.ahead := by simp only [stepsLeft, hp]
  rw [hleft]
  unfold look
  split
  · exact Nat.lt_of_lt_of_le Nat.two_pos (Nat.le_add_right _ _)
  · next hmore =>
    split
    · exact Nat.lt_of_lt_of_le Nat.two_pos (Nat.le_add_right _ _)
    · show (if s.cursor.atEnd then 3 else 1) + s.ahead < 2 + s.ahead
      rw [if_neg hmore]
      omega

theorem stepsLeft_nextMove_lt {s : Session} (h : s.outcome? = none) :
    (s.perform s.nextMove).stepsLeft < s.stepsLeft := by
  unfold nextMove
  cases hp : s.phase with
  | starting =>
    simp only [perform, hp]
    exact stepsLeft_sendFirst_lt hp
  | looking =>
    simp only [perform, hp, if_true]
    exact stepsLeft_look_lt hp
  | waiting =>
    by_cases hn : s.receiver.hasNews = true
    · have hpending := Receiver.pendingNews_observe_lt hn
      simp only [perform, hp, hn, stepsLeft, ahead, and_self, if_true]
      split <;> omega
    · simp only [perform, hp, hn]
      exact stepsLeft_sendNext_lt hp
  | ended o => simp [outcome?, hp] at h

/-- The session after the replay, left alone, has ended. -/
def join (s : Session) : Session :=
  if _h : s.outcome?.isSome then s else (s.perform s.nextMove).join
termination_by s.stepsLeft
decreasing_by
  exact stepsLeft_nextMove_lt (by simpa using _h)

/-- The session after the watcher has waited for one frame and taken it out, if one came. -/
def receiveNext (s : Session) : Session :=
  (if s.queue.isEmpty then (s.perform .frame).perform .look else s).perform .receive

end Session

end RobotMaze.Replay
