/-
Replays: the frames of a trace, shown one by one in time.

A replay has a cursor on the trace and a timer.  The first frame is shown at once, and
each tick of the timer after that takes the cursor to the next frame.  Time is a count of
nanoseconds from the start of the replay and passes only while the replay waits.  A replay
listens to a channel that carries one flag: if the flag is up when the replay looks at it,
the replay stops.  It looks before it waits for a frame, and again whenever the channel
wakes it.

A `Schedule` says what happens to the channel and when, what the one who is shown the
frames answers, and what is taken first if a frame is due and the channel has news at
the same instant.  The replay under a schedule is then a function, `Replay.run`.  One
pass of its loop ends in a frame, in an observation of the channel, or in the end of
the replay; the measure that falls is the frames left, then the signals left, then what
the channel still has to tell.
-/
import RobotMaze.Event
import RobotMaze.Outcome
import RobotMaze.Replay.Channel
import RobotMaze.Replay.Cursor

namespace RobotMaze

/-- How a replay ended. -/
inductive ReplayOutcome where
  | completed
  /-- It stopped on this frame. -/
  | cancelled (frame : Nat)
deriving DecidableEq

namespace Replay

/-! ### Schedules -/

/-- Signals that reach the channel together at one instant. -/
structure Burst where
  /-- The instant, in nanoseconds from the start. -/
  time : Nat
  /-- Whether the signals come before a frame that is due at the same instant. -/
  early : Bool
  signals : List Signal
deriving DecidableEq

/-- Everything outside of the replay that bears on it. -/
structure Schedule where
  /-- The signals sent before the replay starts. -/
  before : List Signal := []
  /-- The signals sent while a frame is being shown. -/
  during : Nat → List Signal := fun _ => []
  /-- The signals sent in between, in order of time. -/
  bursts : List Burst := []
  /-- Whether the one who is shown a frame wants to see more. -/
  wantsMore : Nat → Bool := fun _ => true
  /-- Whether, in a pass of the loop in which both a frame is due and the channel has
  news, the frame is taken first. -/
  frameFirst : Nat → Bool := fun _ => true

/-- A schedule in which nobody interferes. -/
def Schedule.quiet : Schedule := {}

/-! ### The timer -/

/-- A timer that ticks again and again. -/
structure Ticker where
  /-- The time from one tick to the next. -/
  period : Nat
  /-- When the next tick is due. -/
  due : Nat
  /-- How many ticks were taken. -/
  taken : Nat

/-- A timer that is started now; it gives its first tick at once. -/
def Ticker.start (period now : Nat) : Ticker :=
  { period, due := now, taken := 0 }

/-- The timer after a tick that was taken now.  A tick that comes late puts off those that
follow. -/
def Ticker.tick (t : Ticker) (now : Nat) : Ticker :=
  { t with due := now + t.period, taken := t.taken + 1 }

/-! ### Waiting -/

/-- What ends a wait. -/
inductive Wake where
  | frame
  | news
deriving DecidableEq

/-- The state after a wait. -/
structure Awake where
  wake : Wake
  time : Nat
  receiver : Receiver
  bursts : List Burst

/-- Waits from `time` on until the frame is due or the channel has news.  Bursts that
come before the frame reach the channel on the way. -/
def await (due : Nat) (frameFirst : Bool) (time : Nat) (r : Receiver) :
    List Burst → Awake
  | [] =>
    if r.hasNews && !(due ≤ time && frameFirst) then ⟨.news, time, r, []⟩
    else ⟨.frame, max time due, r, []⟩
  | b :: bs =>
    if r.hasNews && !(due ≤ time && frameFirst) then ⟨.news, time, r, b :: bs⟩
    else if !r.hasNews && (b.time < due || (b.time == due && b.early)) then
      await due frameFirst (max time b.time) (r.receiveAll b.signals) bs
    else ⟨.frame, max time due, r, b :: bs⟩

theorem hasNews_of_await {due time : Nat} {frameFirst : Bool} {r : Receiver}
    {bs : List Burst} (h : (await due frameFirst time r bs).wake = .news) :
    (await due frameFirst time r bs).receiver.hasNews = true := by
  fun_induction await due frameFirst time r bs <;> simp_all

/-- A wait uses up bursts, or leaves bursts and channel as they are. -/
theorem await_bursts (due time : Nat) (frameFirst : Bool) (r : Receiver) (bs : List Burst) :
    (await due frameFirst time r bs).bursts.length < bs.length
      ∨ (await due frameFirst time r bs).bursts = bs
        ∧ (await due frameFirst time r bs).receiver = r := by
  fun_induction await due frameFirst time r bs with
  | case1 => simp
  | case2 => simp
  | case3 => simp
  | case4 time r b bs _ _ ih =>
    rcases ih with h | ⟨h, -⟩
    · exact Or.inl (Nat.lt_trans h (by simp))
    · exact Or.inl (by simp [h])
  | case5 => simp

/-! ### The loop -/

structure Shown where
  index : Nat
  pose : Pose
  time : Nat
deriving DecidableEq

/-- What a replay did, from some instant on. -/
structure Report where
  shown : List Shown
  outcome : ReplayOutcome
  /-- When it ended. -/
  elapsed : Nat
  /-- How often the loop was entered. -/
  passes : Nat
  events : List Event

/-- The state between two passes of the loop. -/
structure State where
  cursor : Cursor
  time : Nat
  ticker : Ticker
  receiver : Receiver
  bursts : List Burst
  /-- How often the loop has been entered so far. -/
  passes : Nat

namespace State

/-- The state in which the loop is entered first.  The first frame needs no tick, so the first
tick of the timer is taken before. -/
def opening (frames : Trace) (interval : Nat) (r : Receiver) (bursts : List Burst) : State where
  cursor := .atStart frames
  time := 0
  ticker := (Ticker.start interval 0).tick 0
  receiver := r
  bursts := bursts
  passes := 0

/-- The wait of a pass. -/
def awake (sch : Schedule) (s : State) : Awake :=
  await s.ticker.due (sch.frameFirst s.passes) s.time s.receiver s.bursts

/-- The state after a pass with a tick. -/
def afterTick (sch : Schedule) (s : State) (cursor : Cursor) : State where
  cursor := cursor
  time := (s.awake sch).time
  ticker := s.ticker.tick (s.awake sch).time
  receiver := (s.awake sch).receiver
  bursts := (s.awake sch).bursts
  passes := s.passes + 1

/-- The state after a pass with a tick and a frame, which somebody was shown who wants more. -/
def afterFrame (sch : Schedule) (s : State) (cursor : Cursor) : State :=
  let t := s.afterTick sch cursor
  { t with receiver := t.receiver.receiveAll (sch.during cursor.index) }

/-- The state after a pass that took note of news. -/
def afterNews (sch : Schedule) (s : State) : State :=
  { s with
    time := (s.awake sch).time
    receiver := (s.awake sch).receiver.observe
    bursts := (s.awake sch).bursts
    passes := s.passes + 1 }

end State

/-- A replay that ends now. -/
def Report.ended (outcome : ReplayOutcome) (time : Nat) (events : List Event) : Report :=
  { shown := [], outcome, elapsed := time, passes := 0, events }

/-- A replay that does what the report says after one more pass of the loop. -/
def Report.afterPass (r : Report) : Report :=
  { r with passes := r.passes + 1 }

/-- A replay that does what the report says after one more frame. -/
def Report.afterFrame (r : Report) (s : Shown) : Report :=
  { r with shown := s :: r.shown }

/-- What a frame is shown as. -/
def Cursor.shown (c : Cursor) (pose : Pose) (time : Nat) : Shown :=
  { index := c.index, pose, time }

/-- The passes of the loop, from a state in which the frame at the cursor is shown. -/
def loop (sch : Schedule) (s : State) : Report :=
  if _hend : s.cursor.atEnd then
    .ended .completed s.time [.replayFinished s.cursor.frames.length]
  else if s.receiver.flag then
    (Report.ended (.cancelled s.cursor.index) s.time []).afterPass
  else
    match _hw : (s.awake sch).wake with
    | .frame =>
      match _hn : s.cursor.next with
      | (some pose, cursor) =>
        if sch.wantsMore cursor.index then
          ((loop sch (s.afterFrame sch cursor)).afterFrame
            (cursor.shown pose (s.awake sch).time)).afterPass
        else
          ((Report.ended (.cancelled cursor.index) (s.awake sch).time
            [.replayStopped cursor.index]).afterFrame
              (cursor.shown pose (s.awake sch).time)).afterPass
      | (none, cursor) => (loop sch (s.afterTick sch cursor)).afterPass
    | .news => (loop sch (s.afterNews sch)).afterPass
termination_by
  (s.cursor.frames.length - s.cursor.index, s.bursts.length, s.receiver.pendingNews)
decreasing_by
  · obtain ⟨hpose, rfl⟩ := Cursor.next_eq_some_iff.mp _hn
    have hlt := (List.getElem?_eq_some_iff.mp hpose).1
    apply Prod.Lex.left
    show s.cursor.frames.length - (s.cursor.index + 1) < _
    omega
  · exact absurd (Cursor.next_eq_none _hn).1 _hend
  · apply Prod.Lex.right
    have hnews : (s.awake sch).receiver.hasNews = true := hasNews_of_await _hw
    rcases await_bursts s.ticker.due s.time (sch.frameFirst s.passes) s.receiver s.bursts with
      h | ⟨h, hr⟩
    · exact Prod.Lex.left _ _ h
    · show Prod.Lex _ _ ((s.awake sch).bursts.length, (s.awake sch).receiver.observe.pendingNews) _
      rw [show (s.awake sch).bursts = s.bursts from h]
      rw [show (s.awake sch).receiver = s.receiver from hr] at hnews ⊢
      exact Prod.Lex.right _ (Receiver.pendingNews_observe_lt hnews)

/-! One equation for each way in which a pass can go. -/

section
variable {sch : Schedule} {s : State}

theorem loop_of_atEnd (hend : s.cursor.atEnd = true) :
    loop sch s = .ended .completed s.time [.replayFinished s.cursor.frames.length] := by
  rw [loop.eq_def, dif_pos hend]

theorem loop_of_flag (hmore : ¬s.cursor.atEnd = true) (hflag : s.receiver.flag = true) :
    loop sch s = (Report.ended (.cancelled s.cursor.index) s.time []).afterPass := by
  rw [loop.eq_def, dif_neg hmore, if_pos hflag]

theorem loop_of_frame (hmore : ¬s.cursor.atEnd = true) (hflag : s.receiver.flag = false)
    (hw : (s.awake sch).wake = .frame) {pose : Pose} {cursor : Cursor}
    (hn : s.cursor.next = (some pose, cursor)) :
    loop sch s =
      if sch.wantsMore cursor.index then
        ((loop sch (s.afterFrame sch cursor)).afterFrame
          (cursor.shown pose (s.awake sch).time)).afterPass
      else
        ((Report.ended (.cancelled cursor.index) (s.awake sch).time
          [.replayStopped cursor.index]).afterFrame
            (cursor.shown pose (s.awake sch).time)).afterPass := by
  rw [loop.eq_def, dif_neg hmore, if_neg (Bool.eq_false_iff.mp hflag)]
  split
  · split
    · next hn' =>
      cases hn.symm.trans hn'
      rfl
    · next hn' => cases hn.symm.trans hn'
  · next hnews => cases hw.symm.trans hnews

theorem loop_of_news (hmore : ¬s.cursor.atEnd = true) (hflag : s.receiver.flag = false)
    (hw : (s.awake sch).wake = .news) :
    loop sch s = (loop sch (s.afterNews sch)).afterPass := by
  rw [loop.eq_def, dif_neg hmore, if_neg (Bool.eq_false_iff.mp hflag)]
  split
  · next hframe => cases hw.symm.trans hframe
  · rfl

end

/-- A replay.  The first frame is shown at once, without a look at the flag. -/
def run (frames : Trace) (settings : ReplaySettings) (sch : Schedule) : Report :=
  let r := Receiver.fresh.receiveAll sch.before
  let cursor := Cursor.atStart frames
  match cursor.frame? with
  | none => loop sch (.opening frames settings.interval r sch.bursts)
  | some pose =>
    let shown := { index := 0, pose, time := 0 }
    if sch.wantsMore 0 then
      (loop sch (.opening frames settings.interval (r.receiveAll (sch.during 0))
        sch.bursts)).afterFrame shown
    else (Report.ended (.cancelled 0) 0 []).afterFrame shown

end Replay

end RobotMaze
