/-
A replay keeps to its timetable for as long as it goes on.

The timetable shows frame `k` at `k` times the interval.  Whatever is sent, and whatever
the one who watches answers, a replay shows a first part of the timetable; it completes
if that is all of it and every answer was to go on; and if it is cancelled, the frame it
names is the last one shown, with a cause that can be pointed out.

The times are those of the timer.  It gives its first tick at the start and one more with each
frame after the first, so the ticks taken are one more than the number of the frame at the
cursor, and the next tick is due at so many times the interval (`State.OnTime`).

The cause may be the flag, and the flag is a matter of what was sent, not of the loop.
`Schedule.Heard` therefore says, without the loop, in which order the signals of a
schedule and its frames can follow one another in time, and `flagAfter` what flag a list
of signals leaves.  The invariant of the loop is that its receiver knows the flag of the
signals heard so far (`Receiver.Knows`).  A wait keeps it (`heard_await`), and the loop is
then gone through once, pass by pass, for everything that is claimed of the rest of a
replay (`Report.Continues`).
-/
import RobotMaze.Proofs.Run
import RobotMaze.Replay

namespace RobotMaze.Replay

/-! ### The flag that signals leave -/

/-- The last value sent before the sender left; the flag stays as it is if there is none. -/
def flagFrom (flag : Bool) : List Signal → Bool
  | [] => flag
  | .leave :: _ => flag
  | .send sent :: signals => flagFrom sent signals

/-- The flag after these signals; at first it is down. -/
def flagAfter (signals : List Signal) : Bool :=
  flagFrom false signals

/-- Nobody hears what is sent after the sender left. -/
theorem flagFrom_append (flag : Bool) (signals more : List Signal) :
    flagFrom flag (signals ++ more) =
      if .leave ∈ signals then flagFrom flag signals
      else flagFrom (flagFrom flag signals) more := by
  induction signals generalizing flag with
  | nil => rfl
  | cons signal signals ih =>
      cases signal with
      | leave => simp [flagFrom]
      | send sent => simpa [flagFrom] using ih sent

/-- The receiver has the flag that these signals leave. -/
structure Receiver.Knows (r : Receiver) (signals : List Signal) : Prop where
  flag : r.flag = flagAfter signals
  closed : r.closed = true ↔ Signal.leave ∈ signals

namespace Receiver.Knows

theorem fresh : Receiver.fresh.Knows [] :=
  ⟨rfl, by simp [Receiver.fresh]⟩

theorem receive {r : Receiver} {signals : List Signal} (h : r.Knows signals) (signal : Signal) :
    (r.receive signal).Knows (signals ++ [signal]) := by
  have hafter := flagFrom_append false signals [signal]
  rw [← flagAfter, ← flagAfter] at hafter
  by_cases hleft : Signal.leave ∈ signals
  · have hc : r.closed = true := h.closed.mpr hleft
    rw [if_pos hleft, ← h.flag] at hafter
    cases signal with
    | leave => exact ⟨hafter.symm, by simp [Receiver.receive]⟩
    | send flag => exact ⟨by simpa [Receiver.receive, hc] using hafter.symm,
        by simp [Receiver.receive, hc, hleft]⟩
  · have hc : r.closed = false := by simpa using mt h.closed.mp hleft
    rw [if_neg hleft, ← h.flag] at hafter
    cases signal with
    | leave => exact ⟨hafter.symm, by simp [Receiver.receive]⟩
    | send flag => exact ⟨by simpa [Receiver.receive, hc, flagFrom] using hafter.symm,
        by simp [Receiver.receive, hc, hleft]⟩

theorem receiveAll {more : List Signal} :
    ∀ {r : Receiver} {signals : List Signal}, r.Knows signals →
      (r.receiveAll more).Knows (signals ++ more) := by
  induction more with
  | nil =>
      intro r signals h
      rwa [List.append_nil]
  | cons signal more ih =>
      intro r signals h
      rw [← List.singleton_append, ← List.append_assoc]
      exact ih (h.receive signal)

/-- Taking note of the news does not change the flag. -/
theorem observe {r : Receiver} {signals : List Signal} (h : r.Knows signals) :
    r.observe.Knows signals := by
  unfold Receiver.observe
  split
  · exact ⟨h.flag, h.closed⟩
  · exact ⟨h.flag, h.closed⟩

end Receiver.Knows

/-! ### The order of signals and frames -/

/-- At an instant between two frames, these signals have been given and these bursts are
still to come.  A burst comes at its time, or at once if it is listed late; one that comes
at the very instant of a frame may come before or after it.  What is sent while a frame is
shown comes straight after it. -/
inductive Schedule.Heard (sch : Schedule) (interval : Nat) :
    (frame now : Nat) → List Signal → List Burst → Prop
  | start : Heard sch interval 0 0 (sch.before ++ sch.during 0) sch.bursts
  | burst {frame now : Nat} {signals : List Signal} {b : Burst} {later : List Burst}
      (h : Heard sch interval frame now signals (b :: later))
      (hb : b.time ≤ (frame + 1) * interval) :
      Heard sch interval frame (max now b.time) (signals ++ b.signals) later
  | frame {frame now : Nat} {signals : List Signal} {later : List Burst}
      (h : Heard sch interval frame now signals later)
      (hnone : ∀ b ∈ later.head?, (frame + 1) * interval ≤ max now b.time) :
      Heard sch interval (frame + 1) ((frame + 1) * interval) (signals ++ sch.during (frame + 1))
        later

variable {frames : Trace} {interval : Nat} {sch : Schedule}

/-- The instant lies between the two frames. -/
theorem Schedule.Heard.now_bounds {frame now : Nat} {signals : List Signal} {later : List Burst}
    (h : sch.Heard interval frame now signals later) :
    frame * interval ≤ now ∧ now ≤ (frame + 1) * interval := by
  induction h with
  | start => simp
  | burst h hb ih => exact ⟨Nat.le_trans ih.1 (Nat.le_max_left _ _), Nat.max_le.mpr ⟨ih.2, hb⟩⟩
  | frame h hnone ih => exact ⟨Nat.le_refl _, Nat.mul_le_mul_right _ (Nat.le_succ _)⟩

/-- **A wait hears what comes on the way,** and ends with news at once or with the frame when
it is due. -/
theorem heard_await {frame due : Nat} (hdue : due = (frame + 1) * interval) (frameFirst : Bool)
    {time : Nat} {r : Receiver} {bursts : List Burst} :
    ∀ {signals : List Signal}, sch.Heard interval frame time signals bursts → r.Knows signals →
      ∃ now heard, sch.Heard interval frame now heard
          (await due frameFirst time r bursts).bursts ∧
        (await due frameFirst time r bursts).receiver.Knows heard ∧
        ((await due frameFirst time r bursts).wake = .news →
          (await due frameFirst time r bursts).time = now) ∧
        ((await due frameFirst time r bursts).wake = .frame →
          (await due frameFirst time r bursts).time = due ∧
          ∀ b ∈ (await due frameFirst time r bursts).bursts.head?, due ≤ max now b.time) := by
  fun_induction await due frameFirst time r bursts with
  | case1 time r hnews =>
      intro signals h hr
      exact ⟨time, signals, h, hr, fun _ => rfl, fun hframe => by cases hframe⟩
  | case2 time r hframe =>
      intro signals h hr
      have hle := h.now_bounds.2
      refine ⟨time, signals, h, hr, fun hnews => ?_, fun _ => ⟨Nat.max_eq_right (hdue ▸ hle), ?_⟩⟩
      · cases hnews
      · simp
  | case3 time r b bs hnews =>
      intro signals h hr
      exact ⟨time, signals, h, hr, fun _ => rfl, fun hframe => by cases hframe⟩
  | case4 time r b bs _ hburst ih =>
      intro signals h hr
      have hb : b.time ≤ due := by
        simp only [Bool.and_eq_true, Bool.or_eq_true, decide_eq_true_eq, beq_iff_eq] at hburst
        omega
      exact ih (h.burst (hdue ▸ hb)) (hr.receiveAll)
  | case5 time r b bs hnews hburst =>
      intro signals h hr
      have hle := h.now_bounds.2
      refine ⟨time, signals, h, hr, fun hwake => ?_, fun _ => ⟨Nat.max_eq_right (hdue ▸ hle), ?_⟩⟩
      · cases hwake
      · -- The frame comes first: it is due now, or the burst comes later than it.
        intro c hc
        cases hc
        cases hn : r.hasNews <;> simp [hn] at hnews hburst <;> omega

/-! ### The timer -/

/-- The timer has given one tick for each frame up to the cursor, and the next one is due when
the next frame is. -/
structure State.OnTime (interval : Nat) (s : State) : Prop where
  period : s.ticker.period = interval
  taken : s.ticker.taken = s.cursor.index + 1
  due : s.ticker.due = s.ticker.taken * interval

namespace State.OnTime

variable {s : State}

theorem opening (frames : Trace) (interval : Nat) (r : Receiver) (bursts : List Burst) :
    (State.opening frames interval r bursts).OnTime interval :=
  ⟨rfl, rfl, (Nat.zero_add interval).trans (Nat.one_mul interval).symm⟩

theorem due_eq (h : s.OnTime interval) : s.ticker.due = (s.cursor.index + 1) * interval := by
  rw [h.due, h.taken]

/-- A tick that is taken when it is due keeps the timer on time. -/
theorem afterFrame (h : s.OnTime interval) (htime : (s.awake sch).time = s.ticker.due) :
    (s.afterFrame sch { s.cursor with index := s.cursor.index + 1 }).OnTime interval where
  period := h.period
  taken := congrArg (· + 1) h.taken
  due := by
    show (s.awake sch).time + s.ticker.period = (s.ticker.taken + 1) * interval
    rw [htime, h.due, h.period, Nat.succ_mul]

theorem afterNews (h : s.OnTime interval) : (s.afterNews sch).OnTime interval :=
  ⟨h.period, h.taken, h.due⟩

end State.OnTime

/-! ### Between two passes -/

/-- The state in which the loop is entered first, when the first frame has been shown. -/
def Schedule.opening (sch : Schedule) (frames : Trace) (interval : Nat) : State :=
  .opening frames interval ((Receiver.fresh.receiveAll sch.before).receiveAll (sch.during 0))
    sch.bursts

/-- These signals have been given when the loop stands here; its receiver knows the flag that
they leave, and its timer is on time. -/
structure State.Follows (interval : Nat) (sch : Schedule) (signals : List Signal) (s : State) :
    Prop where
  onTime : s.OnTime interval
  heard : sch.Heard interval s.cursor.index s.time signals s.bursts
  knows : s.receiver.Knows signals

namespace State.Follows

variable {s : State} {signals : List Signal}

/-- Before the first pass. -/
theorem opening (frames : Trace) (interval : Nat) (sch : Schedule) :
    (sch.opening frames interval).Follows interval sch (sch.before ++ sch.during 0) :=
  ⟨.opening _ _ _ _, .start, Receiver.Knows.fresh.receiveAll.receiveAll⟩

/-- A pass that ends in a frame shows it when the timetable says. -/
theorem afterFrame (h : s.Follows interval sch signals) (hw : (s.awake sch).wake = .frame) :
    (s.awake sch).time = (s.cursor.index + 1) * interval ∧
      ∃ heard, (s.afterFrame sch { s.cursor with index := s.cursor.index + 1 }).Follows
        interval sch heard := by
  obtain ⟨now, heard, h', hr, -, hframe⟩ :=
    heard_await h.onTime.due_eq (sch.frameFirst s.passes) h.heard h.knows
  obtain ⟨htime, hnone⟩ := hframe hw
  have hat : (s.awake sch).time = (s.cursor.index + 1) * interval := htime.trans h.onTime.due_eq
  have hnext := h'.frame (h.onTime.due_eq ▸ hnone)
  rw [← hat] at hnext
  exact ⟨hat, _, h.onTime.afterFrame htime, hnext, hr.receiveAll⟩

theorem afterNews (h : s.Follows interval sch signals) (hw : (s.awake sch).wake = .news) :
    ∃ heard, (s.afterNews sch).Follows interval sch heard := by
  obtain ⟨now, heard, h', hr, hnews, -⟩ :=
    heard_await h.onTime.due_eq (sch.frameFirst s.passes) h.heard h.knows
  rw [← hnews hw] at h'
  exact ⟨heard, h.onTime.afterNews, h', hr.observe⟩

end State.Follows

/-! ### The rest of a replay -/

/-- All frames at their times. -/
def timetable (frames : Trace) (interval : Nat) : List Shown :=
  frames.zipIdx.map fun f => { index := f.2, pose := f.1, time := f.2 * interval }

theorem length_timetable (frames : Trace) (interval : Nat) :
    (timetable frames interval).length = frames.length := by
  unfold timetable
  rw [List.length_map, List.length_zipIdx]

/-- What follows a frame is the next frame, and what follows that. -/
theorem drop_timetable {k : Nat} {pose : Pose} (hk : frames[k]? = some pose) :
    (timetable frames interval).drop k
      = { index := k, pose, time := k * interval } :: (timetable frames interval).drop (k + 1) := by
  obtain ⟨hlt, rfl⟩ := List.getElem?_eq_some_iff.mp hk
  have hlt' : k < (timetable frames interval).length := by
    rw [length_timetable]
    exact hlt
  rw [List.drop_eq_getElem_cons hlt']
  simp [timetable]

/-- Why a replay may name a frame as the one it was cancelled at: whoever was shown the frame
wanted no more, or another frame was to follow and the flag was up when the replay ended. -/
def Schedule.Cancels (sch : Schedule) (frames : Trace) (interval k elapsed : Nat) : Prop :=
  sch.wantsMore k = false ∨
    k + 1 < frames.length ∧ ∃ signals later,
      sch.Heard interval k elapsed signals later ∧ flagAfter signals = true

/-- What a replay does after its first `n` frames. -/
structure Report.Continues (frames : Trace) (interval : Nat) (sch : Schedule) (n : Nat)
    (r : Report) : Prop where
  shown : r.shown <+: (timetable frames interval).drop n
  completed : r.outcome = .completed →
    r.shown = (timetable frames interval).drop n ∧
      ∀ j, n ≤ j → j < frames.length → sch.wantsMore j = true
  cancelled : ∀ j, r.outcome = .cancelled j →
    n + r.shown.length = j + 1 ∧ sch.Cancels frames interval j r.elapsed

namespace Report.Continues

variable {n : Nat} {r : Report}

theorem finished (hend : frames.length ≤ n) (time : Nat) (events : List Event) :
    (Report.ended .completed time events).Continues frames interval sch n := by
  refine ⟨List.nil_prefix, fun _ => ⟨?_, fun j hnj hj => ?_⟩, nofun⟩
  · rw [List.drop_of_length_le]
    · rfl
    · rw [length_timetable]
      exact hend
  · omega

theorem flagged {k time : Nat} {signals : List Signal} {later : List Burst}
    (hmore : k + 1 < frames.length) (h : sch.Heard interval k time signals later)
    (hflag : flagAfter signals = true) (events : List Event) :
    (Report.ended (.cancelled k) time events).Continues frames interval sch (k + 1) := by
  refine ⟨List.nil_prefix, nofun, fun j hj => ?_⟩
  cases hj
  exact ⟨rfl, Or.inr ⟨hmore, signals, later, h, hflag⟩⟩

theorem stopped {pose : Pose} (hn : frames[n]? = some pose) (hwants : ¬sch.wantsMore n = true)
    (time : Nat) (events : List Event) :
    ((Report.ended (.cancelled n) time events).afterFrame
      { index := n, pose, time := n * interval }).Continues frames interval sch n := by
  refine ⟨?_, nofun, fun j hj => ?_⟩
  · rw [drop_timetable hn]
    exact List.cons_prefix_cons.mpr ⟨rfl, List.nil_prefix⟩
  · cases hj
    exact ⟨rfl, Or.inl (Bool.eq_false_iff.mpr hwants)⟩

theorem afterFrame {pose : Pose} (hn : frames[n]? = some pose) (hwants : sch.wantsMore n = true)
    (h : r.Continues frames interval sch (n + 1)) :
    (r.afterFrame { index := n, pose, time := n * interval }).Continues
      frames interval sch n := by
  refine ⟨?_, fun hdone => ?_, fun j hj => ?_⟩
  · rw [drop_timetable hn]
    exact List.cons_prefix_cons.mpr ⟨rfl, h.shown⟩
  · obtain ⟨hall, hwanted⟩ := h.completed hdone
    refine ⟨?_, fun j hnj hj => ?_⟩
    · rw [drop_timetable hn, ← hall]
      rfl
    · rcases Nat.lt_or_eq_of_le hnj with hlt | rfl
      · exact hwanted j hlt hj
      · exact hwants
  · obtain ⟨hlast, hcause⟩ := h.cancelled j hj
    refine ⟨?_, hcause⟩
    show n + (r.shown.length + 1) = j + 1
    omega

/-- A pass of the loop that shows nothing changes nothing that is said here. -/
theorem afterPass (h : r.Continues frames interval sch n) :
    r.afterPass.Continues frames interval sch n :=
  ⟨h.shown, h.completed, h.cancelled⟩

end Report.Continues

/-- **From wherever the loop stands, the rest of the replay keeps to the timetable.** -/
theorem continues_loop (s : State) :
    ∀ {signals : List Signal}, s.Follows interval sch signals →
      (loop sch s).Continues s.cursor.frames interval sch (s.cursor.index + 1) := by
  fun_induction loop sch s with
  | case1 s hend =>
      intro signals h
      exact .finished (Cursor.atEnd_iff_le.mp hend) _ _
  | case2 s hmore hflag =>
      intro signals h
      have hlt := Nat.lt_of_not_le (mt Cursor.atEnd_iff_le.mpr hmore)
      exact (Report.Continues.flagged hlt h.heard (h.knows.flag ▸ hflag) _).afterPass
  | case3 s hmore hflag hw pose cursor hn hwants ih =>
      intro signals h
      obtain ⟨hpose, rfl⟩ := Cursor.next_eq_some_iff.mp hn
      obtain ⟨hat, heard, hnext⟩ := h.afterFrame hw
      rw [hat]
      exact ((ih hnext).afterFrame hpose hwants).afterPass
  | case4 s hmore hflag hw pose cursor hn hwants =>
      intro signals h
      obtain ⟨hpose, rfl⟩ := Cursor.next_eq_some_iff.mp hn
      rw [(h.afterFrame hw).1]
      exact (Report.Continues.stopped hpose hwants _ _).afterPass
  | case5 s hmore hflag hw cursor hn ih => exact absurd (Cursor.next_eq_none hn).1 hmore
  | case6 s hmore hflag hw ih =>
      intro signals h
      obtain ⟨heard, hnext⟩ := h.afterNews hw
      exact (ih hnext).afterPass

theorem run_nil (settings : ReplaySettings) (sch : Schedule) :
    run [] settings sch = .ended .completed 0 [.replayFinished 0] :=
  loop_of_atEnd rfl

/-- A whole replay keeps to the timetable. -/
theorem continues_run (frames : Trace) (settings : ReplaySettings) (sch : Schedule) :
    (run frames settings sch).Continues frames settings.interval sch 0 := by
  cases frames with
  | nil =>
      rw [run_nil]
      exact .finished (Nat.le_refl _) _ _
  | cons pose rest =>
      have hfirst : (pose :: rest)[0]? = some pose := rfl
      have hzero : ({ index := 0, pose, time := 0 } : Shown)
          = { index := 0, pose, time := 0 * settings.interval } := by
        rw [Nat.zero_mul]
      unfold run
      simp only [Cursor.frame?, Cursor.atStart, hfirst, hzero]
      by_cases hwants : sch.wantsMore 0 = true
      · rw [if_pos hwants]
        have hrest := continues_loop _ (.opening (pose :: rest) settings.interval sch)
        exact hrest.afterFrame hfirst hwants
      · rw [if_neg hwants]
        exact .stopped hfirst hwants 0 []

/--
**A replay shows a first part of its timetable and says truly how it ended.**  Frame `k` is
shown at `k` times the interval, which is never less than a millisecond.  The replay
completes exactly if every frame was shown and every answer was to go on; if it names a
frame as the one it was cancelled at, that is the last one shown, and either it was not
wanted to go on from there, or more was to come and the flag was up.
-/
theorem run_keeps_to_timetable (frames : Trace) (settings : ReplaySettings) (sch : Schedule) :
    let interval := max settings.stepInterval 1 * millisecond
    (run frames settings sch).shown <+: timetable frames interval ∧
      ((run frames settings sch).outcome = .completed ↔
        (run frames settings sch).shown = timetable frames interval ∧
          ∀ k < frames.length, sch.wantsMore k = true) ∧
      ∀ k, (run frames settings sch).outcome = .cancelled k →
        (run frames settings sch).shown.length = k + 1 ∧
          sch.Cancels frames interval k (run frames settings sch).elapsed := by
  intro interval
  have hrun := continues_run frames settings sch
  have hcancelled : ∀ k, (run frames settings sch).outcome = .cancelled k →
      (run frames settings sch).shown.length = k + 1 ∧
        sch.Cancels frames settings.interval k (run frames settings sch).elapsed := by
    intro k hk
    obtain ⟨hlast, hcause⟩ := hrun.cancelled k hk
    exact ⟨by omega, hcause⟩
  refine ⟨hrun.shown, ⟨fun hdone => ?_, fun hall => ?_⟩, hcancelled⟩
  · obtain ⟨hshown, hwanted⟩ := hrun.completed hdone
    exact ⟨hshown, fun k hk => hwanted k (Nat.zero_le k) hk⟩
  · obtain ⟨hshown, hwanted⟩ := hall
    cases hout : (run frames settings sch).outcome with
    | completed => rfl
    | cancelled k =>
        obtain ⟨hlast, hcause⟩ := hcancelled k hout
        rw [hshown, length_timetable] at hlast
        rcases hcause with hno | ⟨hmore, -⟩
        · rw [hwanted k (by omega)] at hno
          cases hno
        · omega

/-- The flag goes up between the second frame and the third. -/
theorem run_keeps_to_timetable_nook :
    let frames := (Level.nook.run Program.throughNook).trace
    let sch : Schedule :=
      { bursts := [{ time := 700 * millisecond, early := false,
                     signals := [.send false, .send true] }] }
    (run frames {} sch).outcome = .cancelled 1 ∧ (run frames {} sch).shown.length = 2 ∧
      sch.Cancels frames (400 * millisecond) 1 (run frames {} sch).elapsed := by
  intro frames sch
  -- The passes: the second frame, the news of the flag, and the look at it.
  let first : State := .opening frames (400 * millisecond) .fresh sch.bursts
  let second : State := first.afterFrame sch ⟨frames, 1⟩
  let third : State := second.afterNews sch
  have hframe : (first.awake sch).wake = .frame := by decide +kernel
  have hcalm : second.receiver.flag = false := by decide +kernel
  have hnews : (second.awake sch).wake = .news := by decide +kernel
  have hraised : third.receiver.flag = true := by decide +kernel
  have hout : (run frames {} sch).outcome = .cancelled 1 := by
    show (loop sch first).outcome = _
    rw [loop_of_frame (by decide) rfl hframe rfl]
    show (loop sch second).outcome = _
    rw [loop_of_news (by decide) hcalm hnews]
    show (loop sch third).outcome = _
    rw [loop_of_flag (by decide) hraised]
    rfl
  exact ⟨hout, (run_keeps_to_timetable frames {} sch).2.2 1 hout⟩

end RobotMaze.Replay
