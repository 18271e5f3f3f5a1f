/-
What the channel carries does not show as long as the flag stays down.

Someone may send again and again that the replay need not stop, at any instant, and may go
away at any instant.  Each of these signals can wake the replay and send it through its loop
once more, and which of a due frame and such news is taken first is left to chance.  None of
it may be seen: the frames, their times, the end and its time have to be those of a replay to
which nothing is ever sent.

The two replays are compared pass by pass.  A pass that ends in a frame is matched by a pass
of the silent replay, and a pass that ends in news is matched by none (`seenAs_loop`).  It
is the flag alone through which a signal could matter, and the flag stays down because the
signals heard so far are all that it depends on (`Receiver.Knows`, `Schedule.Heard`).  That a
pass with news costs no time is in `heard_await` already: the frame comes when it is due,
however often the wait was interrupted.
-/
import RobotMaze.Proofs.Replay.Cancellation

namespace RobotMaze.Replay

/-! ### Two replays that look alike -/

/-- One replay shows, reports and logs what the other does.  How often it went through its loop
does not count. -/
structure Report.SeenAs (r q : Report) : Prop where
  shown : r.shown = q.shown
  outcome : r.outcome = q.outcome
  elapsed : r.elapsed = q.elapsed
  events : r.events = q.events

namespace Report.SeenAs

variable {r q : Report}

theorem refl (r : Report) : r.SeenAs r :=
  ⟨rfl, rfl, rfl, rfl⟩

theorem afterFrame (h : r.SeenAs q) (s : Shown) : (r.afterFrame s).SeenAs (q.afterFrame s) :=
  ⟨congrArg (s :: ·) h.shown, h.outcome, h.elapsed, h.events⟩

theorem afterPass (h : r.SeenAs q) : r.afterPass.SeenAs q.afterPass :=
  ⟨h.shown, h.outcome, h.elapsed, h.events⟩

/-- A pass of one replay alone is not seen. -/
theorem afterWake (h : r.SeenAs q) : r.afterPass.SeenAs q :=
  ⟨h.shown, h.outcome, h.elapsed, h.events⟩

end Report.SeenAs

/-! ### Signals that leave the flag down -/

/-- The flag is never raised: whatever is sent says that the replay may go on. -/
structure Schedule.NeverRaises (sch : Schedule) : Prop where
  before : .send true ∉ sch.before
  during : ∀ k, .send true ∉ sch.during k
  bursts : ∀ b ∈ sch.bursts, .send true ∉ b.signals

theorem flagFrom_eq_false {signals : List Signal} (h : .send true ∉ signals) :
    flagFrom false signals = false := by
  induction signals with
  | nil => rfl
  | cons signal signals ih =>
      rw [List.mem_cons, not_or] at h
      obtain ⟨hne, hrest⟩ := h
      cases signal with
      | leave => rfl
      | send flag =>
          cases flag with
          | false => exact ih hrest
          | true => exact absurd rfl hne

variable {frames : Trace} {interval : Nat} {sch : Schedule}

/-- What is heard at any instant, and what is still to come, does not raise the flag. -/
theorem Schedule.Heard.neverRaises {frame now : Nat} {signals : List Signal} {later : List Burst}
    (h : sch.Heard interval frame now signals later) (hnever : sch.NeverRaises) :
    .send true ∉ signals ∧ ∀ b ∈ later, .send true ∉ b.signals := by
  induction h with
  | start => exact ⟨List.not_mem_append hnever.before (hnever.during 0), hnever.bursts⟩
  | burst _ _ ih =>
      obtain ⟨hheard, hlater⟩ := ih
      obtain ⟨hb, hlater⟩ := List.forall_mem_cons.mp hlater
      exact ⟨List.not_mem_append hheard hb, hlater⟩
  | frame _ _ ih => exact ⟨List.not_mem_append ih.1 (hnever.during _), ih.2⟩

/-! ### The silent replay -/

/-- A schedule in which nothing is ever sent; only whoever is shown the frames has a say. -/
def Schedule.silent (wantsMore : Nat → Bool) : Schedule where
  wantsMore := wantsMore

/-- The state of a replay to which nothing was sent, when a frame has just been shown. -/
def State.silent (frames : Trace) (interval frame passes : Nat) : State where
  cursor := { frames, index := frame }
  time := frame * interval
  ticker := { period := interval, due := (frame + 1) * interval, taken := frame + 1 }
  receiver := .fresh
  bursts := []
  passes := passes

/-- The silent replay shows the next frame with its next pass. -/
theorem loop_silent {wantsMore : Nat → Bool} {k : Nat} {pose : Pose}
    (hk : frames[k + 1]? = some pose) (passes : Nat) :
    let next := { index := k + 1, pose, time := (k + 1) * interval }
    loop (.silent wantsMore) (.silent frames interval k passes) =
      if wantsMore (k + 1) then
        ((loop (.silent wantsMore)
          (.silent frames interval (k + 1) (passes + 1))).afterFrame next).afterPass
      else
        ((Report.ended (.cancelled (k + 1)) ((k + 1) * interval)
          [.replayStopped (k + 1)]).afterFrame next).afterPass := by
  let s : State := .silent frames interval k passes
  let sch : Schedule := .silent wantsMore
  have hmax : max (k * interval) ((k + 1) * interval) = (k + 1) * interval :=
    Nat.max_eq_right (Nat.mul_le_mul_right _ (Nat.le_succ k))
  have hawake : s.awake sch = ⟨.frame, (k + 1) * interval, .fresh, []⟩ := by
    show await ((k + 1) * interval) true (k * interval) .fresh [] = _
    simp [await, Receiver.hasNews, Receiver.fresh, hmax]
  have hnext : s.afterFrame sch { frames, index := k + 1 }
      = .silent frames interval (k + 1) (passes + 1) := by
    simp only [State.afterFrame, State.afterTick, hawake]
    exact congrArg (fun due => State.mk _ _ ⟨interval, due, k + 2⟩ .fresh [] _)
      (Nat.succ_mul (k + 1) interval).symm
  have hmore : ¬s.cursor.atEnd = true :=
    mt Cursor.atEnd_iff_le.mp (Nat.not_le_of_lt (List.getElem?_eq_some_iff.mp hk).1)
  have hstep : s.cursor.next = (some pose, { frames, index := k + 1 }) :=
    Cursor.next_eq_some_iff.mpr ⟨hk, rfl⟩
  have hw : (s.awake sch).wake = .frame := by rw [hawake]
  have hpass := loop_of_frame hmore rfl hw hstep
  rw [hnext, hawake] at hpass
  exact hpass

/-! ### Signals that do not show -/

/-- **Pass by pass a replay whose flag is never raised looks like the silent one.** -/
theorem seenAs_loop (hnever : sch.NeverRaises) (s : State) :
    ∀ {signals : List Signal}, s.Follows interval sch signals →
      (s.cursor.atEnd = true → s.time = s.cursor.index * interval) →
        ∀ passes, (loop sch s).SeenAs
          (loop (.silent sch.wantsMore)
            (.silent s.cursor.frames interval s.cursor.index passes)) := by
  fun_induction loop sch s with
  | case1 s hend =>
      intro signals h hlast passes
      rw [loop_of_atEnd (s := .silent s.cursor.frames interval s.cursor.index passes) hend,
        hlast hend]
      exact .refl _
  | case2 s _ hflag =>
      intro signals h
      have hdown : s.receiver.flag = false :=
        h.knows.flag.trans (flagFrom_eq_false (h.heard.neverRaises hnever).1)
      exact absurd (hdown.symm.trans hflag) Bool.false_ne_true
  | case3 s _ _ hw pose cursor hn hwants ih =>
      intro signals h _ passes
      obtain ⟨hpose, rfl⟩ := Cursor.next_eq_some_iff.mp hn
      obtain ⟨hat, heard, hnext⟩ := h.afterFrame hw
      rw [loop_silent hpose, if_pos hwants, hat]
      exact ((ih hnext (fun _ => hat) (passes + 1)).afterFrame _).afterPass
  | case4 s _ _ hw pose cursor hn hno =>
      intro signals h _ passes
      obtain ⟨hpose, rfl⟩ := Cursor.next_eq_some_iff.mp hn
      rw [loop_silent hpose, if_neg hno, (h.afterFrame hw).1]
      exact .refl _
  | case5 s hmore _ hw cursor hn => exact absurd (Cursor.next_eq_none hn).1 hmore
  | case6 s hmore _ hw ih =>
      -- The channel woke the replay: nothing is seen, and no frame is any later for it.
      intro signals h _ passes
      obtain ⟨heard, hnext⟩ := h.afterNews hw
      exact (ih hnext (fun hend => absurd hend hmore) passes).afterWake

/-- Both replays begin with the same state of the loop but for what was sent until then. -/
theorem seenAs_opening (hnever : sch.NeverRaises) :
    (loop sch (sch.opening frames interval)).SeenAs
      (loop (.silent sch.wantsMore)
        ((Schedule.silent sch.wantsMore).opening frames interval)) := by
  have hstart : State.silent frames interval 0 0
      = (Schedule.silent sch.wantsMore).opening frames interval := by
    simp only [State.silent, Schedule.opening, State.opening, Ticker.tick, Ticker.start,
      Nat.zero_mul, Nat.zero_add, Nat.one_mul]
    rfl
  rw [← hstart]
  exact seenAs_loop hnever (sch.opening frames interval) (.opening frames interval sch)
    (fun _ => (Nat.zero_mul interval).symm) 0

/-- A replay with which nobody interferes completes with its last frame. -/
theorem run_quiet (hframes : frames ≠ []) (settings : ReplaySettings) :
    (run frames settings .quiet).shown = timetable frames settings.interval ∧
      (run frames settings .quiet).outcome = .completed ∧
        (run frames settings .quiet).elapsed = (frames.length - 1) * settings.interval := by
  have hnone : Calm [] := fun _ h => absurd h List.not_mem_nil
  have hending : (run frames settings .quiet).ending
      = (.completed, (frames.length - 1) * settings.interval) :=
    (ending_run hframes rfl).trans
      (ending_opening_of_calm hframes (fun _ => rfl) hnone (fun _ _ => hnone) .nil)
  have hdone : (run frames settings .quiet).outcome = .completed := congrArg Prod.fst hending
  exact ⟨((continues_run frames settings .quiet).completed hdone).1, hdone,
    congrArg Prod.snd hending⟩

/--
**What a replay is sent does not show as long as the flag stays down.**  Whoever may stop the
replay sends any number of times that it may go on, before it starts, while a frame is shown
and at any instant in between, and leaves or stays: the frames and their times, the end and
its time and what is logged are those of a replay with the same audience to which nothing is
sent.  How the replay takes turns with the channel does not matter.
-/
theorem lowered_flag_does_not_show (frames : Trace) (settings : ReplaySettings) (sch : Schedule)
    (hnever : sch.NeverRaises) :
    (run frames settings sch).SeenAs (run frames settings (.silent sch.wantsMore)) := by
  cases frames with
  | nil =>
      rw [run_nil, run_nil]
      exact .refl _
  | cons pose rest =>
      unfold run
      simp only [Cursor.frame?, Cursor.atStart, List.getElem?_cons_zero]
      by_cases hwants : sch.wantsMore 0 = true
      · have hsilent : (Schedule.silent sch.wantsMore).wantsMore 0 = true := hwants
        rw [if_pos hwants, if_pos hsilent]
        exact (seenAs_opening hnever).afterFrame _
      · have hsilent : ¬(Schedule.silent sch.wantsMore).wantsMore 0 = true := hwants
        rw [if_neg hwants, if_neg hsilent]
        exact .refl _

/-- Signals from before the start to after the fourth frame, two of them at the instants of
frames, and a sender who leaves in between. -/
theorem lowered_flag_does_not_show_nook :
    let frames := (Level.nook.run Program.throughNook).trace
    let sch : Schedule :=
      { before := [.send false]
        during := fun k => if k = 1 then [.send false, .send false] else []
        bursts := [{ time := 400 * millisecond, early := true, signals := [.send false] },
          { time := 700 * millisecond, early := false, signals := [.send false] },
          { time := 1200 * millisecond, early := false, signals := [.send false, .leave] },
          { time := 1300 * millisecond, early := true, signals := [.send false] }]
        frameFirst := fun pass => pass % 2 = 0 }
    sch.NeverRaises ∧ (run frames {} sch).SeenAs (run frames {} .quiet) ∧
      (run frames {} sch).shown = timetable frames (400 * millisecond) ∧
      (run frames {} sch).outcome = .completed ∧
      (run frames {} sch).elapsed = 2000 * millisecond := by
  intro frames sch
  have hduring : ∀ k, .send true ∉ sch.during k := by
    intro k
    show _ ∉ if k = 1 then _ else _
    split <;> decide
  have hnever : sch.NeverRaises := ⟨by decide, hduring, by decide⟩
  have hseen : (run frames {} sch).SeenAs (run frames {} .quiet) :=
    lowered_flag_does_not_show frames {} sch hnever
  have hframes : frames ≠ [] := by decide
  obtain ⟨hshown, houtcome, helapsed⟩ := run_quiet hframes {}
  have hinterval : ({} : ReplaySettings).interval = 400 * millisecond := rfl
  have hend : (frames.length - 1) * (400 * millisecond) = 2000 * millisecond := by decide
  rw [hinterval] at hshown helapsed
  exact ⟨hnever, hseen, hseen.shown.trans hshown, hseen.outcome.trans houtcome,
    hseen.elapsed.trans (helapsed.trans hend)⟩

end RobotMaze.Replay
