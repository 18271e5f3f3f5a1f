/-
A replay does not spin.

Once the sender has left, the channel would have news for good, and a replay that kept on
listening would go through its loop without end and without a frame.  It takes note of the
departure once and listens no longer, so each of its passes uses up something of which there is
only so much: a frame that is still to be shown, a value that was sent, the departure, or
the replay itself, which ends when it finds the flag up.

`State.left` counts these things, each for itself: what the receiver has to tell, what is on its
way to it, and what is to come with the frames.  A pass takes one from the count of that in
which it ends and raises none (`Pass.left_le`), so the passes of a whole replay that end in one of
these ways are no more than there were of it at the start (`Passes.count_le`).  Of several values
that are sent before the replay looks only the last can be noted; therefore a value counts for
itself as long as it is on its way, and a receiver that has not seen what it got counts one.
-/
import Mathlib.Algebra.Order.BigOperators.Group.LocallyFinite
import RobotMaze.Proofs.Replay.Cancellation

namespace RobotMaze.Replay

/-! ### What the passes end in -/

/-- What a pass of the loop ends in. -/
inductive PassEnd where
  /-- A frame was shown. -/
  | frame
  /-- The replay took note of a value that was sent. -/
  | value
  /-- The replay took note that the sender is gone. -/
  | departure
  /-- The replay found the flag up and stopped. -/
  | flag
deriving DecidableEq

/-- What a replay takes note of that is woken by the channel: a value that it has not seen, or
else that the sender is gone. -/
def Receiver.news (r : Receiver) : PassEnd :=
  if r.unseen then .value else .departure

/-- What a pass of the loop ends in, and the state in which the next one begins; there is none
if the replay ends with this pass. -/
inductive Pass (sch : Schedule) (s : State) : PassEnd → Option State → Prop
  | flag (hflag : s.receiver.flag = true) : Pass sch s .flag none
  | frame {pose : Pose} {cursor : Cursor} (hflag : s.receiver.flag = false)
      (hwake : (s.awake sch).wake = .frame) (hnext : s.cursor.next = (some pose, cursor))
      (hwants : sch.wantsMore cursor.index = true) :
      Pass sch s .frame (some (s.afterFrame sch cursor))
  | lastFrame {pose : Pose} {cursor : Cursor} (hflag : s.receiver.flag = false)
      (hwake : (s.awake sch).wake = .frame) (hnext : s.cursor.next = (some pose, cursor))
      (hwants : sch.wantsMore cursor.index = false) : Pass sch s .frame none
  | news (hflag : s.receiver.flag = false) (hwake : (s.awake sch).wake = .news) :
      Pass sch s (s.awake sch).receiver.news (some (s.afterNews sch))

/-- What the passes of the loop end in, one after another, from a state on. -/
inductive Passes (sch : Schedule) : State → List PassEnd → Prop
  | none {s : State} (hend : s.cursor.atEnd = true) : Passes sch s []
  | last {s : State} {e : PassEnd} (hmore : ¬s.cursor.atEnd = true) (h : Pass sch s e none) :
      Passes sch s [e]
  | more {s t : State} {e : PassEnd} {ends : List PassEnd} (hmore : ¬s.cursor.atEnd = true)
      (h : Pass sch s e (some t)) (hrest : Passes sch t ends) : Passes sch s (e :: ends)

variable {frames : Trace} {interval : Nat} {sch : Schedule} {s t : State} {e : PassEnd}
  {ends : List PassEnd}

/-- **The passes of the loop are as many as it counts.** -/
theorem exists_passes (sch : Schedule) (s : State) :
    ∃ ends, Passes sch s ends ∧ (loop sch s).passes = ends.length := by
  fun_induction loop sch s with
  | case1 s hend => exact ⟨[], .none hend, rfl⟩
  | case2 s hmore hflag => exact ⟨[.flag], .last hmore (.flag hflag), rfl⟩
  | case3 s hmore hflag hw pose cursor hn hwants ih =>
      obtain ⟨ends, hrest, hpasses⟩ := ih
      exact ⟨.frame :: ends, .more hmore (.frame (Bool.eq_false_iff.mpr hflag) hw hn hwants) hrest,
        congrArg (· + 1) hpasses⟩
  | case4 s hmore hflag hw pose cursor hn hno =>
      have hno' := Bool.eq_false_iff.mpr hno
      exact ⟨[.frame], .last hmore (.lastFrame (Bool.eq_false_iff.mpr hflag) hw hn hno'), rfl⟩
  | case5 s hmore hflag hw cursor hn => exact absurd (Cursor.next_eq_none hn).1 hmore
  | case6 s hmore hflag hw ih =>
      obtain ⟨ends, hrest, hpasses⟩ := ih
      exact ⟨(s.awake sch).receiver.news :: ends,
        .more hmore (.news (Bool.eq_false_iff.mpr hflag) hw) hrest, congrArg (· + 1) hpasses⟩

/-- Nothing about a pass is left open. -/
theorem Pass.unique {e' : PassEnd} {t t' : Option State} (h : Pass sch s e t)
    (h' : Pass sch s e' t') : e = e' ∧ t = t' := by
  -- The flag, what the wait ended with and the answer to the frame tell the cases apart.
  cases h <;> cases h' <;> simp_all

theorem Passes.unique (h : Passes sch s ends) :
    ∀ {ends' : List PassEnd}, Passes sch s ends' → ends = ends' := by
  induction h with
  | none hend =>
      intro ends' h'
      cases h' with
      | none => rfl
      | last hmore => exact absurd hend hmore
      | more hmore => exact absurd hend hmore
  | last hmore h =>
      intro ends' h'
      cases h' with
      | none hend => exact absurd hend hmore
      | last _ h' => rw [(h.unique h').1]
      | more _ h' => cases (h.unique h').2
  | more hmore h hrest ih =>
      intro ends' h'
      cases h' with
      | none hend => exact absurd hend hmore
      | last _ h' => cases (h.unique h').2
      | more _ h' hrest' =>
          obtain ⟨rfl, heq⟩ := h.unique h'
          cases heq
          rw [ih hrest']

/-! ### What a pass can use up -/

def Signal.isSend : Signal → Bool
  | .send _ => true
  | .leave => false

/-- How many values are sent with these signals. -/
def sends (signals : List Signal) : Nat :=
  signals.countP Signal.isSend

/-- How many values are sent to a replay of `n` frames. -/
def Schedule.sends (sch : Schedule) (n : Nat) : Nat :=
  Replay.sends sch.before + ∑ k ∈ Finset.range n, Replay.sends (sch.during k)
    + Replay.sends (sch.bursts.flatMap Burst.signals)

/-- How many passes these signals can make end in this way.  That the sender leaves is told once
however often it does, and does not count here. -/
def arrivals (signals : List Signal) : PassEnd → Nat
  | .value => sends signals
  | _ => 0

/-- How many passes can end in this way by what the receiver has to tell. -/
def Receiver.left (r : Receiver) : PassEnd → Nat
  | .value => if r.unseen then 1 else 0
  | .departure => if r.listening then 1 else 0
  | _ => 0

/-- How many passes can end in this way by what comes with the frames after this one, of `n`, and
by the end of the replay. -/
def Schedule.left (sch : Schedule) (n frame : Nat) : PassEnd → Nat
  | .frame => n - (frame + 1)
  | .value => ∑ k ∈ Finset.Ico (frame + 1) n, Replay.sends (sch.during k)
  | .departure => 0
  | .flag => 1

/-- How many passes of a replay of `n` frames there can still be that end in this way. -/
def State.left (sch : Schedule) (n : Nat) (s : State) (e : PassEnd) : Nat :=
  s.receiver.left e + arrivals (s.bursts.flatMap Burst.signals) e + sch.left n s.cursor.index e

theorem arrivals_append (signals more : List Signal) (e : PassEnd) :
    arrivals (signals ++ more) e = arrivals signals e + arrivals more e := by
  cases e with
  | value => exact List.countP_append
  | frame | departure | flag => rfl

namespace Receiver

variable {r : Receiver}

theorem left_receive_le (r : Receiver) (signal : Signal) (e : PassEnd) :
    (r.receive signal).left e ≤ r.left e + arrivals [signal] e := by
  cases signal with
  | leave => cases e <;> exact Nat.le_add_right _ _
  | send flag =>
      cases hclosed : r.closed <;> cases hunseen : r.unseen <;> cases e <;>
        simp [receive, left, arrivals, sends, Signal.isSend, hclosed, hunseen]

theorem left_receiveAll_le (signals : List Signal) (e : PassEnd) :
    ∀ r : Receiver, (r.receiveAll signals).left e ≤ r.left e + arrivals signals e := by
  induction signals with
  | nil => exact fun r => Nat.le_add_right _ _
  | cons signal signals ih =>
      intro r
      have hfirst := r.left_receive_le signal e
      have hrest : (r.receiveAll (signal :: signals)).left e
          ≤ (r.receive signal).left e + arrivals signals e := ih (r.receive signal)
      have hsplit : arrivals (signal :: signals) e = arrivals [signal] e + arrivals signals e :=
        arrivals_append [signal] signals e
      omega

/-- What was told is not told again: a value has been seen then, and after the departure of the
sender nobody listens. -/
theorem left_observe_le (h : r.hasNews = true) (e : PassEnd) :
    r.observe.left e + [r.news].count e ≤ r.left e := by
  have hlistening : r.listening = true := (Bool.and_eq_true_iff.mp h).1
  cases hunseen : r.unseen <;> cases e <;> simp [observe, left, news, hunseen, hlistening]

end Receiver

/-- What reaches the replay while it waits was on its way before. -/
theorem left_await_le (due : Nat) (frameFirst : Bool) (time : Nat) (r : Receiver)
    (bursts : List Burst) (e : PassEnd) :
    (await due frameFirst time r bursts).receiver.left e
        + arrivals ((await due frameFirst time r bursts).bursts.flatMap Burst.signals) e
      ≤ r.left e + arrivals (bursts.flatMap Burst.signals) e := by
  fun_induction await due frameFirst time r bursts with
  | case1 | case2 | case3 | case5 => exact Nat.le_refl _
  | case4 time r b bs _ _ ih =>
      have hreceived := Receiver.left_receiveAll_le b.signals e r
      rw [List.flatMap_cons, arrivals_append]
      omega

/-- A frame uses up itself and what comes with it. -/
theorem Schedule.left_succ_le {n frame : Nat} (hmore : frame + 1 < n) (e : PassEnd) :
    sch.left n (frame + 1) e + arrivals (sch.during (frame + 1)) e + [PassEnd.frame].count e
      ≤ sch.left n frame e := by
  cases e with
  | frame =>
      show n - (frame + 1 + 1) + 0 + 1 ≤ n - (frame + 1)
      omega
  | value =>
      have hsum := Finset.sum_eq_sum_Ico_succ_bot hmore fun k => Replay.sends (sch.during k)
      show ∑ k ∈ Finset.Ico (frame + 1 + 1) n, Replay.sends (sch.during k)
          + Replay.sends (sch.during (frame + 1)) + 0
        ≤ ∑ k ∈ Finset.Ico (frame + 1) n, Replay.sends (sch.during k)
      omega
  | departure | flag => exact Nat.le_refl _

/-! ### What a pass does use up -/

theorem State.left_afterFrame_le {n : Nat} {cursor : Cursor}
    (hcursor : cursor.index = s.cursor.index + 1) (hmore : s.cursor.index + 1 < n) (e : PassEnd) :
    (s.afterFrame sch cursor).left sch n e + [PassEnd.frame].count e ≤ s.left sch n e := by
  let a := s.awake sch
  have hawait : a.receiver.left e + arrivals (a.bursts.flatMap Burst.signals) e
      ≤ s.receiver.left e + arrivals (s.bursts.flatMap Burst.signals) e := left_await_le _ _ _ _ _ e
  have hduring := Receiver.left_receiveAll_le (sch.during cursor.index) e a.receiver
  have hframe : sch.left n cursor.index e + arrivals (sch.during cursor.index) e
      + [PassEnd.frame].count e ≤ sch.left n s.cursor.index e :=
    hcursor ▸ Schedule.left_succ_le hmore e
  show (a.receiver.receiveAll (sch.during cursor.index)).left e
      + arrivals (a.bursts.flatMap Burst.signals) e + sch.left n cursor.index e
      + [PassEnd.frame].count e
    ≤ s.receiver.left e + arrivals (s.bursts.flatMap Burst.signals) e
      + sch.left n s.cursor.index e
  omega

theorem State.left_afterNews_le (hwake : (s.awake sch).wake = .news) (n : Nat) (e : PassEnd) :
    (s.afterNews sch).left sch n e + [(s.awake sch).receiver.news].count e ≤ s.left sch n e := by
  let a := s.awake sch
  have hawait : a.receiver.left e + arrivals (a.bursts.flatMap Burst.signals) e
      ≤ s.receiver.left e + arrivals (s.bursts.flatMap Burst.signals) e := left_await_le _ _ _ _ _ e
  have hobserve : a.receiver.observe.left e + [a.receiver.news].count e ≤ a.receiver.left e :=
    Receiver.left_observe_le (hasNews_of_await hwake) e
  show a.receiver.observe.left e + arrivals (a.bursts.flatMap Burst.signals) e
      + sch.left n s.cursor.index e + [a.receiver.news].count e
    ≤ s.receiver.left e + arrivals (s.bursts.flatMap Burst.signals) e
      + sch.left n s.cursor.index e
  omega

/-- **A pass uses up one of what it ends in, and nothing else becomes more.** -/
theorem Pass.left_le (h : Pass sch s e (some t)) {n : Nat} (hmore : s.cursor.index + 1 < n)
    (e' : PassEnd) : t.left sch n e' + [e].count e' ≤ s.left sch n e' := by
  cases h with
  | frame _ _ hnext =>
      obtain ⟨-, rfl⟩ := Cursor.next_eq_some_iff.mp hnext
      exact State.left_afterFrame_le rfl hmore e'
  | news _ hwake => exact s.left_afterNews_le hwake n e'

/-- A pass stays on its trace. -/
theorem Pass.frames_eq (h : Pass sch s e (some t)) : t.cursor.frames = s.cursor.frames := by
  cases h with
  | frame _ _ hnext =>
      obtain ⟨-, rfl⟩ := Cursor.next_eq_some_iff.mp hnext
      rfl
  | news => rfl

/-- The last pass ends in something of which there is one left. -/
theorem Pass.one_le_left (h : Pass sch s e none) {n : Nat} (hmore : s.cursor.index + 1 < n) :
    1 ≤ s.left sch n e := by
  have hleft : 1 ≤ sch.left n s.cursor.index e := by
    cases h with
    | flag => exact Nat.le_refl 1
    | lastFrame => exact Nat.sub_pos_of_lt hmore
  exact Nat.le_add_left_of_le hleft

/-- **No more passes end in one of these ways than there is of it.** -/
theorem Passes.count_le (h : Passes sch s ends) (e : PassEnd) :
    ends.count e ≤ s.left sch s.cursor.frames.length e := by
  induction h with
  | none => exact Nat.zero_le _
  | @last s e' hmore h =>
      rw [List.count_singleton]
      split
      · next heq =>
          rw [← beq_iff_eq.mp heq]
          exact h.one_le_left (Nat.lt_of_not_le (mt Cursor.atEnd_iff_le.mpr hmore))
      · exact Nat.zero_le _
  | @more s t e' ends hmore h hrest ih =>
      have hpass := h.left_le (Nat.lt_of_not_le (mt Cursor.atEnd_iff_le.mpr hmore)) e
      have hcount : ([e'] ++ ends).count e = [e'].count e + ends.count e := List.count_append
      rw [List.singleton_append] at hcount
      rw [h.frames_eq] at ih
      omega

/-! ### The whole replay -/

/-- What the passes of a replay end in; there is none if the first frame is enough for whoever
it is shown to. -/
def Schedule.Ends (sch : Schedule) (frames : Trace) (interval : Nat) (ends : List PassEnd) : Prop :=
  if sch.wantsMore 0 then Passes sch (sch.opening frames interval) ends else ends = []

theorem existsUnique_ends (frames : Trace) (interval : Nat) (sch : Schedule) :
    ∃! ends, sch.Ends frames interval ends := by
  unfold Schedule.Ends
  split
  · obtain ⟨ends, hends, -⟩ := exists_passes sch (sch.opening frames interval)
    exact ⟨ends, hends, fun ends' h => h.unique hends⟩
  · exact ⟨[], rfl, fun ends' h => h⟩

theorem Schedule.Ends.passes_run {settings : ReplaySettings} (hframes : frames ≠ [])
    (h : sch.Ends frames settings.interval ends) :
    (run frames settings sch).passes = ends.length := by
  obtain ⟨pose, rest, rfl⟩ := List.exists_cons_of_ne_nil hframes
  unfold Schedule.Ends at h
  unfold run
  simp only [Cursor.frame?, Cursor.atStart, List.getElem?_cons_zero]
  split at h
  · next hwants =>
      obtain ⟨ends', hends, hpasses⟩ :=
        exists_passes sch (sch.opening (pose :: rest) settings.interval)
      rw [if_pos hwants, h.unique hends]
      exact hpasses
  · next hno =>
      rw [if_neg hno, h]
      rfl

/-- Each pass of a replay ends in one of the four ways. -/
theorem length_ends (ends : List PassEnd) :
    ends.length
      = ends.count .frame + ends.count .value + ends.count .departure + ends.count .flag := by
  induction ends with
  | nil => rfl
  | cons e ends ih => cases e <;> simp [ih] <;> omega

/-- How many passes of a replay of `n` frames may end in this way. -/
def Schedule.limit (sch : Schedule) (n : Nat) : PassEnd → Nat
  | .frame => n - 1
  | .value => sch.sends n
  | .departure => 1
  | .flag => 1

/-- Whatever can make a pass of a replay end in this way comes before the first wait, or after it
in between two frames or with one. -/
theorem Schedule.limit_eq {n : Nat} (hn : 0 < n) (e : PassEnd) :
    sch.limit n e = Receiver.fresh.left e + arrivals sch.before e + arrivals (sch.during 0) e
      + arrivals (sch.bursts.flatMap Burst.signals) e + sch.left n 0 e := by
  cases e with
  | frame => exact (Nat.zero_add _).symm
  | value =>
      have hsum := Finset.sum_eq_sum_Ico_succ_bot hn fun k => Replay.sends (sch.during k)
      show Replay.sends sch.before + ∑ k ∈ Finset.range n, Replay.sends (sch.during k)
          + Replay.sends (sch.bursts.flatMap Burst.signals)
        = 0 + Replay.sends sch.before + Replay.sends (sch.during 0)
          + Replay.sends (sch.bursts.flatMap Burst.signals)
          + ∑ k ∈ Finset.Ico (0 + 1) n, Replay.sends (sch.during k)
      rw [Finset.range_eq_Ico]
      omega
  | departure | flag => rfl

/-- What was sent before the first wait has not been seen yet. -/
theorem Schedule.left_opening_le {n : Nat} (hn : 0 < n) (e : PassEnd) :
    (sch.opening frames interval).left sch n e ≤ sch.limit n e := by
  let r := Receiver.fresh.receiveAll sch.before
  have hbefore : r.left e ≤ Receiver.fresh.left e + arrivals sch.before e :=
    Receiver.left_receiveAll_le sch.before e .fresh
  have hduring := Receiver.left_receiveAll_le (sch.during 0) e r
  rw [Schedule.limit_eq hn]
  show (r.receiveAll (sch.during 0)).left e + arrivals (sch.bursts.flatMap Burst.signals) e
      + sch.left n 0 e ≤ _
  omega

theorem Schedule.Ends.count_le (hframes : frames ≠ []) (h : sch.Ends frames interval ends)
    (e : PassEnd) : ends.count e ≤ sch.limit frames.length e := by
  unfold Schedule.Ends at h
  split at h
  · exact Nat.le_trans (h.count_le e) (sch.left_opening_le (List.length_pos_iff.mpr hframes) e)
  · rw [h]
    exact Nat.zero_le _

/--
**A replay does not spin.**  It goes through its loop no more often than there are frames after
the first and values that are sent, and twice more: each pass shows a frame, takes note of a
value, takes note that the sender has left, or finds the flag up, and there is at most one of the
last two kinds each.  Neither what is sent when, nor the answers of whoever is shown the frames,
nor the choice between a frame that is due and news changes this.
-/
theorem run_does_not_spin (frames : Trace) (hframes : frames ≠ []) (settings : ReplaySettings)
    (sch : Schedule) :
    let passes := (run frames settings sch).passes
    let sent := sch.sends frames.length
    passes ≤ (frames.length - 1) + sent + 2 ∧
    (∃! ends, sch.Ends frames settings.interval ends) ∧
    ∀ ends, sch.Ends frames settings.interval ends →
      passes = ends.length ∧ ends.count .frame ≤ frames.length - 1 ∧ ends.count .value ≤ sent ∧
        ends.count .departure ≤ 1 ∧ ends.count .flag ≤ 1 := by
  intro passes sent
  have hends : ∀ ends, sch.Ends frames settings.interval ends →
      passes = ends.length ∧ ends.count .frame ≤ frames.length - 1 ∧ ends.count .value ≤ sent ∧
        ends.count .departure ≤ 1 ∧ ends.count .flag ≤ 1 := by
    intro ends h
    exact ⟨h.passes_run hframes, h.count_le hframes .frame, h.count_le hframes .value,
      h.count_le hframes .departure, h.count_le hframes .flag⟩
  have hunique := existsUnique_ends frames settings.interval sch
  refine ⟨?_, hunique, hends⟩
  obtain ⟨ends, h, -⟩ := hunique
  obtain ⟨hlength, hframe, hvalue, hdeparture, hflag⟩ := hends ends h
  have hsplit := length_ends ends
  omega

/-- A value before the start, another one and the departure before the second of three frames. -/
theorem run_does_not_spin_nook :
    let frames := (Level.nook.run (Program.throughNook.take 2)).trace
    let settings : ReplaySettings := { stepInterval := 2 }
    let sch : Schedule :=
      { before := [.send false]
        bursts := [{ time := 1 * millisecond, early := false, signals := [.send false, .leave] }] }
    let ends : List PassEnd := [.value, .value, .departure, .frame, .frame]
    frames ≠ [] ∧ sch.sends 3 = 2 ∧ sch.Ends frames (2 * millisecond) ends ∧
      (run frames settings sch).passes = 5 ∧ (run frames settings sch).passes ≤ 2 + 2 + 2 ∧
      ends.count .value ≤ 2 := by
  intro frames settings sch ends
  have hframes : frames ≠ [] := by decide
  have hsent : sch.sends 3 = 2 := by decide
  let first : State := sch.opening frames (2 * millisecond)
  let second : State := first.afterNews sch
  let third : State := second.afterNews sch
  let fourth : State := third.afterNews sch
  let fifth : State := fourth.afterFrame sch ⟨frames, 1⟩
  have hpasses : Passes sch first ends :=
    .more (by decide) (.news (by decide +kernel) (by decide +kernel)) <|
    .more (by decide) (.news (s := second) (by decide +kernel) (by decide +kernel)) <|
    .more (by decide) (.news (s := third) (by decide +kernel) (by decide +kernel)) <|
    .more (by decide) (.frame (s := fourth) (by decide +kernel) (by decide +kernel) rfl rfl) <|
    .more (by decide) (.frame (s := fifth) (by decide +kernel) (by decide +kernel) rfl rfl) <|
    .none (by decide)
  obtain ⟨hbound, -, hends⟩ := run_does_not_spin frames hframes settings sch
  obtain ⟨hlength, -, hvalue, -⟩ := hends ends hpasses
  have hcount : frames.length = 3 := by decide
  rw [hcount, hsent] at hbound
  rw [hcount, hsent] at hvalue
  exact ⟨hframes, hsent, hpasses, hlength, hbound, hvalue⟩

end RobotMaze.Replay
