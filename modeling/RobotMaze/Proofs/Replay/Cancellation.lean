/-
A replay stops at the frame at which it is asked to.

The flag is looked at before each wait and at no other place.  That it takes effect at once
all the same is due to the channel, which ends a wait as soon as it has news.  So two things
have to be seen.  As long as nothing but a flag that is down is sent, waking and waiting go
on and lead to the next frame at its time (`await_calm`, `exists_arrival`).  And the signals
with which the flag goes up are news, so the wait ends when they come, and the look that
follows finds the flag up before another frame is shown (`await_raised`, `loop_raised`).

`Low` is the state of a receiver in which this works: the flag is down, the sender is there,
and so the replay has not ceased to listen.

After the last frame nobody looks any more.
-/
import RobotMaze.Proofs.Replay.Timetable

namespace RobotMaze.Replay

/-! ### Signals and the flag -/

/-- These signals leave the flag down and the sender where it is. -/
def Calm (signals : List Signal) : Prop :=
  ∀ signal ∈ signals, signal = .send false

/-- With these signals the flag goes up, and it is up after them. -/
def Raising (signals : List Signal) : Prop :=
  ∃ calm rest, signals = calm ++ .send true :: rest ∧ Calm calm ∧ .send false ∉ rest

namespace Receiver

variable {r : Receiver} {signals : List Signal}

/-- The flag is down, and the replay will hear when it goes up. -/
structure Low (r : Receiver) : Prop where
  flag : r.flag = false
  closed : r.closed = false
  listening : r.listening = true

/-- The flag is up, and the replay has not taken note of it yet. -/
structure Up (r : Receiver) : Prop where
  flag : r.flag = true
  unseen : r.unseen = true
  listening : r.listening = true

theorem Low.fresh : Receiver.fresh.Low :=
  ⟨rfl, rfl, rfl⟩

theorem receive_send {flag : Bool} (h : r.closed = false) :
    r.receive (.send flag) = { r with flag, unseen := true } :=
  if_neg (Bool.eq_false_iff.mp h)

theorem Low.receiveAll (hr : r.Low) (h : Calm signals) : (r.receiveAll signals).Low := by
  induction signals generalizing r with
  | nil => exact hr
  | cons signal signals ih =>
      obtain ⟨rfl, hrest⟩ := List.forall_mem_cons.mp h
      have hsend : (r.receive (.send false)).Low := by
        rw [receive_send hr.closed]
        exact ⟨rfl, hr.closed, hr.listening⟩
      exact ih hsend hrest

/-- While the flag is down the only news is a value that was sent, so listening goes on. -/
theorem Low.observe (hr : r.Low) (hnews : r.hasNews = true) : r.observe.Low := by
  have hunseen : r.unseen = true := by simpa [hasNews, hr.listening, hr.closed] using hnews
  unfold Receiver.observe
  rw [if_pos hunseen]
  exact ⟨hr.flag, hr.closed, hr.listening⟩

theorem Up.receiveAll (hr : r.Up) (h : .send false ∉ signals) : (r.receiveAll signals).Up := by
  induction signals generalizing r with
  | nil => exact hr
  | cons signal signals ih =>
      rw [List.mem_cons, not_or] at h
      obtain ⟨hne, hrest⟩ := h
      refine ih ?_ hrest
      cases signal with
      | leave => exact ⟨hr.flag, hr.unseen, hr.listening⟩
      | send flag =>
          cases flag with
          | false => exact absurd rfl hne
          | true =>
              cases hclosed : r.closed with
              | false =>
                  rw [receive_send hclosed]
                  exact ⟨rfl, rfl, hr.listening⟩
              | true =>
                  have hsame : r.receive (.send true) = r := if_pos hclosed
                  rw [hsame]
                  exact hr

theorem Low.raise (hr : r.Low) (h : Raising signals) : (r.receiveAll signals).Up := by
  obtain ⟨calm, rest, rfl, hcalm, hrest⟩ := h
  have hlow : (r.receiveAll calm).Low := hr.receiveAll hcalm
  have hup : ((r.receiveAll calm).receive (.send true)).Up := by
    rw [receive_send hlow.closed]
    exact ⟨rfl, rfl, hlow.listening⟩
  have hall := hup.receiveAll hrest
  unfold Receiver.receiveAll at hall ⊢
  rwa [List.foldl_append, List.foldl_cons]

theorem Up.hasNews (hr : r.Up) : r.hasNews = true := by
  simp [Receiver.hasNews, hr.listening, hr.unseen]

theorem flag_observe (r : Receiver) : r.observe.flag = r.flag := by
  unfold observe
  split <;> rfl

end Receiver

/-! ### Bursts before a frame -/

/-- Whether a burst reaches the channel before a frame that is due at this instant. -/
def Burst.precedes (b : Burst) (due : Nat) : Bool :=
  b.time < due || (b.time == due && b.early)

theorem Burst.precedes_mono {b : Burst} {due due' : Nat} (h : b.precedes due = true)
    (hle : due ≤ due') : b.precedes due' = true := by
  simp only [precedes, Bool.or_eq_true, Bool.and_eq_true, decide_eq_true_eq, beq_iff_eq] at h ⊢
  rcases Nat.lt_or_eq_of_le hle with hlt | rfl
  · exact Or.inl (by omega)
  · exact h

/-- The bursts that come before a frame that is due at this instant leave the flag down. -/
inductive CalmUntil (due : Nat) : List Burst → Prop
  | nil : CalmUntil due []
  | late {b : Burst} {later : List Burst} (h : b.precedes due = false) : CalmUntil due (b :: later)
  | calm {b : Burst} {later : List Burst} (h : Calm b.signals) (hlater : CalmUntil due later) :
      CalmUntil due (b :: later)

/-- The flag goes up with this burst, and with none that comes before it. -/
inductive RaisedBy (b : Burst) : List Burst → Prop
  | here {later : List Burst} (h : Raising b.signals) : RaisedBy b (b :: later)
  | there {c : Burst} {later : List Burst} (h : Calm c.signals) (htime : c.time ≤ b.time)
      (hlater : RaisedBy b later) : RaisedBy b (c :: later)

variable {due due' : Nat} {b : Burst} {gone bursts : List Burst}

theorem CalmUntil.anti (h : CalmUntil due' bursts) (hle : due ≤ due') : CalmUntil due bursts := by
  induction h with
  | nil => exact .nil
  | @late b later h =>
      refine .late (Bool.eq_false_iff.mpr fun hb => ?_)
      exact Bool.false_ne_true (h.symm.trans (Burst.precedes_mono hb hle))
  | calm h hlater ih => exact .calm h ih

theorem CalmUntil.of_append (hgone : ∀ c ∈ gone, c.precedes due = true)
    (h : CalmUntil due (gone ++ bursts)) : CalmUntil due bursts := by
  induction gone with
  | nil => exact h
  | cons c gone ih =>
      obtain ⟨hc, hrest⟩ := List.forall_mem_cons.mp hgone
      cases h with
      | late hlate => exact absurd (hlate.symm.trans hc) Bool.false_ne_true
      | calm _ hlater => exact ih hrest hlater

theorem RaisedBy.calmUntil (h : RaisedBy b bursts) (hb : b.precedes due = false) :
    CalmUntil due bursts := by
  induction h with
  | here h => exact .late hb
  | there h htime hlater ih => exact .calm h ih

theorem RaisedBy.of_append (hgone : ∀ c ∈ gone, c.precedes due = true)
    (hb : b.precedes due = false) (h : RaisedBy b (gone ++ bursts)) : RaisedBy b bursts := by
  induction gone with
  | nil => exact h
  | cons c gone ih =>
      obtain ⟨hc, hrest⟩ := List.forall_mem_cons.mp hgone
      cases h with
      | here h => exact absurd (hb.symm.trans hc) Bool.false_ne_true
      | there h htime hlater => exact ih hrest hlater

/-! ### One wait -/

variable {time : Nat} {r : Receiver}

/-- **A wait in which the flag stays down** ends with the frame when it is due, or earlier with
news that do not concern the flag. -/
theorem await_calm (frameFirst : Bool) (hr : r.Low) (htime : time ≤ due)
    (hcalm : CalmUntil due bursts) :
    (await due frameFirst time r bursts).receiver.Low ∧
      (await due frameFirst time r bursts).time ≤ due ∧
      ((await due frameFirst time r bursts).wake = .frame →
        (await due frameFirst time r bursts).time = due) ∧
      ∃ gone, bursts = gone ++ (await due frameFirst time r bursts).bursts ∧
        ∀ c ∈ gone, c.precedes due = true := by
  fun_induction await due frameFirst time r bursts with
  | case1 time r hnews =>
      refine ⟨hr, htime, fun hframe => ?_, [], rfl, by simp⟩
      cases hframe
  | case2 time r hframe =>
      have hmax : max time due = due := Nat.max_eq_right htime
      exact ⟨hr, Nat.le_of_eq hmax, fun _ => hmax, [], rfl, by simp⟩
  | case3 time r c later hnews =>
      refine ⟨hr, htime, fun hframe => ?_, [], rfl, by simp⟩
      cases hframe
  | case4 time r c later _ hburst ih =>
      have hc : c.precedes due = true := (Bool.and_eq_true_iff.mp hburst).2
      cases hcalm with
      | late hlate => exact absurd (hlate.symm.trans hc) Bool.false_ne_true
      | calm hsignals hlater =>
          have hle : max time c.time ≤ due := by
            simp only [Burst.precedes, Bool.or_eq_true, Bool.and_eq_true, decide_eq_true_eq,
              beq_iff_eq] at hc
            omega
          obtain ⟨hlow, hbefore, hdue, gone, hgone, hprecede⟩ :=
            ih (hr.receiveAll hsignals) hle hlater
          refine ⟨hlow, hbefore, hdue, c :: gone, ?_, List.forall_mem_cons.mpr ⟨hc, hprecede⟩⟩
          rw [List.cons_append, ← hgone]
  | case5 time r c later hnews hburst =>
      have hmax : max time due = due := Nat.max_eq_right htime
      exact ⟨hr, Nat.le_of_eq hmax, fun _ => hmax, [], rfl, by simp⟩

/-- **A wait in which the flag goes up** ends with news: either the flag is up and this is the
instant at which it went up, or that burst is still to come. -/
theorem await_raised (frameFirst : Bool) (hr : r.Low) (htime : time ≤ b.time)
    (hdue : b.time < due) (hraise : RaisedBy b bursts) :
    (await due frameFirst time r bursts).wake = .news ∧
      ((await due frameFirst time r bursts).receiver.flag = true ∧
          (await due frameFirst time r bursts).time = b.time ∨
        (await due frameFirst time r bursts).receiver.Low ∧
          (await due frameFirst time r bursts).time ≤ b.time ∧
            RaisedBy b (await due frameFirst time r bursts).bursts) := by
  fun_induction await due frameFirst time r bursts with
  | case1 => cases hraise
  | case2 => cases hraise
  | case3 time r c later hnews => exact ⟨rfl, Or.inr ⟨hr, htime, hraise⟩⟩
  | case4 time r c later _ hburst ih =>
      cases hraise with
      | here h =>
          -- The burst itself arrives, and the wait ends with its news at that instant.
          have hup : (r.receiveAll b.signals).Up := hr.raise h
          have hmax : max time b.time = b.time := Nat.max_eq_right htime
          have hnow : ∀ bs, await due frameFirst (max time b.time) (r.receiveAll b.signals) bs
              = ⟨.news, b.time, r.receiveAll b.signals, bs⟩ := by
            intro bs
            have hdue' : ¬due ≤ b.time := Nat.not_le_of_lt hdue
            cases bs <;> simp [await, hup.hasNews, hmax, hdue']
          rw [hnow]
          exact ⟨rfl, Or.inl ⟨hup.flag, rfl⟩⟩
      | there h htime' hlater => exact ih (hr.receiveAll h) (Nat.max_le.mpr ⟨htime, htime'⟩) hlater
  | case5 time r c later hnews hburst =>
      -- There is no news yet, and the burst at the head comes before the frame.
      exfalso
      have hc : c.time < due := by
        cases hraise with
        | here h => exact hdue
        | there h htime' hlater => exact Nat.lt_of_le_of_lt htime' hdue
      have hlate : ¬due ≤ time := by omega
      simp only [hlate, decide_false, Bool.false_and, Bool.not_false, Bool.and_true] at hnews
      simp [hc, hnews] at hburst

/-! ### The loop -/

/-- How a replay ended, and when. -/
def Report.ending (r : Report) : ReplayOutcome × Nat :=
  (r.outcome, r.elapsed)

variable {frames : Trace} {interval : Nat} {sch : Schedule} {s : State}

theorem ending_loop_of_atEnd (hend : s.cursor.atEnd = true) :
    (loop sch s).ending = (.completed, s.time) := by
  rw [loop_of_atEnd hend]
  rfl

theorem ending_loop_of_flag (hmore : ¬s.cursor.atEnd = true) (hflag : s.receiver.flag = true) :
    (loop sch s).ending = (.cancelled s.cursor.index, s.time) := by
  rw [loop_of_flag hmore hflag]
  rfl

/-- **The replay ends at the instant of the burst with which the flag goes up.** -/
theorem ending_loop_of_raisedBy :
    ¬s.cursor.atEnd = true → b.time < s.ticker.due → s.receiver.Low → s.time ≤ b.time →
      RaisedBy b s.bursts → (loop sch s).ending = (.cancelled s.cursor.index, b.time) := by
  fun_induction loop sch s with
  | case1 s hend => exact fun hmore => absurd hend hmore
  | case2 s _ hflag => exact fun _ _ hr => absurd (hr.flag.symm.trans hflag) Bool.false_ne_true
  | case3 s _ _ hw =>
      intro _ hdue hr htime hraise
      cases hw.symm.trans (await_raised (sch.frameFirst s.passes) hr htime hdue hraise).1
  | case4 s _ _ hw =>
      intro _ hdue hr htime hraise
      cases hw.symm.trans (await_raised (sch.frameFirst s.passes) hr htime hdue hraise).1
  | case5 s _ _ hw =>
      intro _ hdue hr htime hraise
      cases hw.symm.trans (await_raised (sch.frameFirst s.passes) hr htime hdue hraise).1
  | case6 s _ _ hw ih =>
      intro hmore hdue hr htime hraise
      obtain ⟨-, hcase⟩ := await_raised (sch.frameFirst s.passes) hr htime hdue hraise
      rcases hcase with ⟨hflag, hat⟩ | ⟨hlow, hat, hlater⟩
      · have hup : (s.afterNews sch).receiver.flag = true :=
          (Receiver.flag_observe _).trans hflag
        exact hat ▸ ending_loop_of_flag hmore hup
      · exact ih hmore hdue (hlow.observe (hasNews_of_await hw)) hat hlater

/-- From one state the loop comes to another, in which frame `k` has just been shown at its
time and nothing before that has raised the flag. -/
structure Arrival (interval : Nat) (sch : Schedule) (k : Nat) (s s' : State) : Prop where
  cursor : s'.cursor = { s.cursor with index := k }
  time : s'.time = k * interval
  onTime : s'.OnTime interval
  receiver : ∃ r : Receiver, r.Low ∧ s'.receiver = r.receiveAll (sch.during k)
  bursts : ∃ gone, s.bursts = gone ++ s'.bursts ∧ ∀ c ∈ gone, c.precedes (k * interval) = true

theorem Arrival.after {k : Nat} {t s' : State} (h : Arrival interval sch k t s')
    (hframes : t.cursor.frames = s.cursor.frames) (hgone : s.bursts = gone ++ t.bursts)
    (hprecede : ∀ c ∈ gone, c.precedes (k * interval) = true) :
    Arrival interval sch k s s' := by
  obtain ⟨more, hmore, hprecede'⟩ := h.bursts
  have hcursor := h.cursor.trans (congrArg (Cursor.mk · k) hframes)
  refine ⟨hcursor, h.time, h.onTime, h.receiver, gone ++ more, ?_, ?_⟩
  · rw [hgone, hmore, List.append_assoc]
  · exact List.forall_mem_append.mpr ⟨hprecede, hprecede'⟩

/-- **As long as the flag stays down the replay goes on to the next frames,** however often the
channel wakes it. -/
theorem exists_arrival {k : Nat} (hwants : ∀ j, sch.wantsMore j = true)
    (hduring : ∀ j < k, Calm (sch.during j)) :
    k < s.cursor.frames.length → s.cursor.index < k → s.OnTime interval → s.receiver.Low →
      s.time ≤ s.ticker.due → CalmUntil (k * interval) s.bursts →
        ∃ s', Arrival interval sch k s s' ∧
          (loop sch s).ending = (loop sch s').ending := by
  fun_induction loop sch s with
  | case1 s hend =>
      intro hk hbefore
      have hlast := Cursor.atEnd_iff_le.mp hend
      omega
  | case2 s _ hflag => exact fun _ _ _ hr => absurd (hr.flag.symm.trans hflag) Bool.false_ne_true
  | case3 s _ _ hw pose cursor hn hwanted ih =>
      intro hk hbefore ht hr htime hcalm
      obtain ⟨-, rfl⟩ := Cursor.next_eq_some_iff.mp hn
      have hle : s.ticker.due ≤ k * interval := ht.due_eq ▸ Nat.mul_le_mul_right _ hbefore
      obtain ⟨hlow, -, hdue, gone, hgone, hprecede⟩ :=
        await_calm (sch.frameFirst s.passes) hr htime (hcalm.anti hle)
      have hat : (s.awake sch).time = s.ticker.due := hdue hw
      have hprecede' : ∀ c ∈ gone, c.precedes (k * interval) = true :=
        fun c hc => Burst.precedes_mono (hprecede c hc) hle
      rcases Nat.lt_or_eq_of_le hbefore with hlt | rfl
      · have hrest : CalmUntil (k * interval) (s.awake sch).bursts :=
          .of_append hprecede' (hgone ▸ hcalm)
        obtain ⟨s', harrival, hending⟩ := ih hk hlt (ht.afterFrame hat)
          (hlow.receiveAll (hduring _ hlt)) (Nat.le_add_right _ _) hrest
        exact ⟨s', harrival.after rfl hgone hprecede', hending⟩
      · exact ⟨_, ⟨rfl, hat.trans ht.due_eq, ht.afterFrame hat,
          ⟨(s.awake sch).receiver, hlow, rfl⟩, gone, hgone, hprecede'⟩, rfl⟩
  | case4 s _ _ hw pose cursor hn hno => exact absurd (hwants cursor.index) hno
  | case5 s hmore _ hw cursor hn => exact absurd (Cursor.next_eq_none hn).1 hmore
  | case6 s _ _ hw ih =>
      intro hk hbefore ht hr htime hcalm
      have hle : s.ticker.due ≤ k * interval := ht.due_eq ▸ Nat.mul_le_mul_right _ hbefore
      obtain ⟨hlow, hearly, -, gone, hgone, hprecede⟩ :=
        await_calm (sch.frameFirst s.passes) hr htime (hcalm.anti hle)
      have hprecede' : ∀ c ∈ gone, c.precedes (k * interval) = true :=
        fun c hc => Burst.precedes_mono (hprecede c hc) hle
      have hrest : CalmUntil (k * interval) (s.awake sch).bursts :=
        .of_append hprecede' (hgone ▸ hcalm)
      obtain ⟨s', harrival, hending⟩ :=
        ih hk hbefore ht.afterNews (hlow.observe (hasNews_of_await hw)) hearly hrest
      exact ⟨s', harrival.after rfl hgone hprecede', hending⟩

/-! ### The whole replay -/

theorem ending_run {settings : ReplaySettings} (hframes : frames ≠ [])
    (hwants : sch.wantsMore 0 = true) :
    (run frames settings sch).ending
      = (loop sch (sch.opening frames settings.interval)).ending := by
  cases frames with
  | nil => exact absurd rfl hframes
  | cons pose rest =>
      unfold run
      simp only [Cursor.frame?, Cursor.atStart, List.getElem?_cons_zero]
      rw [if_pos hwants]
      rfl

theorem exists_arrival_opening {k : Nat} (hk : k < frames.length)
    (hwants : ∀ j, sch.wantsMore j = true) (hbefore : Calm sch.before)
    (hduring : ∀ j < k, Calm (sch.during j)) (hcalm : CalmUntil (k * interval) sch.bursts) :
    ∃ s', Arrival interval sch k (sch.opening frames interval) s' ∧
      (loop sch (sch.opening frames interval)).ending = (loop sch s').ending := by
  have hlow : (Receiver.fresh.receiveAll sch.before).Low := Receiver.Low.fresh.receiveAll hbefore
  have ht : (sch.opening frames interval).OnTime interval := .opening _ _ _ _
  rcases Nat.eq_zero_or_pos k with rfl | hpos
  · exact ⟨_, ⟨rfl, (Nat.zero_mul _).symm, ht, ⟨_, hlow, rfl⟩, [], rfl, by simp⟩, rfl⟩
  · exact exists_arrival hwants hduring hk hpos ht (hlow.receiveAll (hduring 0 hpos))
      (Nat.zero_le _) hcalm

/-- When the flag of a replay goes up. -/
inductive Moment where
  /-- Before the replay starts. -/
  | start
  /-- While this frame is being shown. -/
  | showing (frame : Nat)
  /-- In between, with this burst. -/
  | burst (b : Burst)

/-- The flag goes up at this moment, and did not do so before.  The sender has not left until
then; whatever else it does follows later. -/
inductive Schedule.Raises (sch : Schedule) (interval : Nat) : Moment → Prop
  | start (h : Raising sch.before) (hduring : .send false ∉ sch.during 0) :
      Raises sch interval .start
  | showing {k : Nat} (hbefore : Calm sch.before) (hduring : ∀ j < k, Calm (sch.during j))
      (hbursts : CalmUntil (k * interval) sch.bursts) (h : Raising (sch.during k)) :
      Raises sch interval (.showing k)
  | burst {b : Burst} (hbefore : Calm sch.before)
      (hduring : ∀ j, j * interval ≤ b.time → Calm (sch.during j)) (h : RaisedBy b sch.bursts) :
      Raises sch interval (.burst b)

/-- A flag that goes up at a moment before the last of `n` frames stops the replay at a frame
and an instant. -/
inductive Moment.Stops (n interval : Nat) : Moment → (frame time : Nat) → Prop
  | start (hmore : 1 < n) : Stops n interval .start 0 0
  | showing {k : Nat} (hmore : k + 1 < n) : Stops n interval (.showing k) k (k * interval)
  | burst {b : Burst} {k : Nat} (hmore : k + 1 < n) (hafter : k * interval < b.time)
      (hdue : b.time < (k + 1) * interval) : Stops n interval (.burst b) k b.time

/-- A flag that goes up at this moment does not keep the last of `n` frames from being shown. -/
inductive Moment.TooLate (n interval : Nat) : Moment → Prop
  | start (hlast : n ≤ 1) : TooLate n interval .start
  | showing {k : Nat} (hlast : n ≤ k + 1) : TooLate n interval (.showing k)
  | burst {b : Burst} (hlast : b.precedes ((n - 1) * interval) = false) :
      TooLate n interval (.burst b)

theorem Burst.le_time_of_not_precedes (h : b.precedes due = false) : due ≤ b.time := by
  refine Nat.le_of_not_lt fun hlt => ?_
  have hprecedes : b.precedes due = true := by simp [precedes, hlt]
  exact Bool.false_ne_true (h.symm.trans hprecedes)

theorem Burst.not_precedes_of_lt (h : due < b.time) : b.precedes due = false := by
  have hne : ¬b.time = due := by omega
  have hlate : ¬b.time < due := by omega
  simp [precedes, hne, hlate]

variable {m : Moment}

/-- A flag that goes up before the last frame stops the replay. -/
theorem ending_opening_of_stops {k time : Nat} (hwants : ∀ j, sch.wantsMore j = true)
    (hm : sch.Raises interval m) (h : m.Stops frames.length interval k time) :
    (loop sch (sch.opening frames interval)).ending = (.cancelled k, time) := by
  have hgoesOn : ∀ {j : Nat} {s' : State}, j + 1 < frames.length →
      Arrival interval sch j (sch.opening frames interval) s' → ¬s'.cursor.atEnd = true := by
    intro j s' hmore harrival
    rw [Cursor.atEnd_iff_le, harrival.cursor]
    exact Nat.not_le_of_lt hmore
  cases h with
  | start hmore =>
      cases hm with
      | start hraise hduring =>
          have hup : (sch.opening frames interval).receiver.Up :=
            (Receiver.Low.fresh.raise hraise).receiveAll hduring
          exact ending_loop_of_flag (mt Cursor.atEnd_iff_le.mp (Nat.not_le_of_lt hmore)) hup.flag
  | @showing k hmore =>
      cases hm with
      | showing hbefore hduring hbursts hraise =>
          have hk : k < frames.length := Nat.lt_of_succ_lt hmore
          obtain ⟨s', harrival, hending⟩ :=
            exists_arrival_opening hk hwants hbefore hduring hbursts
          obtain ⟨r, hlow, hreceiver⟩ := harrival.receiver
          have hup : s'.receiver.Up := hreceiver ▸ hlow.raise hraise
          rw [hending, ending_loop_of_flag (hgoesOn hmore harrival) hup.flag, harrival.cursor,
            harrival.time]
  | @burst b k hmore hafter hdue =>
      cases hm with
      | burst hbefore hduring hraise =>
          have hlate : b.precedes (k * interval) = false := Burst.not_precedes_of_lt hafter
          have hquiet : ∀ j ≤ k, Calm (sch.during j) := fun j hj =>
            hduring j (Nat.le_trans (Nat.mul_le_mul_right _ hj) (Nat.le_of_lt hafter))
          have hk : k < frames.length := Nat.lt_of_succ_lt hmore
          obtain ⟨s', harrival, hending⟩ := exists_arrival_opening hk hwants hbefore
            (fun j hj => hquiet j (Nat.le_of_lt hj)) (hraise.calmUntil hlate)
          obtain ⟨r, hlow, hreceiver⟩ := harrival.receiver
          obtain ⟨gone, hgone, hprecede⟩ := harrival.bursts
          have hlow' : s'.receiver.Low := hreceiver ▸ hlow.receiveAll (hquiet k (Nat.le_refl k))
          have hcomes : RaisedBy b s'.bursts := .of_append hprecede hlate (hgone ▸ hraise)
          have htime : s'.time ≤ b.time := harrival.time ▸ Nat.le_of_lt hafter
          have hdue' : b.time < s'.ticker.due := by
            rw [harrival.onTime.due_eq, harrival.cursor]
            exact hdue
          rw [hending, ending_loop_of_raisedBy (hgoesOn hmore harrival) hdue' hlow' htime hcomes,
            harrival.cursor]

/-- A replay in which the flag is not raised before the last frame completes with that frame. -/
theorem ending_opening_of_calm (hframes : frames ≠ []) (hwants : ∀ j, sch.wantsMore j = true)
    (hbefore : Calm sch.before) (hduring : ∀ j < frames.length - 1, Calm (sch.during j))
    (hcalm : CalmUntil ((frames.length - 1) * interval) sch.bursts) :
    (loop sch (sch.opening frames interval)).ending
      = (.completed, (frames.length - 1) * interval) := by
  have hk : frames.length - 1 < frames.length :=
    Nat.sub_lt (List.length_pos_iff.mpr hframes) Nat.one_pos
  obtain ⟨s', harrival, hending⟩ := exists_arrival_opening hk hwants hbefore hduring hcalm
  have hlast : s'.cursor.atEnd = true := by
    rw [Cursor.atEnd_iff_le, harrival.cursor]
    show frames.length ≤ frames.length - 1 + 1
    omega
  rw [hending, ending_loop_of_atEnd hlast, harrival.time]

/-- A flag that goes up too late changes nothing. -/
theorem ending_opening_of_tooLate (hframes : frames ≠ []) (hwants : ∀ j, sch.wantsMore j = true)
    (hm : sch.Raises interval m) (h : m.TooLate frames.length interval) :
    (loop sch (sch.opening frames interval)).ending
      = (.completed, (frames.length - 1) * interval) := by
  cases h with
  | start hlast =>
      have hzero : frames.length - 1 = 0 := by omega
      rw [hzero, Nat.zero_mul]
      exact ending_loop_of_atEnd (Cursor.atEnd_iff_le.mpr hlast)
  | showing hlast =>
      cases hm with
      | showing hbefore hduring hbursts _ =>
          have hle : frames.length - 1 ≤ _ := Nat.sub_le_of_le_add hlast
          exact ending_opening_of_calm hframes hwants hbefore
            (fun j hj => hduring j (Nat.lt_of_lt_of_le hj hle))
            (hbursts.anti (Nat.mul_le_mul_right _ hle))
  | burst hlast =>
      cases hm with
      | burst hbefore hduring hraise =>
          refine ending_opening_of_calm hframes hwants hbefore (fun j hj => hduring j ?_)
            (hraise.calmUntil hlast)
          exact Nat.le_trans (Nat.mul_le_mul_right _ (Nat.le_of_lt hj))
            (Burst.le_time_of_not_precedes hlast)

/-- A replay that was cancelled at a frame showed that frame and those before it. -/
theorem shown_of_cancelled {settings : ReplaySettings} {k : Nat}
    (h : (run frames settings sch).outcome = .cancelled k) :
    (run frames settings sch).shown = (timetable frames settings.interval).take (k + 1) := by
  have hrun := continues_run frames settings sch
  have hlength : (run frames settings sch).shown.length = k + 1 :=
    (Nat.zero_add _).symm.trans (hrun.cancelled k h).1
  rw [← hlength]
  exact List.prefix_iff_eq_take.mp hrun.shown

/--
**A replay stops at the very frame and instant at which the flag goes up.**  That is the frame
that is being shown, the last one shown if the flag goes up between two frames, or the first
one if it is up from the start.  After the last frame, and if there is only one, the flag
has no effect.  How the replay takes turns with the channel does not matter.
-/
theorem stops_at_exact_frame (frames : Trace) (hframes : frames ≠ []) (settings : ReplaySettings)
    (sch : Schedule) (hwants : ∀ k, sch.wantsMore k = true) (m : Moment)
    (hm : sch.Raises (max settings.stepInterval 1 * millisecond) m) :
    let interval := max settings.stepInterval 1 * millisecond
    let r := run frames settings sch
    (∀ k time, m.Stops frames.length interval k time →
      r.shown = (timetable frames interval).take (k + 1) ∧ r.outcome = .cancelled k ∧
        r.elapsed = time) ∧
    (m.TooLate frames.length interval →
      r.shown = timetable frames interval ∧ r.outcome = .completed ∧
        r.elapsed = (frames.length - 1) * interval) := by
  intro interval r
  have hstart : r.ending = (loop sch (sch.opening frames interval)).ending :=
    ending_run hframes (hwants 0)
  refine ⟨fun k time hstops => ?_, fun hlate => ?_⟩
  · have hending : r.ending = (.cancelled k, time) :=
      hstart.trans (ending_opening_of_stops hwants hm hstops)
    have hcancelled : r.outcome = .cancelled k := congrArg Prod.fst hending
    exact ⟨shown_of_cancelled hcancelled, hcancelled, congrArg Prod.snd hending⟩
  · have hending : r.ending = (.completed, (frames.length - 1) * interval) :=
      hstart.trans (ending_opening_of_tooLate hframes hwants hm hlate)
    have hdone : r.outcome = .completed := congrArg Prod.fst hending
    exact ⟨((continues_run frames settings sch).completed hdone).1, hdone,
      congrArg Prod.snd hending⟩

/-- The flag goes up between the second frame and the third, which are a millisecond apart, and
with the last of six. -/
theorem stops_at_exact_frame_nook :
    let frames := (Level.nook.run Program.throughNook).trace
    let fast : ReplaySettings := { stepInterval := 0 }
    let between : Schedule :=
      { bursts := [{ time := 1500000, early := false, signals := [.send false, .send true] },
          { time := 1800000, early := true, signals := [.leave] }] }
    let atLast : Schedule := { during := fun k => if k = 5 then [.send true, .leave] else [] }
    ((run frames fast between).shown = (timetable frames (1 * millisecond)).take 2 ∧
      (run frames fast between).outcome = .cancelled 1 ∧
      (run frames fast between).elapsed = 1500000) ∧
    (run frames {} atLast).shown = timetable frames (400 * millisecond) ∧
      (run frames {} atLast).outcome = .completed ∧
      (run frames {} atLast).elapsed = 2000 * millisecond := by
  intro frames fast between atLast
  have hframes : frames ≠ [] := by decide
  have hnone : Calm [] := fun _ h => absurd h List.not_mem_nil
  refine ⟨?_, ?_⟩
  · have hraising : Raising [.send false, .send true] :=
      ⟨[.send false], [], rfl, fun _ h => List.mem_singleton.mp h, by decide⟩
    have hraises : between.Raises (1 * millisecond)
        (.burst { time := 1500000, early := false, signals := [.send false, .send true] }) :=
      .burst hnone (fun _ _ => hnone) (.here hraising)
    exact (stops_at_exact_frame frames hframes fast between (fun _ => rfl) _ hraises).1 1 1500000
      (.burst (by decide) (by decide) (by decide))
  · have hraises : atLast.Raises (400 * millisecond) (.showing 5) := by
      refine .showing hnone (fun j hj => ?_) .nil ⟨[], [.leave], rfl, hnone, by decide⟩
      have hquiet : atLast.during j = [] := if_neg (by omega)
      rw [hquiet]
      exact hnone
    have hend : (frames.length - 1) * (400 * millisecond) = 2000 * millisecond := by decide
    rw [← hend]
    exact (stops_at_exact_frame frames hframes {} atLast (fun _ => rfl) _ hraises).2
      (.showing (by decide))

end RobotMaze.Replay
