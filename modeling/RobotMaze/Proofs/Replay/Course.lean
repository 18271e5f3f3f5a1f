/-
A replay in time is a possible course of a session.

Beside one who watches, the replay of a schedule is the sender of a session: what reaches it
through the channel are requests to stop and the loss of the means to ask, and whoever is shown
a frame and wants no more is somebody who went away before it was sent.  The session has no
time.  Each pass of the loop is matched by a few of its moves: the look at the flag, whatever
comes during the wait, and the frame or the news that ends it (`leads_loop`).  Between two
passes both have the same cursor and the same receiver (`Session.Mirrors`).

So whatever holds of all courses of sessions holds of replays.
-/
import RobotMaze.Replay.Session

namespace RobotMaze.Replay

/-! ### What is sent -/

namespace Session

/-- What a move puts into the queue: the parcels behind those that were there. -/
def posted (s : Session) (m : Move) : List Parcel :=
  (s.perform m).queue.drop s.queue.length

/-- What moves put into the queue, one after another. -/
def postedAll (s : Session) : List Move → List Parcel
  | [] => []
  | m :: moves => s.posted m ++ (s.perform m).postedAll moves

theorem performAll_append (s : Session) (moves more : List Move) :
    s.performAll (moves ++ more) = (s.performAll moves).performAll more :=
  List.foldl_append

theorem postedAll_append (moves more : List Move) :
    ∀ s : Session, s.postedAll (moves ++ more)
      = s.postedAll moves ++ (s.performAll moves).postedAll more := by
  induction moves with
  | nil => exact fun s => rfl
  | cons m moves ih =>
      intro s
      rw [List.cons_append, postedAll, postedAll, ih, List.append_assoc]
      rfl

theorem posted_of_queue_eq {s : Session} {m : Move} (h : (s.perform m).queue = s.queue) :
    s.posted m = [] := by
  rw [posted, h, List.drop_length]

end Session

/-! ### Schedules as those of a session -/

/-- The signal comes at some time. -/
def Schedule.Sends (sch : Schedule) (signal : Signal) : Prop :=
  signal ∈ sch.before ∨ (∃ k, signal ∈ sch.during k) ∨ ∃ b ∈ sch.bursts, signal ∈ b.signals

/-- All that comes through the channel are requests to stop, and that there will be none. -/
def Schedule.OfWatcher (sch : Schedule) : Prop :=
  ¬sch.Sends (.send false)

/-- What a watcher does, by the signal that it causes. -/
def Signal.move : Signal → Move
  | .send _ => .cancel
  | .leave => .letGo

/-- The schedule accounts for the move: the watcher does what is sent, and goes away if a frame is
one too many.  It need not take any parcel out. -/
def Schedule.Allows (sch : Schedule) : Move → Prop
  | .cancel => sch.Sends (.send true)
  | .letGo => sch.Sends .leave
  | .unwatch => ∃ k, sch.wantsMore k = false
  | .receive => False
  | _ => True

/-- The parcels of the frames shown that are really sent, all but one that nobody wanted. -/
def Schedule.parcels (sch : Schedule) (shown : List Shown) : List Parcel :=
  (shown.filter fun f => sch.wantsMore f.index).map fun f => (f.index, f.pose)

theorem Schedule.parcels_cons {sch : Schedule} {f : Shown} (h : sch.wantsMore f.index = true)
    (shown : List Shown) : sch.parcels (f :: shown) = [(f.index, f.pose)] ++ sch.parcels shown := by
  simp [parcels, h]

theorem Schedule.parcels_refused {sch : Schedule} {f : Shown}
    (h : ¬sch.wantsMore f.index = true) : sch.parcels [f] = [] := by
  simp [parcels, h]

/-- Moves that the schedule accounts for lead from one session to another, and put these parcels
into the queue. -/
def Leads (sch : Schedule) (t : Session) (sent : List Parcel) (t' : Session) : Prop :=
  ∃ moves, (∀ m ∈ moves, sch.Allows m) ∧ t.performAll moves = t' ∧ t.postedAll moves = sent

variable {sch : Schedule} {t t' t'' : Session} {sent more : List Parcel}

namespace Leads

theorem refl (sch : Schedule) (t : Session) : Leads sch t [] t :=
  ⟨[], nofun, rfl, rfl⟩

theorem trans (h : Leads sch t sent t') (h' : Leads sch t' more t'') :
    Leads sch t (sent ++ more) t'' := by
  obtain ⟨moves, hallows, rfl, rfl⟩ := h
  obtain ⟨moves', hallows', rfl, rfl⟩ := h'
  exact ⟨moves ++ moves', List.forall_mem_append.mpr ⟨hallows, hallows'⟩,
    Session.performAll_append _ _ _, Session.postedAll_append _ _ _⟩

/-- A move that puts nothing into the queue. -/
theorem move {m : Move} (hallows : sch.Allows m) (hqueue : (t.perform m).queue = t.queue) :
    Leads sch t [] (t.perform m) := by
  refine ⟨[m], List.forall_mem_singleton.mpr hallows, rfl, ?_⟩
  rw [Session.postedAll, Session.posted_of_queue_eq hqueue]
  rfl

theorem trans_nil (h : Leads sch t [] t') (h' : Leads sch t' more t'') : Leads sch t more t'' :=
  h.trans h'

/-- What is sent through the channel reaches the receiver. -/
theorem signals (hsch : sch.OfWatcher) {signals : List Signal} :
    ∀ {t : Session}, (∀ signal ∈ signals, sch.Sends signal) →
      Leads sch t [] { t with receiver := t.receiver.receiveAll signals } := by
  induction signals with
  | nil => exact fun _ => refl sch _
  | cons signal signals ih =>
      intro t hsends
      obtain ⟨hfirst, hrest⟩ := List.forall_mem_cons.mp hsends
      have hmove : Leads sch t [] { t with receiver := t.receiver.receive signal } := by
        cases signal with
        | leave => exact move (m := .letGo) hfirst rfl
        | send flag =>
            cases flag with
            | false => exact absurd hfirst hsch
            | true => exact move (m := .cancel) hfirst rfl
      exact hmove.trans_nil (ih hrest)

/-- What comes during a wait reaches the receiver, and the bursts that are left come later. -/
theorem await (hsch : sch.OfWatcher) (due : Nat) (frameFirst : Bool) (time : Nat) (r : Receiver)
    {bursts : List Burst} (hbursts : ∀ b ∈ bursts, ∀ signal ∈ b.signals, sch.Sends signal) :
    Leads sch { t with receiver := r } []
        { t with receiver := (Replay.await due frameFirst time r bursts).receiver } ∧
      ∀ b ∈ (Replay.await due frameFirst time r bursts).bursts,
        ∀ signal ∈ b.signals, sch.Sends signal := by
  fun_induction Replay.await due frameFirst time r bursts with
  | case1 | case2 | case3 | case5 => exact ⟨refl sch _, hbursts⟩
  | case4 time r b bs _ _ ih =>
      obtain ⟨hb, hrest⟩ := List.forall_mem_cons.mp hbursts
      obtain ⟨hleads, hlater⟩ := ih hrest
      exact ⟨(signals hsch (t := { t with receiver := r }) hb).trans_nil hleads, hlater⟩

end Leads

/-! ### Pass by pass -/

/-- The session stands where the loop does, before the look at the flag. -/
structure Session.Mirrors (t : Session) (s : State) : Prop where
  phase : t.phase = .looking
  cursor : t.cursor = s.cursor
  receiver : t.receiver = s.receiver
  watched : t.unwatched = false

/-- The bursts that are still to come are among those of the schedule. -/
def State.Expects (sch : Schedule) (s : State) : Prop :=
  ∀ b ∈ s.bursts, ∀ signal ∈ b.signals, sch.Sends signal

variable {s : State}

theorem perform_look (h : t.Mirrors s) (m : Move) (hm : m = .look) : t.perform m = t.look := by
  subst hm
  exact if_pos h.phase

/-- The look at the flag of a replay that goes on, and the wait after it. -/
theorem leads_awake (hsch : sch.OfWatcher) (h : t.Mirrors s) (hs : s.Expects sch)
    (hmore : ¬s.cursor.atEnd = true) (hflag : ¬s.receiver.flag = true) :
    Leads sch t [] { t with phase := .waiting, receiver := (s.awake sch).receiver } ∧
      ∀ b ∈ (s.awake sch).bursts, ∀ signal ∈ b.signals, sch.Sends signal := by
  have hlook : t.perform .look = { t with phase := .waiting, receiver := s.receiver } := by
    rw [perform_look h _ rfl, Session.look, if_neg (h.cursor ▸ hmore),
      if_neg (h.receiver ▸ hflag), h.receiver]
  obtain ⟨hleads, hlater⟩ := Leads.await (t := { t with phase := .waiting }) hsch s.ticker.due
    (sch.frameFirst s.passes) s.time s.receiver hs
  have hfirst : Leads sch t [] { t with phase := .waiting, receiver := s.receiver } :=
    hlook ▸ Leads.move (m := .look) trivial (by rw [hlook])
  exact ⟨hfirst.trans_nil hleads, hlater⟩

/-- A frame is sent to somebody who watches, and what is sent meanwhile comes back. -/
theorem leads_frame (hsch : sch.OfWatcher) (h : t.Mirrors s) {pose : Pose} {cursor : Cursor}
    (hnext : s.cursor.next = (some pose, cursor)) :
    ∃ t', Leads sch { t with phase := .waiting, receiver := (s.awake sch).receiver }
        [(cursor.index, pose)] t' ∧ t'.Mirrors (s.afterFrame sch cursor) := by
  let wait : Session := { t with phase := .waiting, receiver := (s.awake sch).receiver }
  let after : Session :=
    { wait with cursor, phase := .looking, queue := t.queue ++ [(cursor.index, pose)] }
  have hsend : wait.perform .frame = after := by
    show wait.sendNext = after
    have hnext' : wait.cursor.next = (some pose, cursor) := (congrArg _ h.cursor).trans hnext
    unfold Session.sendNext
    rw [hnext']
    exact if_neg (Bool.eq_false_iff.mp h.watched)
  have hposted : Leads sch wait [(cursor.index, pose)] after := by
    refine ⟨[.frame], List.forall_mem_singleton.mpr trivial, hsend, ?_⟩
    rw [Session.postedAll, Session.posted, hsend]
    exact (List.append_nil _).trans List.drop_left
  have hduring : ∀ signal ∈ sch.during cursor.index, sch.Sends signal :=
    fun signal hsignal => Or.inr (Or.inl ⟨_, hsignal⟩)
  exact ⟨_, hposted.trans (Leads.signals hsch hduring), rfl, rfl, rfl, h.watched⟩

/-- A frame that nobody wants is sent to nobody. -/
theorem leads_refusal (h : t.Mirrors s) {pose : Pose} {cursor : Cursor}
    (hnext : s.cursor.next = (some pose, cursor)) (hwants : ¬sch.wantsMore cursor.index = true) :
    ∃ t', Leads sch { t with phase := .waiting, receiver := (s.awake sch).receiver } [] t' ∧
      t'.phase = .ended (.cancelled cursor.index) := by
  let wait : Session := { t with phase := .waiting, receiver := (s.awake sch).receiver }
  have hnobody : Leads sch wait [] (wait.perform .unwatch) := by
    refine ⟨[.unwatch], ?_, rfl, ?_⟩
    · exact List.forall_mem_singleton.mpr ⟨cursor.index, Bool.eq_false_iff.mpr hwants⟩
    · simp [Session.postedAll, Session.posted, Session.perform]
  have hfail : (wait.perform .unwatch).perform .frame
      = { wait.perform .unwatch with cursor, phase := .ended (.cancelled cursor.index) } := by
    show (wait.perform .unwatch).sendNext = _
    have hnext' : (wait.perform .unwatch).cursor.next = (some pose, cursor) :=
      (congrArg _ h.cursor).trans hnext
    unfold Session.sendNext
    rw [hnext']
    rfl
  refine ⟨_, hnobody.trans_nil (Leads.move (m := .frame) trivial ?_), ?_⟩
  · rw [hfail]
  · rw [hfail]

/-- **The passes of the loop are moves of a session,** in which the frames that are wanted are
sent, and which ends as the replay does. -/
theorem leads_loop (hsch : sch.OfWatcher) (s : State) :
    ∀ {t : Session}, t.Mirrors s → s.Expects sch →
      ∃ t', Leads sch t (sch.parcels (loop sch s).shown) t' ∧
        t'.phase = .ended (loop sch s).outcome := by
  fun_induction loop sch s with
  | case1 s hend =>
      intro t h hs
      have hlook : t.perform .look = { t with phase := .ended .completed } := by
        rw [perform_look h _ rfl, Session.look, if_pos (h.cursor ▸ hend)]
      exact ⟨_, Leads.move (m := .look) trivial (by rw [hlook]), by rw [hlook]; rfl⟩
  | case2 s hmore hflag =>
      intro t h hs
      have hlook : t.perform .look = { t with phase := .ended (.cancelled s.cursor.index) } := by
        rw [perform_look h _ rfl, Session.look, if_neg (h.cursor ▸ hmore),
          if_pos (h.receiver ▸ hflag), h.cursor]
      exact ⟨_, Leads.move (m := .look) trivial (by rw [hlook]), by rw [hlook]; rfl⟩
  | case3 s hmore hflag hw pose cursor hn hwants ih =>
      intro t h hs
      obtain ⟨hwait, hlater⟩ := leads_awake hsch h hs hmore hflag
      obtain ⟨t', hframe, hmirrors⟩ := leads_frame hsch h hn
      obtain ⟨t'', hrest, hend⟩ := ih hmirrors hlater
      have hparcels := sch.parcels_cons (f := cursor.shown pose (s.awake sch).time) hwants
        (loop sch (s.afterFrame sch cursor)).shown
      exact ⟨t'', hparcels ▸ hwait.trans_nil (hframe.trans hrest), hend⟩
  | case4 s hmore hflag hw pose cursor hn hwants =>
      intro t h hs
      obtain ⟨hwait, -⟩ := leads_awake hsch h hs hmore hflag
      obtain ⟨t', hrefusal, hend⟩ := leads_refusal h hn hwants
      have hparcels : sch.parcels [cursor.shown pose (s.awake sch).time] = [] :=
        Schedule.parcels_refused hwants
      exact ⟨t', hparcels.symm ▸ hwait.trans_nil hrefusal, hend⟩
  | case5 s hmore hflag hw cursor hn => exact absurd (Cursor.next_eq_none hn).1 hmore
  | case6 s hmore hflag hw ih =>
      intro t h hs
      obtain ⟨hwait, hlater⟩ := leads_awake hsch h hs hmore hflag
      let wait : Session := { t with phase := .waiting, receiver := (s.awake sch).receiver }
      let after : Session :=
        { wait with phase := .looking, receiver := (s.awake sch).receiver.observe }
      have hwake : wait.perform .news = after := if_pos ⟨rfl, hasNews_of_await hw⟩
      have hnews : Leads sch wait [] after :=
        hwake ▸ Leads.move (m := .news) trivial (by rw [hwake])
      have hmirrors : after.Mirrors (s.afterNews sch) := ⟨rfl, h.cursor, rfl, h.watched⟩
      obtain ⟨t', hrest, hend⟩ := ih hmirrors hlater
      exact ⟨t', hwait.trans_nil (hnews.trans_nil hrest), hend⟩

/-! ### The whole replay -/

/-- A session whose replay has not sent anything yet, when this much has come through the
channel. -/
def Session.atStart (frames : Trace) (r : Receiver) : Session :=
  { create frames with receiver := r }

/-- The first frame of a trace that has one goes to somebody who watches. -/
theorem leads_first (hsch : sch.OfWatcher) (pose : Pose) (rest : Trace) (interval : Nat)
    (r : Receiver) :
    ∃ t', Leads sch (.atStart (pose :: rest) r) [(0, pose)] t' ∧
      t'.Mirrors (.opening (pose :: rest) interval (r.receiveAll (sch.during 0)) sch.bursts) := by
  let first : Session :=
    { Session.atStart (pose :: rest) r with phase := .looking, queue := [(0, pose)] }
  have hfirst : Leads sch (.atStart (pose :: rest) r) [(0, pose)] first :=
    ⟨[.frame], List.forall_mem_singleton.mpr trivial, rfl, rfl⟩
  have hduring : ∀ signal ∈ sch.during 0, sch.Sends signal :=
    fun signal hsignal => Or.inr (Or.inl ⟨0, hsignal⟩)
  exact ⟨{ first with receiver := r.receiveAll (sch.during 0) },
    hfirst.trans (Leads.signals hsch hduring), rfl, rfl, rfl, rfl⟩

/-- **A replay is a course of a session.**  The moves in it are those of the replay and what its
schedule accounts for; they send the frames that the replay shows, but for one that nobody
wanted, and the session ends as the replay does. -/
theorem leads_run (frames : Trace) (settings : ReplaySettings) (hsch : sch.OfWatcher) :
    ∃ t, Leads sch (.create frames) (sch.parcels (run frames settings sch).shown) t ∧
      t.phase = .ended (run frames settings sch).outcome := by
  let r := Receiver.fresh.receiveAll sch.before
  have hbefore : Leads sch (.create frames) [] (.atStart frames r) :=
    Leads.signals hsch fun signal hsignal => Or.inl hsignal
  have hbursts : ∀ b ∈ sch.bursts, ∀ signal ∈ b.signals, sch.Sends signal :=
    fun b hb signal hsignal => Or.inr (Or.inr ⟨b, hb, hsignal⟩)
  cases frames with
  | nil =>
      let look : Session := { Session.atStart [] r with phase := .looking }
      let s : State := .opening [] settings.interval r sch.bursts
      have hskip : Leads sch (.atStart [] r) [] look := Leads.move (m := .frame) trivial rfl
      have hmirrors : look.Mirrors s := ⟨rfl, rfl, rfl, rfl⟩
      obtain ⟨t, hloop, hend⟩ := leads_loop hsch s hmirrors hbursts
      exact ⟨t, hbefore.trans_nil (hskip.trans_nil hloop), hend⟩
  | cons pose rest =>
      unfold run
      simp only [Cursor.frame?, Cursor.atStart, List.getElem?_cons_zero]
      by_cases hwants : sch.wantsMore 0 = true
      · rw [if_pos hwants]
        obtain ⟨t', hfirst, hmirrors⟩ := leads_first hsch pose rest settings.interval r
        obtain ⟨t'', hloop, hend⟩ := leads_loop hsch _ hmirrors hbursts
        have hparcels := sch.parcels_cons (f := { index := 0, pose, time := 0 }) hwants
          (loop sch (.opening (pose :: rest) settings.interval (r.receiveAll (sch.during 0))
            sch.bursts)).shown
        exact ⟨t'', hparcels ▸ hbefore.trans_nil (hfirst.trans hloop), hend⟩
      · rw [if_neg hwants]
        have hparcels : sch.parcels [{ index := 0, pose, time := 0 }] = [] :=
          Schedule.parcels_refused hwants
        have hnobody : sch.Allows .unwatch := ⟨0, Bool.eq_false_iff.mpr hwants⟩
        have hrefusal : Leads sch (.atStart (pose :: rest) r) []
            { Session.atStart (pose :: rest) r with
              phase := .ended (.cancelled 0), unwatched := true } :=
          ⟨[.unwatch, .frame],
            List.forall_mem_cons.mpr ⟨hnobody, List.forall_mem_singleton.mpr trivial⟩, rfl, rfl⟩
        exact ⟨_, hparcels.symm ▸ hbefore.trans_nil hrefusal, rfl⟩

end RobotMaze.Replay
