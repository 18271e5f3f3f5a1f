/-
A replay beside its watcher sends no frame twice and loses none.

The replay and its watcher take their steps in any order.  `Step` says once what each of
them can do to a session, guards included, and the rest is derived from it.  The number of
parcels that went into the queue is that of the frame at the cursor plus one, from the first
frame on and until a frame cannot be sent (`Fits`); the parcels are those of the first frames;
and the parcels taken out and those still in the queue are these in order as long as somebody
watches (`Orderly`).

The same kind of outcome has two causes, and it names a different frame for each: the last
one sent if the replay looked and found that it was asked to stop, the first one not sent
if there was nobody to send it to.  Which of the two it was shows in the last move of the
replay (`exists_last_move`).  Whether it was asked to stop is a matter of the watcher's
moves alone (`Asked`): once the means to stop it are given up, nothing is heard any more.

Sessions have no time, and any order of moves is a course of one.  The replays that a schedule
describes are among these courses (`leads_run`).
-/
import RobotMaze.Proofs.Replay.Course
import RobotMaze.Proofs.Replay.Timetable

namespace RobotMaze.Replay

/-- All frames with their numbers. -/
def parcels (frames : Trace) : List Parcel :=
  frames.zipIdx.map fun f => (f.2, f.1)

theorem length_parcels (frames : Trace) : (parcels frames).length = frames.length := by
  rw [parcels, List.length_map, List.length_zipIdx]

theorem getElem?_parcels {frames : Trace} {k : Nat} {pose : Pose} (h : frames[k]? = some pose) :
    (parcels frames)[k]? = some (k, pose) := by
  simp [parcels, h]

namespace Session

/-! ### What a move can do -/

/-- The replay comes to a frame, and this is the parcel to be sent. -/
inductive Reaches (s : Session) : Cursor → Parcel → Prop
  | first {pose : Pose} (hp : s.phase = .starting) (hframe : s.cursor.frame? = some pose) :
      Reaches s s.cursor (0, pose)
  | next {pose : Pose} {cursor : Cursor} (hp : s.phase = .waiting)
      (hnext : s.cursor.next = (some pose, cursor)) : Reaches s cursor (cursor.index, pose)

/-- The replay has no frame to come to. -/
def Exhausted (s : Session) : Prop :=
  s.phase = .starting ∧ s.cursor.frame? = none ∨ s.phase = .waiting ∧ s.cursor.atEnd = true

/-- The outcome of one move. -/
inductive Step (s : Session) : Move → Session → Prop
  | idle {m : Move} (hm : m ∈ [.frame, .look, .news, .receive]) : Step s m s
  | send {cursor : Cursor} {parcel : Parcel} (h : s.Reaches cursor parcel)
      (hthere : s.unwatched = false) :
      Step s .frame { s with cursor, phase := .looking, queue := s.queue ++ [parcel] }
  | fail {cursor : Cursor} {parcel : Parcel} (h : s.Reaches cursor parcel)
      (hgone : s.unwatched = true) :
      Step s .frame { s with cursor, phase := .ended (.cancelled parcel.1) }
  | skip (h : s.Exhausted) : Step s .frame { s with phase := .looking }
  | complete (hp : s.phase = .looking) (hend : s.cursor.atEnd = true) :
      Step s .look { s with phase := .ended .completed }
  | heed (hp : s.phase = .looking) (hmore : ¬s.cursor.atEnd = true)
      (hflag : s.receiver.flag = true) :
      Step s .look { s with phase := .ended (.cancelled s.cursor.index) }
  | wait (hp : s.phase = .looking) (hmore : ¬s.cursor.atEnd = true) :
      Step s .look { s with phase := .waiting }
  | wake (hp : s.phase = .waiting) :
      Step s .news { s with phase := .looking, receiver := s.receiver.observe }
  | take {parcel : Parcel} {rest : List Parcel} (hqueue : s.queue = parcel :: rest)
      (hthere : s.unwatched = false) :
      Step s .receive { s with queue := rest, received := s.received ++ [parcel] }
  | cancel : Step s .cancel { s with receiver := s.receiver.receive (.send true) }
  | letGo : Step s .letGo { s with receiver := s.receiver.receive .leave }
  | unwatch : Step s .unwatch { s with unwatched := true, queue := [] }

theorem step_look {s : Session} (hp : s.phase = .looking) : Step s .look s.look := by
  unfold look
  split
  · next hend => exact .complete hp hend
  · next hmore =>
    split
    · next hflag => exact .heed hp hmore hflag
    · exact .wait hp hmore

theorem Reaches.step {s : Session} {cursor : Cursor} {parcel : Parcel}
    (h : s.Reaches cursor parcel) : Step s .frame ({ s with cursor }.send parcel) := by
  unfold send
  split
  · next hgone => exact .fail h hgone
  · next hthere => exact .send h (Bool.eq_false_iff.mpr hthere)

theorem step_sendFirst {s : Session} (hp : s.phase = .starting) : Step s .frame s.sendFirst := by
  unfold sendFirst
  split
  · next pose hframe => exact (Reaches.first hp hframe).step
  · next hnone => exact .skip (Or.inl ⟨hp, hnone⟩)

theorem step_sendNext {s : Session} (hp : s.phase = .waiting) : Step s .frame s.sendNext := by
  unfold sendNext
  split
  · next pose cursor hnext => exact (Reaches.next hp hnext).step
  · next cursor hnext =>
    obtain ⟨hend, rfl⟩ := Cursor.next_eq_none hnext
    exact .skip (Or.inr ⟨hp, hend⟩)

theorem step_perform (s : Session) (m : Move) : Step s m (s.perform m) := by
  cases m with
  | frame =>
      simp only [perform]
      split
      · next hp => exact step_sendFirst hp
      · next hp => exact step_sendNext hp
      · exact .idle (by simp)
  | look =>
      show Step s .look (if s.phase = .looking then s.look else s)
      split
      · next hp => exact step_look hp
      · exact .idle (by simp)
  | news =>
      show Step s .news (if s.phase = .waiting ∧ s.receiver.hasNews then _ else s)
      split
      · next hp => exact .wake hp.1
      · exact .idle (by simp)
  | receive =>
      simp only [perform]
      split
      · exact .idle (by simp)
      · next parcel rest hqueue =>
        split
        · exact .idle (by simp)
        · next hthere => exact .take hqueue (Bool.eq_false_iff.mpr hthere)
  | cancel => exact .cancel
  | unwatch => exact .unwatch
  | letGo => exact .letGo

/-- A replay that has ended stays as it is, and sends nothing. -/
theorem Step.of_ended {s t : Session} {m : Move} (h : Step s m t) {o : ReplayOutcome}
    (ho : s.phase = .ended o) : t.phase = .ended o ∧ t.queue.drop s.queue.length = [] := by
  have hreach : ∀ {cursor : Cursor} {parcel : Parcel}, ¬s.Reaches cursor parcel := by
    rintro _ _ (⟨hp, -⟩ | ⟨hp, -⟩)
    · cases ho.symm.trans hp
    · cases ho.symm.trans hp
  cases h with
  | send h => exact absurd h hreach
  | fail h => exact absurd h hreach
  | skip h => rcases h with ⟨hp, -⟩ | ⟨hp, -⟩ <;> cases ho.symm.trans hp
  | complete hp => cases ho.symm.trans hp
  | heed hp => cases ho.symm.trans hp
  | wait hp => cases ho.symm.trans hp
  | wake hp => cases ho.symm.trans hp
  | take hqueue => exact ⟨ho, by simp [hqueue]⟩
  | idle => exact ⟨ho, List.drop_length⟩
  | cancel => exact ⟨ho, List.drop_length⟩
  | letGo => exact ⟨ho, List.drop_length⟩
  | unwatch => exact ⟨ho, List.drop_nil⟩

/-! ### How far a session has come -/

/-- The phases that a replay can be in when its cursor is here and it has sent so many frames. -/
inductive Fits (c : Cursor) : (sent : Nat) → Phase → Prop
  | starting (hindex : c.index = 0) : Fits c 0 .starting
  /-- The frame at the cursor is the last one sent. -/
  | looking (hin : c.index < c.frames.length) : Fits c (c.index + 1) .looking
  /-- There is no frame at all. -/
  | empty (hnil : c.frames = []) : Fits c 0 .looking
  | waiting (hmore : c.index + 1 < c.frames.length) : Fits c (c.index + 1) .waiting
  | completed : Fits c c.frames.length (.ended .completed)
  /-- It stopped at the last frame that it had sent. -/
  | heeded (hmore : c.index + 1 < c.frames.length) :
      Fits c (c.index + 1) (.ended (.cancelled c.index))
  /-- It stopped at the first frame that it could not send. -/
  | failed (hin : c.index < c.frames.length) : Fits c c.index (.ended (.cancelled c.index))

namespace Fits

variable {c : Cursor} {sent : Nat}

/-- A replay that looks and does not end there has sent the frame at its cursor. -/
theorem of_looking (h : Fits c sent .looking) (hmore : ¬c.atEnd = true) :
    sent = c.index + 1 ∧ c.index + 1 < c.frames.length := by
  have hlt : c.index + 1 < c.frames.length :=
    Nat.lt_of_not_le fun hle => hmore (Cursor.atEnd_iff_le.mpr hle)
  cases h with
  | looking => exact ⟨rfl, hlt⟩
  | empty hnil => simp [hnil] at hlt

theorem heed (h : Fits c sent .looking) (hmore : ¬c.atEnd = true) :
    Fits c sent (.ended (.cancelled c.index)) := by
  obtain ⟨rfl, hlt⟩ := h.of_looking hmore
  exact .heeded hlt

theorem wait (h : Fits c sent .looking) (hmore : ¬c.atEnd = true) : Fits c sent .waiting := by
  obtain ⟨rfl, hlt⟩ := h.of_looking hmore
  exact .waiting hlt

theorem wake (h : Fits c sent .waiting) : Fits c sent .looking := by
  cases h with
  | waiting hmore => exact .looking (Nat.lt_of_succ_lt hmore)

/-- A replay that looks at the end of the trace has sent all of it. -/
theorem complete (h : Fits c sent .looking) (hend : c.atEnd = true) :
    Fits c sent (.ended .completed) := by
  have hle : c.frames.length ≤ c.index + 1 := Cursor.atEnd_iff_le.mp hend
  have hall : sent = c.frames.length := by
    cases h with
    | looking hin => exact Nat.le_antisymm hin hle
    | empty hnil => simp [hnil]
  exact hall ▸ .completed

/-- The frame at the cursor of a replay that goes on is the last one sent. -/
theorem sent_eq {phase : Phase} (h : Fits c sent phase)
    (hgoes : phase = .looking ∨ phase = .waiting) (hsome : c.frames ≠ []) :
    sent = c.index + 1 := by
  cases h with
  | looking => rfl
  | waiting => rfl
  | empty hnil => exact absurd hnil hsome
  | _ => simp at hgoes

theorem of_completed (h : Fits c sent (.ended .completed)) : sent = c.frames.length := by
  cases h
  rfl

theorem of_cancelled {k : Nat} (h : Fits c sent (.ended (.cancelled k))) :
    k = c.index ∧ sent < c.frames.length := by
  cases h with
  | heeded hmore => exact ⟨rfl, hmore⟩
  | failed hin => exact ⟨rfl, hin⟩

end Fits

/-- What is true at all times of a session on these frames that has put these parcels into the
queue. -/
structure Orderly (frames : Trace) (posted : List Parcel) (s : Session) : Prop where
  trace : s.cursor.frames = frames
  inOrder : posted <+: parcels frames
  phase : Fits s.cursor posted.length s.phase
  received : s.received <+: posted
  /-- The queue loses nothing while there is somebody to take parcels out. -/
  queue : s.unwatched = false → s.received ++ s.queue = posted

theorem orderly_create (frames : Trace) : (create frames).Orderly frames [] where
  trace := rfl
  inOrder := List.nil_prefix
  phase := .starting rfl
  received := List.nil_prefix
  queue _ := rfl

/-- The frame that a replay comes to is the first one that it has not sent. -/
theorem Reaches.parcel_eq {s : Session} {cursor : Cursor} {parcel : Parcel} {sent : Nat}
    (h : s.Reaches cursor parcel) (hfits : Fits s.cursor sent s.phase) :
    cursor.frames = s.cursor.frames ∧ cursor.index = sent ∧ parcel.1 = sent ∧
      s.cursor.frames[sent]? = some parcel.2 := by
  cases h with
  | @first pose hp hframe =>
      rw [hp] at hfits
      obtain ⟨hindex⟩ := hfits
      exact ⟨rfl, hindex, rfl, hindex ▸ hframe⟩
  | next hp hnext =>
      rw [hp] at hfits
      obtain ⟨hpose, rfl⟩ := Cursor.next_eq_some_iff.mp hnext
      cases hfits with
      | waiting => exact ⟨rfl, rfl, rfl, hpose⟩

theorem Reaches.index_lt {s : Session} {cursor : Cursor} {parcel : Parcel} {sent : Nat}
    (h : s.Reaches cursor parcel) (hfits : Fits s.cursor sent s.phase) :
    cursor.index < cursor.frames.length := by
  obtain ⟨htrace, hindex, -, hpose⟩ := h.parcel_eq hfits
  rw [htrace, hindex]
  exact (List.getElem?_eq_some_iff.mp hpose).1

/-- A replay with no frame to come to has none at all. -/
theorem Exhausted.fits {s : Session} {sent : Nat} (h : s.Exhausted)
    (hfits : Fits s.cursor sent s.phase) : Fits s.cursor sent .looking := by
  rcases h with ⟨hp, hframe⟩ | ⟨hp, hend⟩
  · rw [hp] at hfits
    cases hfits with
    | starting hindex =>
        have hle : s.cursor.frames.length ≤ s.cursor.index := List.getElem?_eq_none_iff.mp hframe
        exact .empty (List.eq_nil_of_length_eq_zero (Nat.le_zero.mp (hindex ▸ hle)))
  · rw [hp] at hfits
    cases hfits with
    | waiting hmore => exact absurd (Cursor.atEnd_iff_le.mp hend) (Nat.not_le.mpr hmore)

/-- Behind the parcels of the first frames comes the one of the next frame. -/
theorem concat_prefix_parcels {frames : Trace} {posted : List Parcel} {parcel : Parcel}
    (h : posted <+: parcels frames) (hnumber : parcel.1 = posted.length)
    (hpose : frames[posted.length]? = some parcel.2) : posted ++ [parcel] <+: parcels frames := by
  have hget : (parcels frames)[posted.length]? = some parcel :=
    (getElem?_parcels hpose).trans (congrArg some (Prod.ext hnumber.symm rfl))
  have heq : posted ++ [parcel] = (parcels frames).take (posted.length + 1) := by
    rw [List.take_add_one, ← List.prefix_iff_eq_take.mp h, hget, Option.toList_some]
  exact heq ▸ List.take_prefix _ _

namespace Orderly

variable {frames : Trace} {posted : List Parcel} {s t : Session} {m : Move}

/-- The frame that is sent is the next one. -/
theorem send (h : s.Orderly frames posted) {cursor : Cursor} {parcel : Parcel}
    (hreaches : s.Reaches cursor parcel) (hthere : s.unwatched = false) :
    Orderly frames (posted ++ [parcel])
      { s with cursor, phase := .looking, queue := s.queue ++ [parcel] } := by
  obtain ⟨htrace, hindex, hnumber, hpose⟩ := hreaches.parcel_eq h.phase
  refine ⟨htrace.trans h.trace, ?_, ?_, h.received.trans (List.prefix_append _ _), ?_⟩
  · exact concat_prefix_parcels h.inOrder hnumber (h.trace ▸ hpose)
  · rw [List.length_append, List.length_singleton, ← hindex]
    exact .looking (hreaches.index_lt h.phase)
  · intro _
    show s.received ++ (s.queue ++ [parcel]) = posted ++ [parcel]
    rw [← List.append_assoc, h.queue hthere]

theorem fail (h : s.Orderly frames posted) {cursor : Cursor} {parcel : Parcel}
    (hreaches : s.Reaches cursor parcel) :
    Orderly frames posted { s with cursor, phase := .ended (.cancelled parcel.1) } := by
  obtain ⟨htrace, hindex, hnumber, -⟩ := hreaches.parcel_eq h.phase
  refine ⟨htrace.trans h.trace, h.inOrder, ?_, h.received, h.queue⟩
  show Fits cursor posted.length (.ended (.cancelled parcel.1))
  rw [hnumber, ← hindex]
  exact .failed (hreaches.index_lt h.phase)

theorem take (h : s.Orderly frames posted) {parcel : Parcel} {rest : List Parcel}
    (hqueue : s.queue = parcel :: rest) (hthere : s.unwatched = false) :
    Orderly frames posted { s with queue := rest, received := s.received ++ [parcel] } := by
  have hall : s.received ++ [parcel] ++ rest = posted := by
    rw [List.append_assoc, List.singleton_append, ← hqueue]
    exact h.queue hthere
  exact ⟨h.trace, h.inOrder, h.phase, ⟨rest, hall⟩, fun _ => hall⟩

theorem unwatch (h : s.Orderly frames posted) :
    Orderly frames posted { s with unwatched := true, queue := [] } :=
  ⟨h.trace, h.inOrder, h.phase, h.received, nofun⟩

/-- A queue that has not grown has got nothing new. -/
theorem of_length_le (h : t.Orderly frames posted) (hqueue : t.queue.length ≤ s.queue.length) :
    t.Orderly frames (posted ++ t.queue.drop s.queue.length) := by
  rwa [List.drop_eq_nil_of_le hqueue, List.append_nil]

/-- A move that only changes what the replay is about to do, or what it can hear. -/
theorem turn (h : s.Orderly frames posted) {phase : Phase} (receiver : Receiver)
    (hphase : Fits s.cursor posted.length phase) :
    Orderly frames posted { s with phase, receiver } :=
  ⟨h.trace, h.inOrder, hphase, h.received, h.queue⟩

/-- The order is kept by each move. -/
theorem step (h : s.Orderly frames posted) (hstep : Step s m t) :
    t.Orderly frames (posted ++ t.queue.drop s.queue.length) := by
  -- Only where a frame is sent is there something new in the queue.
  have hquiet {t : Session} (ht : t.Orderly frames posted) (hqueue : t.queue = s.queue) :
      t.Orderly frames (posted ++ t.queue.drop s.queue.length) :=
    ht.of_length_le (hqueue ▸ Nat.le_refl _)
  have hphase := h.phase
  cases hstep with
  | send hreaches hthere =>
      show Orderly _ (posted ++ (s.queue ++ _).drop s.queue.length) _
      rw [List.drop_left]
      exact h.send hreaches hthere
  | fail hreaches => exact hquiet (h.fail hreaches) rfl
  | take hqueue hthere =>
      refine (h.take hqueue hthere).of_length_le ?_
      rw [hqueue]
      exact Nat.le_succ _
  | unwatch => exact h.unwatch.of_length_le (Nat.zero_le _)
  | idle => exact hquiet h rfl
  | skip hnone => exact hquiet (h.turn _ (hnone.fits hphase)) rfl
  | complete hp hend => exact hquiet (h.turn _ ((hp ▸ hphase).complete hend)) rfl
  | heed hp hmore => exact hquiet (h.turn _ ((hp ▸ hphase).heed hmore)) rfl
  | wait hp hmore => exact hquiet (h.turn _ ((hp ▸ hphase).wait hmore)) rfl
  | wake hp => exact hquiet (h.turn _ (hp ▸ hphase).wake) rfl
  | cancel => exact hquiet (h.turn _ hphase) rfl
  | letGo => exact hquiet (h.turn _ hphase) rfl

end Orderly

/-- All frames are sent as soon as that many are. -/
theorem Orderly.eq_parcels {frames : Trace} {posted : List Parcel} {s : Session}
    (h : s.Orderly frames posted) (hall : posted.length = s.cursor.frames.length) :
    posted = parcels frames :=
  h.inOrder.eq_of_length (by rw [hall, h.trace, length_parcels])

/-- The order is kept by all moves. -/
theorem orderly_performAll {frames : Trace} (moves : List Move) :
    ∀ {s : Session} {posted : List Parcel}, s.Orderly frames posted →
      (s.performAll moves).Orderly frames (posted ++ s.postedAll moves) := by
  induction moves with
  | nil =>
      intro s posted h
      rwa [postedAll, List.append_nil]
  | cons m moves ih =>
      intro s posted h
      rw [postedAll, ← List.append_assoc]
      exact ih (h.step (step_perform s m))

/-! ### How it ends -/

/-- The watcher asks for the replay to stop, at a time when it still has the means to. -/
def Asked (moves : List Move) : Prop :=
  ∃ before after, moves = before ++ .cancel :: after ∧ .letGo ∉ before

/-- What a move sends through the channel. -/
def signal? : Move → Option Signal
  | .cancel => some (.send true)
  | .letGo => some .leave
  | _ => none

theorem asked_cons {m : Move} {moves : List Move} :
    Asked (m :: moves) ↔ m = .cancel ∨ m ≠ .letGo ∧ Asked moves := by
  constructor
  · rintro ⟨before, after, h, hkept⟩
    cases before with
    | nil => exact Or.inl (List.cons.inj h).1
    | cons first before =>
        obtain ⟨rfl, rfl⟩ := List.cons.inj h
        rw [List.mem_cons, not_or] at hkept
        exact Or.inr ⟨Ne.symm hkept.1, before, after, rfl, hkept.2⟩
  · rintro (rfl | ⟨hm, before, after, rfl, hkept⟩)
    · exact ⟨[], moves, rfl, by simp⟩
    · refine ⟨m :: before, after, rfl, ?_⟩
      rw [List.mem_cons, not_or]
      exact ⟨Ne.symm hm, hkept⟩

theorem Asked.append {moves : List Move} (h : Asked moves) (more : List Move) :
    Asked (moves ++ more) := by
  obtain ⟨before, after, rfl, hkept⟩ := h
  exact ⟨before, after ++ more, by simp, hkept⟩

theorem signals_cons (m : Move) (moves : List Move) :
    (m :: moves).filterMap signal? = (signal? m).toList ++ moves.filterMap signal? := by
  cases hm : signal? m with
  | none => rw [List.filterMap_cons_none hm, Option.toList_none, List.nil_append]
  | some signal => rw [List.filterMap_cons_some hm, Option.toList_some, List.singleton_append]

/-- The flag goes up exactly if the watcher asks. -/
theorem flagFrom_signals {moves : List Move} :
    ∀ {flag : Bool},
      flagFrom flag (moves.filterMap signal?) = true ↔ flag = true ∨ Asked moves := by
  induction moves with
  | nil =>
      intro flag
      simp [flagFrom, Asked]
  | cons m moves ih =>
      intro flag
      rw [asked_cons]
      cases m with
      | cancel => simp [signal?, flagFrom, ih]
      | letGo => simp [signal?, flagFrom]
      | _ =>
          rw [List.filterMap_cons_none rfl]
          simp [ih]

/-- A move that may leave a session as it is says nothing and does not end the watching. -/
theorem silent_of_mem {m : Move} (hm : m ∈ [.frame, .look, .news, .receive]) :
    signal? m = none ∧ m ≠ .unwatch := by
  simp only [List.mem_cons, List.not_mem_nil, or_false] at hm
  rcases hm with rfl | rfl | rfl | rfl <;> exact ⟨rfl, nofun⟩

theorem Step.knows {s t : Session} {m : Move} (h : Step s m t) {signals : List Signal}
    (hs : s.receiver.Knows signals) : t.receiver.Knows (signals ++ (signal? m).toList) := by
  have hsilent : signal? m = none → s.receiver.Knows (signals ++ (signal? m).toList) := by
    intro hm
    rwa [hm, Option.toList_none, List.append_nil]
  cases h with
  | idle hm => exact hsilent (silent_of_mem hm).1
  | wake => exact (hsilent rfl).observe
  | cancel => exact hs.receive (.send true)
  | letGo => exact hs.receive .leave
  | _ => exact hsilent rfl

theorem knows_performAll (moves : List Move) :
    ∀ {s : Session} {signals : List Signal}, s.receiver.Knows signals →
      (s.performAll moves).receiver.Knows (signals ++ moves.filterMap signal?) := by
  induction moves with
  | nil =>
      intro s signals h
      rwa [List.filterMap_nil, List.append_nil]
  | cons m moves ih =>
      intro s signals h
      rw [signals_cons, ← List.append_assoc]
      exact ih ((step_perform s m).knows h)

/-- The flag that the replay finds is up exactly if it was asked to stop. -/
theorem flag_performAll {frames : Trace} {moves : List Move} :
    ((create frames).performAll moves).receiver.flag = true ↔ Asked moves := by
  have hknows := knows_performAll moves (s := create frames) Receiver.Knows.fresh
  rw [hknows.flag, List.nil_append, flagAfter, flagFrom_signals]
  simp

/-- Only the watcher ends the watching. -/
theorem Step.unwatched_iff {s t : Session} {m : Move} (h : Step s m t) :
    t.unwatched = true ↔ s.unwatched = true ∨ m = .unwatch := by
  cases h with
  | idle hm => simp [(silent_of_mem hm).2]
  | _ => simp

theorem unwatched_performAll_iff (moves : List Move) :
    ∀ {s : Session}, (s.performAll moves).unwatched = true ↔
      s.unwatched = true ∨ .unwatch ∈ moves := by
  induction moves with
  | nil => intro s; simp [performAll]
  | cons m moves ih =>
      intro s
      rw [List.mem_cons, ← or_assoc, @eq_comm _ Move.unwatch, ← (step_perform s m).unwatched_iff]
      exact ih

/-- Nobody watches exactly if the watcher has gone away. -/
theorem unwatched_performAll_create_iff {frames : Trace} {moves : List Move} :
    ((create frames).performAll moves).unwatched = true ↔ .unwatch ∈ moves := by
  rw [unwatched_performAll_iff]
  exact or_iff_right Bool.false_ne_true

/-- The move that stops a replay, given the moves before it, the number of frames sent and
the frame that is named. -/
inductive Stop (before : List Move) : Move → (sent frame : Nat) → Prop
  /-- The replay looks and finds that it was asked to stop: the frame is the last one sent. -/
  | asked {frame : Nat} (hasked : Asked before) : Stop before .look (frame + 1) frame
  /-- There is nobody to send the next frame to: the frame is the first one not sent. -/
  | unheard {frame : Nat} (hgone : .unwatch ∈ before) : Stop before .frame frame frame

theorem Stop.cause {before : List Move} {m : Move} {sent frame : Nat}
    (h : Stop before m sent frame) : Asked before ∨ .unwatch ∈ before := by
  cases h with
  | asked hasked => exact Or.inl hasked
  | unheard hgone => exact Or.inr hgone

theorem outcome?_of_ended {s : Session} {o : ReplayOutcome} (h : s.phase = .ended o) :
    s.outcome? = some o := by
  unfold outcome?
  rw [h]

theorem ended_of_outcome? {s : Session} {o : ReplayOutcome} (h : s.outcome? = some o) :
    s.phase = .ended o := by
  unfold outcome? at h
  split at h
  · next hp =>
    cases h
    exact hp
  · cases h

/-- What has ended before, ends with no later move. -/
theorem performAll_of_ended {o : ReplayOutcome} (moves : List Move) :
    ∀ {s : Session}, s.phase = .ended o →
      (s.performAll moves).phase = .ended o ∧ s.postedAll moves = [] := by
  induction moves with
  | nil => intro s h; exact ⟨h, rfl⟩
  | cons m moves ih =>
      intro s h
      obtain ⟨hp, hposted⟩ := (step_perform s m).of_ended h
      obtain ⟨hp', hposted'⟩ := ih hp
      refine ⟨hp', ?_⟩
      rw [postedAll, posted, hposted, hposted', List.append_nil]

/-- A replay that has ended was ended by one of the moves. -/
theorem exists_last_move {o : ReplayOutcome} (moves : List Move) :
    ∀ {s : Session}, s.outcome? = none → (s.performAll moves).outcome? = some o →
      ∃ before move after, moves = before ++ move :: after ∧
        (s.performAll before).outcome? = none ∧
        ((s.performAll before).perform move).outcome? = some o ∧
        s.postedAll moves = s.postedAll before ++ (s.performAll before).posted move := by
  induction moves with
  | nil =>
      intro s hrun h
      cases hrun.symm.trans h
  | cons m moves ih =>
      intro s hrun h
      cases hm : (s.perform m).outcome? with
      | none =>
          obtain ⟨before, move, after, rfl, hbefore, hend, hposted⟩ := ih hm h
          refine ⟨m :: before, move, after, rfl, hbefore, hend, ?_⟩
          rw [postedAll, hposted, postedAll, List.append_assoc]
          rfl
      | some o' =>
          obtain ⟨hp, hposted⟩ := performAll_of_ended moves (ended_of_outcome? hm)
          have ho : (s.performAll (m :: moves)).outcome? = some o' := outcome?_of_ended hp
          refine ⟨[], m, moves, rfl, hrun, hm.trans (ho.symm.trans h), ?_⟩
          show s.posted m ++ (s.perform m).postedAll moves = s.posted m
          rw [hposted, List.append_nil]

theorem outcome?_of_phase_eq {s t : Session} (h : t.phase = s.phase) :
    t.outcome? = s.outcome? := by
  unfold outcome?
  rw [h]

/-- A move that stops a replay does so for one of the two reasons. -/
theorem stop_of_step {frames : Trace} {before : List Move} {m : Move} {t : Session} {k : Nat}
    (hstep : Step ((create frames).performAll before) m t)
    (hrun : ((create frames).performAll before).outcome? = none)
    (hend : t.outcome? = some (.cancelled k)) :
    Stop before m ((create frames).postedAll before ++
      t.queue.drop ((create frames).performAll before).queue.length).length k := by
  have hphase := (orderly_performAll before (orderly_create frames)).phase
  rw [List.nil_append] at hphase
  have hsame (h : t.phase = ((create frames).performAll before).phase) : False := by
    rw [outcome?_of_phase_eq h, hrun] at hend
    cases hend
  cases hstep with
  | heed hp hmore hflag =>
      obtain ⟨hsent, -⟩ := (hp ▸ hphase).of_looking hmore
      obtain rfl : _ = k := by simpa [outcome?] using hend
      rw [List.drop_length, List.append_nil, hsent]
      exact .asked (flag_performAll.mp hflag)
  | fail hreaches hgone =>
      obtain ⟨-, -, hnumber, -⟩ := hreaches.parcel_eq hphase
      obtain rfl : _ = k := by simpa [outcome?] using hend
      rw [List.drop_length, List.append_nil, hnumber]
      exact .unheard (unwatched_performAll_create_iff.mp hgone)
  | send | skip | complete | wait | wake => cases hend
  | idle | take | cancel | letGo | unwatch => exact (hsame rfl).elim

/-- A replay is stopped only if somebody asked for it or nobody watches. -/
theorem asked_or_unwatched {frames : Trace} {moves : List Move} {k : Nat}
    (h : ((create frames).performAll moves).outcome? = some (.cancelled k)) :
    Asked moves ∨ .unwatch ∈ moves := by
  obtain ⟨before, move, after, rfl, hrun, hend, -⟩ := exists_last_move moves rfl h
  rcases (stop_of_step (step_perform _ move) hrun hend).cause with hasked | hgone
  · exact Or.inl (hasked.append _)
  · exact Or.inr (List.mem_append_left _ hgone)

/-! ### Left alone -/

/-- A replay that is left alone ends, by moves of its own. -/
theorem join_eq_performAll (s : Session) :
    ∃ more : List Move, s.join = s.performAll more ∧
      (∀ m ∈ more, m ∈ [Move.frame, .look, .news]) ∧ s.join.outcome?.isSome := by
  fun_induction join s with
  | case1 s hend => exact ⟨[], rfl, nofun, hend⟩
  | case2 s hrun ih =>
      obtain ⟨more, heq, hown, hend⟩ := ih
      refine ⟨s.nextMove :: more, heq, ?_, hend⟩
      intro m hm
      rcases List.mem_cons.mp hm with rfl | hm
      · unfold nextMove
        split
        · simp
        · split <;> simp
        · simp
      · exact hown m hm

/-- The moves of the replay do not count as asking. -/
theorem asked_append_iff {moves more : List Move}
    (hown : ∀ m ∈ more, m ∈ [Move.frame, .look, .news]) : Asked (moves ++ more) ↔ Asked moves := by
  have hsilent : more.filterMap signal? = [] := by
    rw [List.filterMap_eq_nil_iff]
    intro m hm
    have hm := hown m hm
    simp only [List.mem_cons, List.not_mem_nil, or_false] at hm
    rcases hm with rfl | rfl | rfl <;> rfl
  have hall := @flagFrom_signals (moves ++ more) false
  rw [List.filterMap_append, hsilent, List.append_nil, flagFrom_signals] at hall
  simpa using hall.symm

/-- If nobody stops it, a replay sends all frames in the end. -/
theorem join_completed {frames : Trace} {moves : List Move} (hwatched : .unwatch ∉ moves)
    (hkept : ¬Asked moves) :
    let s := (create frames).performAll moves
    s.join.outcome? = some .completed ∧ s.join.received ++ s.join.queue = parcels frames := by
  intro s
  obtain ⟨more, heq, hown, hend⟩ := join_eq_performAll s
  rw [← performAll_append] at heq
  have hstay : .unwatch ∉ moves ++ more := by
    intro hgone
    rcases List.mem_append.mp hgone with hgone | hgone
    · exact hwatched hgone
    · have hgone := hown _ hgone
      simp at hgone
  have horderly := orderly_performAll (moves ++ more) (orderly_create frames)
  rw [← heq, List.nil_append] at horderly
  obtain ⟨o, ho⟩ := Option.isSome_iff_exists.mp hend
  cases o with
  | completed =>
      have hphase := horderly.phase
      rw [ended_of_outcome? ho] at hphase
      have hthere : s.join.unwatched = false := by
        rw [heq, ← Bool.not_eq_true, unwatched_performAll_create_iff]
        exact hstay
      exact ⟨ho, (horderly.queue hthere).trans (horderly.eq_parcels hphase.of_completed)⟩
  | cancelled k =>
      rw [heq] at ho
      rcases asked_or_unwatched ho with hasked | hgone
      · exact absurd ((asked_append_iff hown).mp hasked) hkept
      · exact absurd hgone hstay

/-! ### The delivery -/

/--
**A replay beside its watcher sends no frame twice and loses none.**  What a replay does under a
schedule is a course of a session: it ends in the same way and the same frames are sent.  And
whatever the two have done so far in a session, the frames sent are the first ones of the
trace, each with its number; the watcher has got a first part of these, and all that are not
still in the queue unless it went away.  While a replay goes on, the frame at its cursor is the
last one sent.  It completes exactly if it has sent all frames.  If it was stopped, the frame
that is named is the one at the cursor, one move stopped it, and that move and what was done
before it say why, and whether this frame was sent.  Nothing else keeps a replay from sending
all frames in the end, the loss of the means to stop it included.
-/
theorem delivers_in_order (frames : Trace) :
    (∀ settings sch, Schedule.OfWatcher sch →
      ∃ moves, (∀ m ∈ moves, sch.Allows m) ∧
        ((create frames).performAll moves).outcome? = some (run frames settings sch).outcome ∧
        (create frames).postedAll moves = sch.parcels (run frames settings sch).shown) ∧
    ∀ moves,
      let s := (create frames).performAll moves
      let posted := (create frames).postedAll moves
      (posted <+: parcels frames ∧ s.received <+: posted ∧
          (.unwatch ∉ moves → s.received ++ s.queue = posted)) ∧
        (s.phase = .looking ∨ s.phase = .waiting → frames ≠ [] →
          posted.length = s.cursor.index + 1) ∧
        (∀ o, s.outcome? = some o → (o = .completed ↔ posted = parcels frames)) ∧
        (∀ k, s.outcome? = some (.cancelled k) →
          k = s.cursor.index ∧ posted.length < frames.length ∧
            ∃ before move after, moves = before ++ move :: after ∧
              ((create frames).performAll before).outcome? = none ∧
              (((create frames).performAll before).perform move).outcome? = some (.cancelled k) ∧
              Stop before move posted.length k) ∧
        (.unwatch ∉ moves → ¬Asked moves →
          (∀ k, s.outcome? ≠ some (.cancelled k)) ∧
            s.join.outcome? = some .completed ∧
            s.join.received ++ s.join.queue = parcels frames) := by
  refine ⟨?_, ?_⟩
  · intro settings sch hsch
    obtain ⟨t, ⟨moves, hallows, rfl, hposted⟩, hend⟩ := leads_run frames settings hsch
    exact ⟨moves, hallows, outcome?_of_ended hend, hposted⟩
  intro moves s posted
  have horderly := orderly_performAll moves (orderly_create frames)
  rw [List.nil_append] at horderly
  refine ⟨⟨horderly.inOrder, horderly.received, ?_⟩, ?_, ?_, ?_, ?_⟩
  · intro hwatched
    refine horderly.queue (Bool.eq_false_iff.mpr fun hgone => hwatched ?_)
    exact unwatched_performAll_create_iff.mp hgone
  · intro hgoes hsome
    exact horderly.phase.sent_eq hgoes (horderly.trace.symm ▸ hsome)
  · intro o ho
    have hphase := horderly.phase
    rw [ended_of_outcome? ho] at hphase
    cases o with
    | completed => exact iff_of_true rfl (horderly.eq_parcels hphase.of_completed)
    | cancelled k =>
        refine iff_of_false nofun fun hall => ?_
        have hlt := hphase.of_cancelled.2
        rw [show ((create frames).postedAll moves) = _ from hall, length_parcels,
          horderly.trace] at hlt
        exact Nat.lt_irrefl _ hlt
  · intro k hk
    have hphase := horderly.phase
    rw [ended_of_outcome? hk] at hphase
    obtain ⟨hindex, hlt⟩ := hphase.of_cancelled
    obtain ⟨before, move, after, hmoves, hrun, hend, hlast⟩ := exists_last_move moves rfl hk
    refine ⟨hindex, horderly.trace ▸ hlt, before, move, after, hmoves, hrun, hend, ?_⟩
    show Stop before move ((create frames).postedAll moves).length k
    rw [hlast]
    exact stop_of_step (step_perform _ move) hrun hend
  · intro hwatched hkept
    refine ⟨fun k hk => ?_, join_completed hwatched hkept⟩
    rcases asked_or_unwatched hk with hasked | hgone
    · exact hkept hasked
    · exact hwatched hgone

/-- A schedule that asks for the replay to stop while it waits for its second frame; a session
that is stopped after two frames of which one was taken out; and one that is left alone after
the first by a watcher who can no longer stop it. -/
theorem delivers_in_order_nook :
    let frames := (Level.nook.run Program.throughNook).trace
    let sch : Schedule := { bursts := [⟨500000, true, [.send true]⟩] }
    let stopped : List Move := [.frame, .look, .receive, .frame, .cancel, .look]
    let leftAlone : List Move := [.frame, .look, .letGo, .news, .look]
    (sch.OfWatcher ∧
        ∃ moves, (∀ m ∈ moves, sch.Allows m) ∧
          ((create frames).performAll moves).outcome?
            = some (run frames ⟨1⟩ sch).outcome) ∧
      ((create frames).performAll stopped).outcome? = some (.cancelled 1) ∧
        (∃ before move after, stopped = before ++ move :: after ∧
          ((create frames).performAll before).outcome? = none ∧
          (((create frames).performAll before).perform move).outcome? = some (.cancelled 1) ∧
          Stop before move ((create frames).postedAll stopped).length 1) ∧
      (.unwatch ∉ leftAlone ∧ ¬Asked leftAlone ∧
        ((create frames).performAll leftAlone).join.outcome? = some .completed) := by
  intro frames sch stopped leftAlone
  have hsch : sch.OfWatcher := by
    rintro (hsends | ⟨k, hsends⟩ | ⟨b, hb, hsends⟩)
    · cases hsends
    · cases hsends
    · obtain rfl := List.mem_singleton.mp hb
      simp at hsends
  have hstopped : ((create frames).performAll stopped).outcome? = some (.cancelled 1) := rfl
  have hwatched : .unwatch ∉ leftAlone := by decide
  have hlow : ((create frames).performAll leftAlone).receiver.flag = false := rfl
  have hkept : ¬Asked leftAlone :=
    fun hasked => Bool.false_ne_true (hlow.symm.trans (flag_performAll.mpr hasked))
  obtain ⟨hcourse, hsession⟩ := delivers_in_order frames
  obtain ⟨moves, hallows, hend, -⟩ := hcourse ⟨1⟩ sch hsch
  obtain ⟨-, -, -, hstop, -⟩ := hsession stopped
  obtain ⟨-, -, -, -, hdone⟩ := hsession leftAlone
  exact ⟨⟨hsch, moves, hallows, hend⟩, hstopped, (hstop 1 hstopped).2.2, hwatched, hkept,
    (hdone hwatched hkept).2.1⟩

end Session

end RobotMaze.Replay
