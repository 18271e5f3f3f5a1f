/-
The log of a campaign is a path through the stages.

Whenever a stage is entered, the log takes note of it and of the stage that is left.  So the
transitions in the log fit together: each leaves the stage that the one before it entered,
and they lead from the stage at the beginning to the stage at the end (`Stage.Path`).  Each
transition is one of those that a campaign is meant to have (`Legal`).

What a single call enters in the log is said once (`Logged`): no transition at all, or one
that solves no level, or a success.  A success is the only call that can enter two, and all
of its events follow from the level that it solves.
-/
import Mathlib.Data.List.Basic
import RobotMaze.Proofs.Campaign.History

namespace RobotMaze

namespace Event

/-- The stage that was left and the stage that was entered, if an event tells of such. -/
def transition? : Event → Option (Stage × Stage)
  | .progressed left entered => some (left, entered)
  | _ => none

/-- Transitions are what a log shows under this message. -/
theorem isSome_transition? (e : Event) :
    e.transition?.isSome = (e.entry.message == "progression") := by
  cases e <;> simp [transition?, entry]

theorem transition?_eq_some_iff {e : Event} {left entered : Stage} :
    e.transition? = some (left, entered) ↔ e = .progressed left entered := by
  cases e <;> simp [transition?]

/-- The transitions in a log. -/
def transitions (es : List Event) : List (Stage × Stage) :=
  es.filterMap transition?

theorem mem_transitions {es : List Event} {left entered : Stage} :
    (left, entered) ∈ transitions es ↔ .progressed left entered ∈ es := by
  unfold transitions
  simp only [List.mem_filterMap, transition?_eq_some_iff, exists_eq_right]

theorem progressed_notMem {es : List Event} (h : transitions es = []) (left entered : Stage) :
    .progressed left entered ∉ es := by
  rw [← mem_transitions, h]
  exact List.not_mem_nil

theorem transitions_append (es more : List Event) :
    transitions (es ++ more) = transitions es ++ transitions more :=
  List.filterMap_append

end Event

open Event (transitions)

/-- A run of a program enters no transition in the log. -/
theorem Level.transitions_runEvents (l : Level) (cs : Program) :
    transitions (l.runEvents cs) = [] := by
  refine List.filterMap_eq_nil_iff.mpr fun e he => ?_
  rcases List.mem_append.mp he with hblocked | hend
  · obtain ⟨pose, -, rfl⟩ := List.mem_map.mp hblocked
    rfl
  · rw [List.mem_singleton.mp hend]
    rfl

/-! ### Paths -/

namespace Stage

/-- A list of transitions leads from one stage to another: the first leaves the one, each of
the others leaves the stage that was entered before, and the last enters the other. -/
inductive Path : Stage → List (Stage × Stage) → Stage → Prop
  | nil (s : Stage) : Path s [] s
  | cons {t u : Stage} {rest : List (Stage × Stage)} (s : Stage) (h : Path t rest u) :
      Path s ((s, t) :: rest) u

namespace Path

variable {s t u : Stage} {ts rest : List (Stage × Stage)}

theorem append (h : Path s ts t) (hrest : Path t rest u) : Path s (ts ++ rest) u := by
  induction h with
  | nil s => exact hrest
  | cons s _ ih => exact cons s (ih hrest)

theorem eq_of_nil (h : Path s [] u) : s = u := by
  cases h
  rfl

/-- A path that never enters the stage where it ends does not go anywhere. -/
theorem eq_nil (h : Path s ts u) (hne : ∀ x ∈ ts, x.2 ≠ u) : ts = [] := by
  induction h with
  | nil s => rfl
  | @cons t u rest s h ih =>
      obtain ⟨hfirst, hothers⟩ := List.forall_mem_cons.mp hne
      rw [ih hothers] at h
      exact absurd h.eq_of_nil hfirst

end Path
end Stage

namespace Campaign

variable {p : Campaign} {k : Nat} {t : Turn Reply}

/-- The transitions that a campaign is meant to have, given by how it is before a call. -/
inductive Legal (p : Campaign) : Stage → Stage → Prop
  | start (h : 0 < p.levels.length) : Legal p .notStarted (.inProgress 0)
  | startOfNone (h : p.levels.length = 0) : Legal p .notStarted .allComplete
  | solve (i : Nat) : Legal p (.inProgress i) (.solved i)
  | goOn {i : Nat} (h : i + 1 < p.levels.length) : Legal p (.solved i) (.inProgress (i + 1))
  | finish {i : Nat} (h : i + 1 = p.levels.length) : Legal p (.solved i) .allComplete
  | select (s : Stage) {i : Nat} (h : p.isUnlocked i = true) : Legal p s (.inProgress i)

theorem Legal.ne_notStarted {left entered : Stage} (h : Legal p left entered) :
    entered ≠ .notStarted := by
  cases h <;> exact Stage.noConfusion

theorem legal_stageAfter {i : Nat} (hi : i < p.levels.length) :
    Legal p (.solved i) (p.stageAfter i) := by
  unfold stageAfter
  by_cases hnext : i + 1 < p.levels.length
  · rw [if_pos hnext]
    exact Legal.goOn hnext
  · rw [if_neg hnext]
    exact Legal.finish (by omega)

/-- What the log has noted when a list of calls is answered. -/
def log (p : Campaign) (calls : List Call) : List Event :=
  (p.turns calls).flatMap Turn.events

theorem log_cons (p : Campaign) (c : Call) (calls : List Call) :
    p.log (c :: calls) = (p.perform c).events ++ (p.perform c).state.log calls :=
  rfl

theorem log_concat (p : Campaign) (calls : List Call) (c : Call) :
    p.log (calls ++ [c]) = p.log calls ++ ((p.performAll calls).perform c).events := by
  unfold log
  rw [turns_append, List.flatMap_append, turns_cons, List.flatMap_cons]
  exact congrArg _ (List.append_nil _)

/-! ### What one call enters in the log -/

/-- Going on from a solved level is noted at once if the player goes on at once. -/
def onward (p : Campaign) (i : Nat) : List Event :=
  if p.settings.autoAdvance then [.progressed (.solved i) (p.stageAfter i)] else []

/-- What a turn enters in the log. -/
inductive Logged (p : Campaign) (t : Turn Reply) : Prop
  | quiet (hfail : ¬t.succeeds = true) (hstage : t.state.stage = p.stage)
      (hevents : transitions t.events = [])
  | moves (hfail : ¬t.succeeds = true) (hunsolved : ∀ i, t.state.stage ≠ .solved i)
      (hlegal : Legal p p.stage t.state.stage)
      (hevents : t.events = [.progressed p.stage t.state.stage])
  | solves {i : Nat} {l : Level} {cs : Program} (hsucc : t.succeeds = true)
      (hs : p.stage = .inProgress i) (hl : p.levels[i]? = some l)
      (hstage : t.state.stage = if p.settings.autoAdvance then p.stageAfter i else .solved i)
      (hevents : t.events =
        (l.runEvents cs ++ [.levelSolved l.name i (t.state.attempts i)]) ++
          .progressed (.inProgress i) (.solved i) :: p.onward i)

theorem succeed_events (p : Campaign) (i : Nat) (l : Level) :
    (p.succeed i l).events =
      .levelSolved l.name i (p.attempts i) :: .progressed p.stage (.solved i) :: p.onward i := by
  unfold succeed onward
  split <;> rfl

theorem attempts_markSolved (p : Campaign) (i j : Nat) :
    (p.markSolved i).attempts j = p.attempts j := by
  unfold attempts markSolved
  rw [List.getElem?_modify]
  cases p.standings[j]? with
  | none => rfl
  | some s =>
      show (if i = j then { s with solved := true } else s).attempts = s.attempts
      split <;> rfl

theorem logged_enter {s : Stage} (hlegal : Legal p p.stage s) (hs : ∀ i, s ≠ .solved i) :
    Logged p ((p.enter s).map Reply.stage) :=
  .moves (not_succeeds_map_stage _) hs hlegal rfl

theorem logged_refuse (p : Campaign) (e : CampaignError) : Logged p (p.refuse e) :=
  .quiet Bool.false_ne_true rfl rfl

theorem stageAfter_ne_solved (p : Campaign) (i j : Nat) : p.stageAfter i ≠ .solved j := by
  unfold stageAfter
  split <;> exact Stage.noConfusion

theorem logged_start (p : Campaign) : Logged p (p.perform .start) := by
  show Logged p (p.start.map Reply.stage)
  by_cases hs : p.stage = .notStarted
  · rw [start_of_notStarted hs]
    cases hl : p.levels with
    | nil =>
        refine logged_enter ?_ fun i => Stage.noConfusion
        rw [hs]
        exact Legal.startOfNone (congrArg List.length hl)
    | cons l ls =>
        refine logged_enter ?_ fun i => Stage.noConfusion
        rw [hs]
        exact Legal.start (hl ▸ Nat.succ_pos _)
  · rw [start_of_started hs]
    exact .quiet (not_succeeds_map_stage _) rfl rfl

theorem logged_submit (p : Campaign) (cs : Program) : Logged p (p.perform (.submit cs)) := by
  show Logged p ((p.submit cs).map Reply.outcome)
  rcases p.playing_or_missing with ⟨i, l, hs, hl⟩ | hmissing
  · cases ho : (l.run cs).solved with
    | false =>
        rw [submit_of_failure hs hl ho]
        refine .quiet ?_ rfl (l.transitions_runEvents cs)
        exact fun hsucc => absurd (ho.symm.trans hsucc) Bool.false_ne_true
    | true =>
        have hsucc : (p.perform (.submit cs)).succeeds = true :=
          succeeds_submit_iff.mpr ⟨i, l, hs, hl, ho⟩
        have hstage : (p.submit cs).state.stage =
            if p.settings.autoAdvance then p.stageAfter i else .solved i := by
          rw [submit_of_success hs hl ho]
          exact congrArg Campaign.stage (succeed_state _ i l)
        have hattempts : (p.submit cs).state.attempts i = (p.countAttempt i).attempts i := by
          rw [submit_of_success hs hl ho, succeed_state]
          exact attempts_markSolved _ i i
        have hevents : (p.submit cs).events =
            (l.runEvents cs ++ [.levelSolved l.name i ((p.submit cs).state.attempts i)]) ++
              .progressed (.inProgress i) (.solved i) :: p.onward i := by
          rw [hattempts, submit_of_success hs hl ho, succeed_events, List.append_assoc, ← hs]
          rfl
        exact .solves hsucc hs hl hstage hevents
  · rw [submit_of_missing hmissing]
    exact logged_refuse p _

theorem logged_select (p : Campaign) (i : Nat) : Logged p (p.perform (.select i)) := by
  show Logged p ((p.select i).map Reply.stage)
  by_cases hu : p.isUnlocked i = true
  · rw [select_of_unlocked hu]
    exact logged_enter (Legal.select p.stage hu) fun i => Stage.noConfusion
  · by_cases hi : i < p.levels.length
    · rw [select_of_locked hi hu]
      exact logged_refuse p _
    · rw [select_of_outOfRange hi]
      exact logged_refuse p _

namespace InOrder

theorem logged_advance (h : InOrder p k) : Logged p (p.perform .advance) := by
  show Logged p (p.advance.map Reply.stage)
  rcases Classical.exists_or_forall_not fun i => p.stage = .solved i with ⟨i, hs⟩ | hnone
  · have hfits := h.fits
    rw [hs] at hfits
    rw [advance_of_solved hs]
    refine logged_enter ?_ (p.stageAfter_ne_solved i)
    rw [hs]
    exact legal_stageAfter (Nat.lt_of_lt_of_le hfits.1 h.le_length)
  · rw [advance_of_not_solved hnone]
    exact logged_refuse p _

theorem logged_perform (h : InOrder p k) (c : Call) : Logged p (p.perform c) := by
  cases c with
  | start => exact logged_start p
  | submit cs => exact logged_submit p cs
  | advance => exact h.logged_advance
  | select i => exact logged_select p i

end InOrder

/-! ### What a turn means for the log -/

/-- The transition of a success, and the one after it. -/
theorem transitions_success {i attempts : Nat} {l : Level} {cs : Program} :
    transitions ((l.runEvents cs ++ [.levelSolved l.name i attempts]) ++
        .progressed (.inProgress i) (.solved i) :: p.onward i) =
      (.inProgress i, .solved i) ::
        if p.settings.autoAdvance then [(.solved i, p.stageAfter i)] else [] := by
  rw [Event.transitions_append, Event.transitions_append, l.transitions_runEvents]
  unfold onward
  split <;> rfl

/-- Neither a run nor going on from a level is noted like a level that is solved. -/
theorem solve_notMem_runEvents (l : Level) (cs : Program) (i j attempts : Nat) :
    .progressed (.inProgress i) (.solved i) ∉
      l.runEvents cs ++ [.levelSolved l.name j attempts] := by
  refine Event.progressed_notMem ?_ _ _
  rw [Event.transitions_append, l.transitions_runEvents]
  rfl

theorem solve_notMem_onward (p : Campaign) (i j : Nat) :
    .progressed (.inProgress i) (.solved i) ∉ p.onward j := by
  unfold onward
  split
  · exact fun hmem => Event.noConfusion (List.mem_singleton.mp hmem) Stage.noConfusion
  · exact List.not_mem_nil

namespace Logged

theorem path (h : Logged p t) : Stage.Path p.stage (transitions t.events) t.state.stage := by
  cases h with
  | quiet _ hstage hevents =>
      rw [hevents, hstage]
      exact .nil _
  | moves _ _ _ hevents =>
      rw [hevents]
      exact .cons _ (.nil _)
  | solves _ hs _ hstage hevents =>
      rw [hevents, transitions_success, hs, hstage]
      refine .cons _ ?_
      split
      · exact .cons _ (.nil _)
      · exact .nil _

theorem legal (h : Logged p t) :
    ∀ x ∈ transitions t.events, Legal p x.1 x.2 := by
  cases h with
  | quiet _ _ hevents =>
      rw [hevents]
      exact fun x hx => absurd hx List.not_mem_nil
  | moves _ _ hlegal hevents =>
      rw [hevents]
      exact List.forall_mem_singleton.mpr hlegal
  | @solves i l cs _ _ hl _ hevents =>
      rw [hevents, transitions_success]
      refine List.forall_mem_cons.mpr ⟨Legal.solve i, ?_⟩
      split
      · exact List.forall_mem_singleton.mpr
          (legal_stageAfter (List.getElem?_eq_some_iff.mp hl).1)
      · exact fun x hx => absurd hx List.not_mem_nil

/-- A turn notes that a level is solved if it is a success on this level, and then once. -/
theorem count_solve (h : Logged p t) (i : Nat) :
    t.events.count (.progressed (.inProgress i) (.solved i)) =
      if p.stage = .inProgress i ∧ t.succeeds = true then 1 else 0 := by
  cases h with
  | quiet hfail _ hevents =>
      rw [if_neg fun hand => hfail hand.2]
      exact List.count_eq_zero_of_not_mem (Event.progressed_notMem hevents _ _)
  | moves hfail hunsolved _ hevents =>
      rw [hevents, if_neg fun hand => hfail hand.2]
      refine List.count_eq_zero_of_not_mem fun hmem => ?_
      exact hunsolved i (Event.progressed.inj (List.mem_singleton.mp hmem)).2.symm
  | @solves j l cs hsucc hs _ _ hevents =>
      rw [hevents, List.count_append, List.count_cons,
        List.count_eq_zero_of_not_mem (solve_notMem_runEvents l cs i j _),
        List.count_eq_zero_of_not_mem (solve_notMem_onward p i j), hs]
      simp [hsucc]

/-- Where a turn notes that a level is solved, the event of the success is right before, and
all that can follow is that the player goes on. -/
theorem around_solve (h : Logged p t) {i : Nat} {before later : List Event}
    (hsplit : t.events = before ++ .progressed (.inProgress i) (.solved i) :: later) :
    (∃ l earlier, p.levels[i]? = some l ∧
      before = earlier ++ [.levelSolved l.name i (t.state.attempts i)]) ∧
    later = p.onward i := by
  have hmem : .progressed (.inProgress i) (.solved i) ∈ t.events := by
    rw [hsplit]
    exact List.mem_append_right before (List.mem_cons_self ..)
  cases h with
  | quiet _ _ hevents => exact absurd hmem (Event.progressed_notMem hevents _ _)
  | moves _ hunsolved _ hevents =>
      rw [hevents] at hmem
      exact absurd (Event.progressed.inj (List.mem_singleton.mp hmem)).2.symm (hunsolved i)
  | @solves j l cs _ _ hl _ hevents =>
      rw [hevents, List.append_cons_inj_of_notMem (solve_notMem_runEvents l cs i j _)
        (solve_notMem_onward p i j)] at hsplit
      obtain ⟨hbefore, hsolve, hlater⟩ := hsplit
      obtain rfl := Stage.solved.inj (Event.progressed.inj hsolve).2
      exact ⟨⟨l, l.runEvents cs, hl, hbefore.symm⟩, hlater.symm⟩

end Logged

/-! ### A whole list of calls -/

namespace InOrder

theorem path_log (calls : List Call) : ∀ {p : Campaign} {k : Nat}, InOrder p k →
    Stage.Path p.stage (transitions (p.log calls)) (p.performAll calls).stage := by
  induction calls with
  | nil => exact fun _ => .nil _
  | cons c calls ih =>
      intro p k h
      obtain ⟨k', h'⟩ := h.step (p.step_perform c)
      rw [log_cons, Event.transitions_append]
      exact (h.logged_perform c).path.append (ih h')

theorem entered_ne_notStarted (calls : List Call) : ∀ {p : Campaign} {k : Nat}, InOrder p k →
    ∀ x ∈ transitions (p.log calls), x.2 ≠ .notStarted := by
  induction calls with
  | nil => exact fun _ x hx => absurd hx List.not_mem_nil
  | cons c calls ih =>
      intro p k h x hx
      obtain ⟨k', h'⟩ := h.step (p.step_perform c)
      rw [log_cons, Event.transitions_append] at hx
      rcases List.mem_append.mp hx with hnow | hlater
      · exact ((h.logged_perform c).legal x hnow).ne_notStarted
      · exact ih h' x hlater

/-- A success is a submission for the level in progress. -/
theorem countP_submission? (h : InOrder p k) (c : Call) (i : Nat) :
    ((p.submission? c).toList.countP fun s => s.level == i && s.solves) =
      if p.stage = .inProgress i ∧ (p.perform c).succeeds = true then 1 else 0 := by
  rw [← List.countP_filter, filter_solves_submission?]
  by_cases hsucc : (p.perform c).succeeds = true
  · obtain ⟨s, hs⟩ := exists_submission? hsucc
    rw [if_pos hsucc, hs, (h.submission?_eq_some hs).1]
    simp [hsucc, List.countP_cons]
  · rw [if_neg hsucc, if_neg fun hand => hsucc hand.2]
    rfl

theorem count_log (calls : List Call) : ∀ {p : Campaign} {k : Nat}, InOrder p k → ∀ i : Nat,
    (p.log calls).count (.progressed (.inProgress i) (.solved i)) =
      (p.history calls).countP fun s => s.level == i && s.solves := by
  induction calls with
  | nil => exact fun _ _ => rfl
  | cons c calls ih =>
      intro p k h i
      obtain ⟨k', h'⟩ := h.step (p.step_perform c)
      rw [log_cons, history_cons, List.count_append, List.countP_append, ih h',
        (h.logged_perform c).count_solve, h.countP_submission?]

end InOrder

/--
**The log is a path through the stages.**  After any list of calls to a new campaign, the
transitions in the log lead from the stage before the start to the present one, and there
are none exactly while the campaign has not been started.  Whatever call is next, the log
grows by its events, and every transition among them is one that a campaign is meant to
have.  That level `i` is solved is noted once for each submission that solved it, right
after the event of the success, and going on at once comes right behind.  The transitions are
what the log shows under the message `progression`.
-/
theorem log_is_legal_path (levels : List Level) (settings : CampaignSettings)
    (calls : List Call) (c : Call) :
    let fresh := create levels settings
    let p := fresh.performAll calls
    let turn := p.perform c
    p.levels = levels ∧
    Stage.Path .notStarted (transitions (fresh.log calls)) p.stage ∧
    (transitions (fresh.log calls) = [] ↔ p.stage = .notStarted) ∧
    fresh.log (calls ++ [c]) = fresh.log calls ++ turn.events ∧
    (∀ left entered, (left, entered) ∈ transitions turn.events → Legal p left entered) ∧
    (∀ i, (fresh.log calls).count (.progressed (.inProgress i) (.solved i))
      = (fresh.history calls).countP fun s => s.level == i && s.solves) ∧
    (∀ i before later,
      turn.events = before ++ .progressed (.inProgress i) (.solved i) :: later →
      (∃ l earlier, levels[i]? = some l ∧
        before = earlier ++ [.levelSolved l.name i (turn.state.attempts i)]) ∧
      later = if settings.autoAdvance then [.progressed (.solved i) (p.stageAfter i)] else []) ∧
    (∀ e : Event, e.transition?.isSome = (e.entry.message == "progression")) := by
  intro fresh p turn
  have hnew := InOrder.create levels settings
  obtain ⟨hlevels, hsettings, k, hk⟩ := InOrder.performAll calls hnew
  have hpath : Stage.Path .notStarted (transitions (fresh.log calls)) p.stage :=
    InOrder.path_log calls hnew
  have hturn := hk.logged_perform c
  refine ⟨hlevels, hpath, ?_, log_concat fresh calls c, ?_, InOrder.count_log calls hnew, ?_,
    Event.isSome_transition?⟩
  · constructor
    · intro hnone
      rw [hnone] at hpath
      exact hpath.eq_of_nil.symm
    · intro hs
      refine hpath.eq_nil fun x hx => ?_
      rw [hs]
      exact InOrder.entered_ne_notStarted calls hnew x hx
  · exact fun left entered hx => hturn.legal (left, entered) hx
  · intro i before later hsplit
    obtain ⟨⟨l, earlier, hl, hbefore⟩, hlater⟩ := hturn.around_solve hsplit
    unfold onward at hlater
    rw [hsettings] at hlater
    rw [hlevels] at hl
    exact ⟨⟨l, earlier, hl, hbefore⟩, hlater⟩

/-- A level is solved on the way to the next, at the second attempt. -/
theorem log_is_legal_path_nook :
    let fresh := create [Level.nook, Level.nook] { autoAdvance := true }
    let p := fresh.performAll [.start, .submit []]
    let turn := p.perform (.submit Program.throughNook)
    let before := Level.nook.runEvents Program.throughNook ++ [.levelSolved Level.nook.name 0 2]
    let later := [.progressed (.solved 0) (.inProgress 1)]
    turn.events = before ++ .progressed (.inProgress 0) (.solved 0) :: later ∧
      Legal p (.inProgress 0) (.solved 0) ∧ Legal p (.solved 0) (.inProgress 1) ∧
      ∃ l earlier, [Level.nook, Level.nook][0]? = some l ∧
        before = earlier ++ [.levelSolved l.name 0 (turn.state.attempts 0)] := by
  intro fresh p turn before later
  have hsplit : turn.events = before ++ .progressed (.inProgress 0) (.solved 0) :: later := by
    decide
  have hmem : (.inProgress 0, .solved 0) ∈ transitions turn.events ∧
      (.solved 0, .inProgress 1) ∈ transitions turn.events := by
    decide
  obtain ⟨-, -, -, -, hlegal, -, haround, -⟩ := log_is_legal_path [Level.nook, Level.nook]
    { autoAdvance := true } [.start, .submit []] (.submit Program.throughNook)
  exact ⟨hsplit, hlegal _ _ hmem.1, hlegal _ _ hmem.2, (haround 0 before later hsplit).1⟩

end Campaign

end RobotMaze
