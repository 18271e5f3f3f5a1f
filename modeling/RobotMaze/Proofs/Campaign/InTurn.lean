/-
Playing level after level.

A player who never returns to an earlier level plays the first one that is not solved, at
every moment.  So the stage alone says how many levels are solved, which is the invariant
`InTurn`: as many as lie before the level in progress, and one more once that level has just
been solved.  A success solves exactly the level in progress and raises the number by one;
no other call changes it.

Such a campaign is an automaton on stages (`Stage.after`), with the transitions that the
calls are meant to have and no others.  Attempts and flags are kept beside it and have no
influence on it.  A call that leaves the stage as it was can therefore be struck from the
list of calls, and nothing that follows is any different.
-/
import RobotMaze.Proofs.Campaign.History
import RobotMaze.Proofs.Campaign.Refusal

namespace RobotMaze

namespace Stage

open Campaign (Call)

/-- How many of a number of levels are behind a player who goes through them one by one. -/
def behind (levels : Nat) : Stage → Nat
  | .notStarted => 0
  | .inProgress i => i
  | .solved i => i + 1
  | .allComplete => levels

/-- The stage that follows when a level is done. -/
def next (levels : List Level) (i : Nat) : Stage :=
  if i + 1 < levels.length then .inProgress (i + 1) else .allComplete

/-- The stage after a call of a player who goes through the levels one by one. -/
def after (levels : List Level) (settings : CampaignSettings) : Stage → Call → Stage
  | .notStarted, .start => if levels.isEmpty then .allComplete else .inProgress 0
  | .inProgress i, .submit cs =>
    if levels[i]?.any fun l => (l.run cs).solved then
      if settings.autoAdvance then next levels i else .solved i
    else .inProgress i
  | .solved i, .advance => next levels i
  | stage, _ => stage

end Stage

namespace Campaign

variable {p q : Campaign} {k : Nat}

/-- The invariant: the first `k` levels are solved, no others, and the next one is played. -/
structure InTurn (p : Campaign) (k : Nat) : Prop extends InOrder p k where
  behind_stage : p.stage.behind p.levels.length = k

/-- A call that comes to nothing: its program fails, it is refused, or it starts what was
started before. -/
inductive Vain (p : Campaign) : Call → Prop
  | failed {cs : Program} (h : ¬(p.perform (.submit cs)).succeeds = true) : Vain p (.submit cs)
  | refused {c : Call} {e : CampaignError} (h : (p.perform c).reply = .error e) : Vain p c
  | startedBefore (h : p.stage ≠ .notStarted) : Vain p .start

/-! ### The automaton -/

/-- Without a choice of levels, the stage after a call is the one that the automaton enters. -/
theorem Step.stage_eq {c : Call} (h : Step p c q) (hc : ∀ i, c ≠ .select i) :
    q.stage = p.stage.after p.levels p.settings c := by
  cases h with
  | start hs =>
      rw [hs]
      rfl
  | startedBefore hs =>
      cases hstage : p.stage with
      | notStarted => exact absurd hstage hs
      | _ => rfl
  | failure hs hl ho =>
      show p.stage = _
      simp [hs, Stage.after, hl, ho]
  | success hs hl ho hmanual => simp [hs, Stage.after, hl, ho, hmanual]
  | successOn hs hl ho hauto =>
      simp [hs, Stage.after, hl, ho, hauto]
      rfl
  | submitRefused hmissing =>
      cases hstage : p.stage with
      | inProgress i =>
          have hnone : p.levels[i]? = none :=
            Option.eq_none_iff_forall_ne_some.mpr fun l => hmissing i l hstage
          simp [Stage.after, hnone]
      | _ => rfl
  | advance hs =>
      rw [hs]
      rfl
  | advanceRefused hs =>
      cases hstage : p.stage with
      | solved i => exact absurd hstage (hs i)
      | _ => rfl
  | select _ => exact absurd rfl (hc _)
  | selectRefused _ => exact absurd rfl (hc _)

theorem stage_performAll (calls : List Call) : ∀ p : Campaign, (∀ c ∈ calls, ∀ i, c ≠ .select i) →
    (p.performAll calls).stage = calls.foldl (Stage.after p.levels p.settings) p.stage := by
  induction calls with
  | nil => exact fun _ _ => rfl
  | cons c calls ih =>
      intro p hcalls
      obtain ⟨hc, hrest⟩ := List.forall_mem_cons.mp hcalls
      have hstep := p.step_perform c
      show ((p.perform c).state.performAll calls).stage = _
      rw [ih _ hrest, hstep.levels_eq, hstep.settings_eq, hstep.stage_eq hc]
      rfl

/-! ### The invariant -/

namespace InTurn

theorem create (levels : List Level) (settings : CampaignSettings) :
    InTurn (Campaign.create levels settings) 0 where
  toInOrder := InOrder.create levels settings
  behind_stage := rfl

/-- The first `k` levels are behind a player who goes on from the last of them. -/
theorem behind_stageAfter (h : InOrder p k) {i : Nat} (hk : i + 1 = k) :
    (p.stageAfter i).behind p.levels.length = k := by
  have hle := h.le_length
  unfold stageAfter
  by_cases hi : i + 1 < p.levels.length
  · rw [if_pos hi]
    exact hk
  · rw [if_neg hi]
    show p.levels.length = k
    omega

/-- The level in progress is the first one that is not solved. -/
theorem eq_of_inProgress (h : InTurn p k) {i : Nat} (hs : p.stage = .inProgress i) : i = k := by
  have hbehind := h.behind_stage
  rw [hs] at hbehind
  exact hbehind

/-- A success solves the level in progress, and what is played then is the next one. -/
theorem of_success (h : InTurn p k) {c : Call} (hsucc : (p.perform c).succeeds = true) :
    InTurn (p.perform c).state (k + 1) := by
  cases c with
  | submit cs =>
      obtain ⟨i, l, hs, hl, ho⟩ := succeeds_submit_iff.mp hsucc
      obtain rfl := h.eq_of_inProgress hs
      have hsolved : InOrder ((p.countAttempt i).markSolved i) (i + 1) := by
        have hmax := (h.toInOrder.countAttempt i).markSolved hs
        rwa [Nat.max_eq_right (Nat.le_succ i)] at hmax
      have hstate : (p.perform (.submit cs)).state = ((p.countAttempt i).succeed i l).state :=
        congrArg Turn.state (submit_of_success hs hl ho)
      rw [hstate, succeed_state]
      cases hauto : (p.countAttempt i).settings.autoAdvance with
      | true =>
          rw [if_pos rfl]
          exact ⟨hsolved.withStage (hsolved.fits_stageAfter (Nat.lt_succ_self i)),
            behind_stageAfter hsolved rfl⟩
      | false =>
          rw [if_neg Bool.false_ne_true]
          exact ⟨hsolved.withStage ⟨Nat.lt_succ_self i, hauto⟩, rfl⟩
  | start => exact absurd hsucc (not_succeeds_map_stage p.start)
  | advance => exact absurd hsucc (not_succeeds_map_stage p.advance)
  | select i => exact absurd hsucc (not_succeeds_map_stage (p.select i))

/-- Any other call solves no level, and the player remains where the next one is played. -/
theorem of_failure (h : InTurn p k) {c : Call} (hc : ∀ i, c ≠ .select i)
    (hfail : ¬(p.perform c).succeeds = true) : InTurn (p.perform c).state k := by
  have hbehind := h.behind_stage
  have hstep := p.step_perform c
  obtain ⟨k', h'⟩ := h.toInOrder.step hstep
  suffices hq : (p.perform c).state.SolvedTo k ∧
      (p.perform c).state.stage.behind (p.perform c).state.levels.length = k by
    have hk : k' = k := h'.solvedTo.solvedCount_eq.symm.trans hq.1.solvedCount_eq
    exact ⟨hk ▸ h', hq.2⟩
  clear h'
  generalize (p.perform c).state = q at hstep ⊢
  cases hstep with
  | start hs =>
      rw [hs] at hbehind
      refine ⟨h.solvedTo, ?_⟩
      show (if p.levels.isEmpty then Stage.allComplete else .inProgress 0).behind p.levels.length
        = k
      rw [← hbehind]
      cases p.levels with
      | nil => rfl
      | cons l ls => rfl
  | startedBefore _ => exact ⟨h.solvedTo, hbehind⟩
  | failure hs hl ho => exact ⟨h.solvedTo.countAttempt _, hbehind⟩
  | success hs hl ho _ => exact absurd (succeeds_submit_iff.mpr ⟨_, _, hs, hl, ho⟩) hfail
  | successOn hs hl ho _ => exact absurd (succeeds_submit_iff.mpr ⟨_, _, hs, hl, ho⟩) hfail
  | submitRefused _ => exact ⟨h.solvedTo, hbehind⟩
  | advance hs =>
      rw [hs] at hbehind
      exact ⟨h.solvedTo, behind_stageAfter h.toInOrder hbehind⟩
  | advanceRefused _ => exact ⟨h.solvedTo, hbehind⟩
  | select _ => exact absurd rfl (hc _)
  | selectRefused _ => exact absurd rfl (hc _)

/-- The submission of a success is one for the first level that is not solved. -/
theorem solved_submission? (h : InTurn p k) (c : Call) :
    ((p.submission? c).toList.filter Submission.solves).map Submission.level =
      List.range' k (if (p.perform c).succeeds then 1 else 0) := by
  rw [filter_solves_submission?]
  by_cases hsucc : (p.perform c).succeeds = true
  · rw [if_pos hsucc, if_pos hsucc]
    obtain ⟨s, hs⟩ := exists_submission? hsucc
    have hlevel : s.level = k := h.eq_of_inProgress (h.toInOrder.submission?_eq_some hs).1
    rw [hs]
    exact congrArg List.singleton hlevel
  · rw [if_neg hsucc, if_neg hsucc]
    rfl

/-- Along a list of calls, the levels are solved one after another, each by one success. -/
theorem performAll (calls : List Call) : ∀ {p : Campaign} {k : Nat}, InTurn p k →
    (∀ c ∈ calls, ∀ i, c ≠ .select i) →
      InTurn (p.performAll calls) (k + (p.turns calls).countP Turn.succeeds) ∧
      ((p.history calls).filter Submission.solves).map Submission.level =
        List.range' k ((p.turns calls).countP Turn.succeeds) := by
  induction calls with
  | nil => exact fun h _ => ⟨h, rfl⟩
  | cons c calls ih =>
      intro p k h hcalls
      obtain ⟨hc, hrest⟩ := List.forall_mem_cons.mp hcalls
      have hnext : InTurn (p.perform c).state (k + if (p.perform c).succeeds then 1 else 0) := by
        split
        · exact h.of_success ‹_›
        · exact h.of_failure hc ‹_›
      obtain ⟨hend, hlevels⟩ := ih hnext hrest
      rw [turns_cons, List.countP_cons, Nat.add_comm (List.countP _ _)]
      constructor
      · rw [← Nat.add_assoc]
        exact hend
      · rw [history_cons, List.filter_append, List.map_append, h.solved_submission?, hlevels,
          List.range'_append_1]

end InTurn

/-- A call that comes to nothing leaves the stage as it was. -/
theorem InOrder.stage_of_vain (h : InOrder p k) {c : Call} (hv : Vain p c) :
    (p.perform c).state.stage = p.stage := by
  cases hv with
  | @failed cs hfail =>
      have hstep := p.step_perform (.submit cs)
      generalize (p.perform (.submit cs)).state = q at hstep ⊢
      cases hstep with
      | failure _ _ _ => rfl
      | success hs hl ho _ => exact absurd (succeeds_submit_iff.mpr ⟨_, _, hs, hl, ho⟩) hfail
      | successOn hs hl ho _ => exact absurd (succeeds_submit_iff.mpr ⟨_, _, hs, hl, ho⟩) hfail
      | submitRefused _ => rfl
  | refused herror =>
      rw [h.perform_eq_refuse herror]
      rfl
  | startedBefore hs =>
      show p.start.state.stage = p.stage
      rw [start_of_started hs]

/-- Without a choice of levels, the stage is all that the following calls depend on. -/
theorem stage_performAll_congr (hlevels : p.levels = q.levels) (hsettings : p.settings = q.settings)
    (hstage : p.stage = q.stage) {calls : List Call} (hcalls : ∀ c ∈ calls, ∀ i, c ≠ .select i) :
    (p.performAll calls).stage = (q.performAll calls).stage := by
  rw [stage_performAll calls p hcalls, stage_performAll calls q hcalls, hlevels, hsettings, hstage]

/-- A call that comes to nothing can be left out. -/
theorem InTurn.stage_performAll_skip (h : InTurn p k) {before later : List Call} {c : Call}
    (hlater : ∀ d ∈ later, ∀ i, d ≠ .select i) (hv : Vain (p.performAll before) c) :
    (p.performAll (before ++ later)).stage = (p.performAll (before ++ c :: later)).stage := by
  obtain ⟨-, -, k', hbefore⟩ := InOrder.performAll before h.toInOrder
  have hstep := (p.performAll before).step_perform c
  rw [performAll_append, performAll_append]
  exact stage_performAll_congr hstep.levels_eq.symm hstep.settings_eq.symm
    (hbefore.stage_of_vain hv).symm hlater

/-- The stage tells which levels are solved. -/
theorem InTurn.isSolved_eq {k' : Nat} (hp : InTurn p k) (hq : InTurn q k')
    (hlevels : p.levels = q.levels) (hstage : p.stage = q.stage) (i : Nat) :
    p.isSolved i = q.isSolved i := by
  have hk : k = k' := by
    rw [← hp.behind_stage, ← hq.behind_stage, hlevels, hstage]
  rw [Bool.eq_iff_iff, hp.solvedTo, hq.solvedTo, hk]

/-- After a start the stage is never again the one before it. -/
theorem started_performAll (calls : List Call) : ∀ p : Campaign,
    .start ∈ calls ∨ p.stage ≠ .notStarted → (p.performAll calls).stage ≠ .notStarted := by
  induction calls with
  | nil => exact fun p h => h.resolve_left List.not_mem_nil
  | cons c calls ih =>
      intro p h
      refine ih (p.perform c).state ?_
      by_cases hlater : Call.start ∈ calls
      · exact Or.inl hlater
      · refine Or.inr ((p.step_perform c).started ?_)
        rw [List.mem_cons] at h
        rcases h with (hnow | hin) | hbefore
        · exact Or.inl hnow.symm
        · exact absurd hin hlater
        · exact Or.inr hbefore

/-- A player who has started and goes on at once has come to the end as soon as every level
is solved. -/
theorem InTurn.allComplete_iff (h : InTurn p k) (hauto : p.settings.autoAdvance = true)
    (hstarted : p.stage ≠ .notStarted) : p.stage = .allComplete ↔ k = p.levels.length := by
  have hbehind := h.behind_stage
  have hfits := h.fits
  constructor
  · intro hs
    rw [← hbehind, hs]
    rfl
  · intro hall
    cases hs : p.stage with
    | notStarted => exact absurd hs hstarted
    | inProgress i =>
        rw [hs] at hfits hbehind
        have hend : i = p.levels.length := hbehind.trans hall
        exact absurd hfits.1 (hend ▸ Nat.lt_irrefl _)
    | solved i =>
        rw [hs] at hfits
        exact absurd (hauto.symm.trans hfits.2) Bool.noConfusion
    | allComplete => rfl

/--
**Whoever plays level after level solves them in order.**  After any list of calls without a
selection to a new campaign, the stage shows how many levels are solved, and these are as
many as there were successes.  The successes solved the levels from the first one on, one
each, and every call that came to nothing could have been left out.  With automatic advance
and after a start, all is complete exactly if there was a success for each level.
-/
theorem solves_in_order_without_selection (levels : List Level) (settings : CampaignSettings)
    (calls : List Call) (hcalls : ∀ c ∈ calls, ∀ i, c ≠ .select i) :
    let fresh := create levels settings
    let p := fresh.performAll calls
    let successes := (fresh.turns calls).countP Turn.succeeds
    (∀ i, p.stage = .inProgress i → p.solvedCount = i) ∧
    (∀ i, p.stage = .solved i → p.solvedCount = i + 1) ∧
    (p.stage = .allComplete → p.solvedCount = levels.length) ∧
    p.solvedCount = successes ∧
    (∀ i, p.isSolved i = true ↔ i < successes) ∧
    ((fresh.history calls).filter Submission.solves).map Submission.level
      = List.range successes ∧
    (∀ before c later, calls = before ++ c :: later → Vain (fresh.performAll before) c →
      (fresh.performAll (before ++ later)).stage = p.stage ∧
      ∀ i, (fresh.performAll (before ++ later)).isSolved i = p.isSolved i) ∧
    (settings.autoAdvance = true → .start ∈ calls →
      (p.stage = .allComplete ↔ successes = levels.length)) := by
  intro fresh p successes
  have hnew := InTurn.create levels settings
  obtain ⟨hp, hsolved⟩ := InTurn.performAll calls hnew hcalls
  obtain ⟨hlevels, hsettings, -⟩ := InOrder.performAll calls hnew.toInOrder
  rw [Nat.zero_add] at hp
  have hcount : p.solvedCount = successes := hp.solvedTo.solvedCount_eq
  have hbehind : p.stage.behind levels.length = successes := by
    rw [show levels = p.levels from hlevels.symm]
    exact hp.behind_stage
  refine ⟨?_, ?_, ?_, hcount, hp.solvedTo, ?_, ?_, ?_⟩
  · intro i hs
    rw [hcount, ← hbehind, hs]
    rfl
  · intro i hs
    rw [hcount, ← hbehind, hs]
    rfl
  · intro hs
    rw [hcount, ← hbehind, hs]
    rfl
  · rw [List.range_eq_range']
    exact hsolved
  · intro before c later hcut hv
    subst hcut
    obtain ⟨hbefore, hrest⟩ := List.forall_mem_append.mp hcalls
    obtain ⟨-, hlater⟩ := List.forall_mem_cons.mp hrest
    have hstage := hnew.stage_performAll_skip hlater hv
    have hless := List.forall_mem_append.mpr ⟨hbefore, hlater⟩
    obtain ⟨hp', -⟩ := InTurn.performAll (before ++ later) hnew hless
    obtain ⟨hlevels', -⟩ := InOrder.performAll (before ++ later) hnew.toInOrder
    exact ⟨hstage, hp'.isSolved_eq hp (hlevels'.trans hlevels.symm) hstage⟩
  · intro hauto hstart
    have hstarted := started_performAll calls fresh (Or.inl hstart)
    have hend := hp.allComplete_iff (hsettings ▸ hauto) hstarted
    rw [hlevels] at hend
    exact hend

/-- The player starts, fails once, solves both levels, and tries to go on by hand in between. -/
theorem solves_in_order_without_selection_nook :
    let fresh := create [Level.nook, Level.nook] { autoAdvance := true }
    let before : List Call := [.start]
    let later : List Call := [.submit Program.throughNook, .advance, .submit Program.throughNook]
    let calls := before ++ .submit [] :: later
    (fresh.turns calls).countP Turn.succeeds = 2 ∧
      (fresh.performAll calls).stage = .allComplete ∧
      (fresh.performAll calls).solvedCount = 2 ∧
      (fresh.performAll (before ++ later)).stage = .allComplete := by
  intro fresh before later calls
  have hcalls : ∀ c ∈ calls, ∀ i, c ≠ .select i := by
    show ∀ c ∈ [Call.start, .submit [], .submit Program.throughNook, .advance,
      .submit Program.throughNook], ∀ i, c ≠ .select i
    simp
  have hsuccesses : (fresh.turns calls).countP Turn.succeeds = 2 := by decide
  have hfailed : Vain (fresh.performAll before) (.submit []) := Vain.failed (by decide)
  obtain ⟨-, -, hcount, -, -, -, hskip, hcomplete⟩ := solves_in_order_without_selection
    [Level.nook, Level.nook] { autoAdvance := true } calls hcalls
  have hend : (fresh.performAll calls).stage = .allComplete :=
    (hcomplete rfl (List.mem_cons_self ..)).mpr hsuccesses
  refine ⟨hsuccesses, hend, hcount hend, ?_⟩
  exact (hskip before (.submit []) later rfl hfailed).1.trans hend

end Campaign
end RobotMaze
