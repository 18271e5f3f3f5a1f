/-
What one call does to a campaign.

Every call is first written out case by case, with its reply and its events: in each
case it is one turn and nothing is left to decide, and further proofs use these
equations instead of looking into the calls again.

`Step` lists every way in which a call can change a campaign, each with the condition
under which it happens; `step_perform` says that the list is complete.  A submitted
program that solves its level passes through the stage "solved" even when the player
goes on at once, but that happens inside of one call, so `Step` only has the stage at
its end.

The lemmas about standings say what the two changes to them, one more attempt and a
level that is solved, mean for the flags, and what follows from knowing that exactly the
first `k` levels are solved.
-/
import RobotMaze.Campaign

namespace RobotMaze

namespace Campaign

variable {p : Campaign}

/-- What a call does to a campaign. -/
inductive Step (p : Campaign) : Call → Campaign → Prop
  | start (h : p.stage = .notStarted) :
      Step p .start { p with stage := if p.levels.isEmpty then .allComplete else .inProgress 0 }
  | startedBefore (h : p.stage ≠ .notStarted) : Step p .start p
  | failure {i : Nat} {l : Level} {cs : Program} (h : p.stage = .inProgress i)
      (hl : p.levels[i]? = some l) (ho : (l.run cs).solved = false) :
      Step p (.submit cs) (p.countAttempt i)
  | success {i : Nat} {l : Level} {cs : Program} (h : p.stage = .inProgress i)
      (hl : p.levels[i]? = some l) (ho : (l.run cs).solved = true)
      (hmanual : p.settings.autoAdvance = false) :
      Step p (.submit cs) { (p.countAttempt i).markSolved i with stage := .solved i }
  | successOn {i : Nat} {l : Level} {cs : Program} (h : p.stage = .inProgress i)
      (hl : p.levels[i]? = some l) (ho : (l.run cs).solved = true)
      (hauto : p.settings.autoAdvance = true) :
      Step p (.submit cs) { (p.countAttempt i).markSolved i with stage := p.stageAfter i }
  | submitRefused {cs : Program} (h : ∀ i l, p.stage = .inProgress i → p.levels[i]? ≠ some l) :
      Step p (.submit cs) p
  | advance {i : Nat} (h : p.stage = .solved i) :
      Step p .advance { p with stage := p.stageAfter i }
  | advanceRefused (h : ∀ i, p.stage ≠ .solved i) : Step p .advance p
  | select {i : Nat} (h : p.isUnlocked i = true) :
      Step p (.select i) { p with stage := .inProgress i }
  | selectRefused {i : Nat} (h : ¬p.isUnlocked i = true) : Step p (.select i) p

/-! ### Each call, case by case -/

theorem start_of_notStarted (h : p.stage = .notStarted) :
    p.start = p.enter (if p.levels.isEmpty then .allComplete else .inProgress 0) := by
  unfold Campaign.start
  rw [h]

theorem start_of_started (h : p.stage ≠ .notStarted) :
    p.start = { reply := .ok p.stage, state := p, events := [] } := by
  unfold Campaign.start
  split
  · rename_i hs
    exact absurd hs h
  · rfl

theorem advance_of_solved {i : Nat} (h : p.stage = .solved i) :
    p.advance = p.enter (p.stageAfter i) := by
  unfold Campaign.advance
  rw [h]

theorem advance_of_not_solved (h : ∀ i, p.stage ≠ .solved i) :
    p.advance = p.refuse (.noActiveLevel p.stage) := by
  unfold Campaign.advance
  split
  · rename_i i hs
    exact absurd hs (h i)
  · rfl

theorem select_of_unlocked {i : Nat} (h : p.isUnlocked i = true) :
    p.select i = p.enter (.inProgress i) := by
  have hi : i < p.levels.length := of_decide_eq_true (Bool.and_eq_true_iff.mp h).1
  unfold Campaign.select
  rw [if_pos hi, if_pos h]

theorem select_of_locked {i : Nat} (hi : i < p.levels.length) (h : ¬p.isUnlocked i = true) :
    p.select i = p.refuse (.levelLocked i) := by
  unfold Campaign.select
  rw [if_pos hi, if_neg h]

theorem select_of_outOfRange {i : Nat} (hi : ¬i < p.levels.length) :
    p.select i = p.refuse (.outOfRange i p.levels.length) := by
  unfold Campaign.select
  rw [if_neg hi]

/-- Going on after a success is never refused, because the level has just become "solved". -/
theorem succeed_reply (p : Campaign) (i : Nat) (l : Level) : (p.succeed i l).reply = .ok () := by
  unfold succeed
  split <;> rfl

/-- After a success the player is on the way that the settings ask for. -/
theorem succeed_state (p : Campaign) (i : Nat) (l : Level) :
    (p.succeed i l).state = { p.markSolved i with
      stage := if p.settings.autoAdvance then p.stageAfter i else .solved i } := by
  unfold succeed
  split <;> rfl

/-- A program that does not solve its level counts as an attempt and has no other effect. -/
theorem submit_of_failure {i : Nat} {l : Level} {cs : Program} (h : p.stage = .inProgress i)
    (hl : p.levels[i]? = some l) (ho : (l.run cs).solved = false) :
    p.submit cs =
      { reply := .ok (l.run cs), state := p.countAttempt i, events := l.runEvents cs } := by
  unfold submit
  rw [h]
  simp only [hl, ho, Bool.false_eq_true, if_false, List.append_nil]
  rfl

/-- A program that solves its level counts as an attempt, and the success takes effect. -/
theorem submit_of_success {i : Nat} {l : Level} {cs : Program} (h : p.stage = .inProgress i)
    (hl : p.levels[i]? = some l) (ho : (l.run cs).solved = true) :
    p.submit cs =
      { reply := .ok (l.run cs)
        state := ((p.countAttempt i).succeed i l).state
        events := l.runEvents cs ++ ((p.countAttempt i).succeed i l).events } := by
  unfold submit
  rw [h]
  simp only [hl, ho, if_true, succeed_reply]
  rfl

/-- A level in progress that exists is run, and the player learns how the run went. -/
theorem submit_reply {i : Nat} {l : Level} (h : p.stage = .inProgress i)
    (hl : p.levels[i]? = some l) (cs : Program) : (p.submit cs).reply = .ok (l.run cs) := by
  cases ho : (l.run cs).solved with
  | false => rw [submit_of_failure h hl ho]
  | true => rw [submit_of_success h hl ho]

/-- Either a level is in progress and exists, or there is none to submit a program for. -/
theorem playing_or_missing (p : Campaign) :
    (∃ i l, p.stage = .inProgress i ∧ p.levels[i]? = some l) ∨
      ∀ i l, p.stage = .inProgress i → p.levels[i]? ≠ some l := by
  by_cases hplay : ∃ i l, p.stage = .inProgress i ∧ p.levels[i]? = some l
  · exact Or.inl hplay
  · exact Or.inr fun i l hs hl => hplay ⟨i, l, hs, hl⟩

theorem submit_of_missing (h : ∀ i l, p.stage = .inProgress i → p.levels[i]? ≠ some l)
    (cs : Program) : p.submit cs = p.refuse (.noActiveLevel p.stage) := by
  unfold submit
  split
  · rename_i i hs
    split
    · rfl
    · rename_i l hl
      exact absurd hl (h i l hs)
  · rfl

/-! ### The list of steps is complete -/

theorem step_start (p : Campaign) : Step p .start p.start.state := by
  by_cases h : p.stage = .notStarted
  · rw [start_of_notStarted h]
    exact Step.start h
  · rw [start_of_started h]
    exact Step.startedBefore h

theorem step_advance (p : Campaign) : Step p .advance p.advance.state := by
  rcases Classical.exists_or_forall_not fun i => p.stage = .solved i with ⟨i, h⟩ | h
  · rw [advance_of_solved h]
    exact Step.advance h
  · rw [advance_of_not_solved h]
    exact Step.advanceRefused h

theorem step_select (p : Campaign) (i : Nat) : Step p (.select i) (p.select i).state := by
  by_cases hu : p.isUnlocked i = true
  · rw [select_of_unlocked hu]
    exact Step.select hu
  · by_cases hi : i < p.levels.length
    · rw [select_of_locked hi hu]
      exact Step.selectRefused hu
    · rw [select_of_outOfRange hi]
      exact Step.selectRefused hu

theorem step_submit (p : Campaign) (cs : Program) : Step p (.submit cs) (p.submit cs).state := by
  rcases p.playing_or_missing with ⟨i, l, h, hl⟩ | hmissing
  · cases ho : (l.run cs).solved with
    | false =>
        rw [submit_of_failure h hl ho]
        exact Step.failure h hl ho
    | true =>
        rw [submit_of_success h hl ho]
        show Step p (.submit cs) ((p.countAttempt i).succeed i l).state
        rw [succeed_state]
        by_cases hauto : p.settings.autoAdvance = true
        · rw [if_pos (show (p.countAttempt i).settings.autoAdvance = true from hauto)]
          exact Step.successOn h hl ho hauto
        · rw [if_neg (show ¬(p.countAttempt i).settings.autoAdvance = true from hauto)]
          exact Step.success h hl ho (Bool.eq_false_iff.mpr hauto)
  · rw [submit_of_missing hmissing]
    exact Step.submitRefused hmissing

theorem step_perform (p : Campaign) (c : Call) : Step p c (p.perform c).state := by
  cases c with
  | start => exact p.step_start
  | submit cs => exact p.step_submit cs
  | advance => exact p.step_advance
  | select i => exact p.step_select i

theorem performAll_append (p : Campaign) (calls more : List Call) :
    p.performAll (calls ++ more) = (p.performAll calls).performAll more :=
  List.foldl_append

/-- The answers to a list of calls, one after another. -/
def turns (p : Campaign) : List Call → List (Turn Reply)
  | [] => []
  | c :: calls => p.perform c :: turns (p.perform c).state calls

theorem turns_cons (p : Campaign) (c : Call) (calls : List Call) :
    p.turns (c :: calls) = p.perform c :: (p.perform c).state.turns calls :=
  rfl

theorem turns_append (calls more : List Call) : ∀ p : Campaign,
    p.turns (calls ++ more) = p.turns calls ++ (p.performAll calls).turns more := by
  induction calls with
  | nil => exact fun _ => rfl
  | cons c calls ih =>
      intro p
      rw [List.cons_append, turns_cons, turns_cons, ih, List.cons_append]
      rfl

/-! ### Levels and settings stay as they are, and a start is for good -/

theorem Step.levels_eq {q : Campaign} {c : Call} (h : Step p c q) : q.levels = p.levels := by
  cases h <;> rfl

theorem Step.settings_eq {q : Campaign} {c : Call} (h : Step p c q) : q.settings = p.settings := by
  cases h <;> rfl

theorem stageAfter_ne_notStarted (p : Campaign) (i : Nat) : p.stageAfter i ≠ .notStarted := by
  unfold stageAfter
  split
  · exact Stage.noConfusion
  · exact Stage.noConfusion

/-- Nothing leads back to the stage before the start, and a start leads away from it. -/
theorem Step.started {q : Campaign} {c : Call} (h : Step p c q)
    (hs : c = .start ∨ p.stage ≠ .notStarted) : q.stage ≠ .notStarted := by
  have hbefore : c ≠ .start → p.stage ≠ .notStarted := hs.resolve_left
  cases h with
  | start _ =>
      show (if p.levels.isEmpty then Stage.allComplete else .inProgress 0) ≠ .notStarted
      split
      · exact Stage.noConfusion
      · exact Stage.noConfusion
  | startedBefore h => exact h
  | failure _ _ _ => exact hbefore Call.noConfusion
  | success _ _ _ _ => exact Stage.noConfusion
  | successOn _ _ _ _ => exact p.stageAfter_ne_notStarted _
  | submitRefused _ => exact hbefore Call.noConfusion
  | advance _ => exact p.stageAfter_ne_notStarted _
  | advanceRefused _ => exact hbefore Call.noConfusion
  | select _ => exact Stage.noConfusion
  | selectRefused _ => exact hbefore Call.noConfusion

/-! ### Standings -/

theorem isSolved_iff {i : Nat} :
    p.isSolved i = true ↔ ∃ s, p.standings[i]? = some s ∧ s.solved = true := by
  unfold isSolved
  cases p.standings[i]? with
  | none => simp
  | some s => simp

theorem isSolved_countAttempt (p : Campaign) (i j : Nat) :
    (p.countAttempt i).isSolved j = p.isSolved j := by
  unfold isSolved countAttempt
  rw [List.getElem?_modify]
  cases p.standings[j]? with
  | none => rfl
  | some s =>
      show (if i = j then { s with attempts := min (s.attempts + 1) Standing.attemptLimit }
        else s).solved = s.solved
      split <;> rfl

theorem isSolved_markSolved {i : Nat} (hi : i < p.standings.length) (j : Nat) :
    (p.markSolved i).isSolved j = (p.isSolved j || decide (j = i)) := by
  unfold isSolved markSolved
  rw [List.getElem?_modify]
  by_cases hj : j = i
  · subst hj
    rw [List.getElem?_eq_getElem hi, decide_eq_true rfl, Bool.or_true]
    show (if j = j then { p.standings[j] with solved := true } else p.standings[j]).solved = true
    rw [if_pos rfl]
  · rw [decide_eq_false hj, Bool.or_false]
    cases p.standings[j]? with
    | none => rfl
    | some s =>
        show (if i = j then { s with solved := true } else s).solved = s.solved
        rw [if_neg (Ne.symm hj)]

/-- Exactly the first `k` levels are solved. -/
def SolvedTo (p : Campaign) (k : Nat) : Prop :=
  ∀ i, p.isSolved i = true ↔ i < k

namespace SolvedTo

variable {k : Nat}

theorem le_length (h : p.SolvedTo k) : k ≤ p.standings.length := by
  rcases Nat.lt_or_ge p.standings.length k with hlt | hle
  · obtain ⟨s, hs, -⟩ := isSolved_iff.mp ((h p.standings.length).mpr hlt)
    rw [List.getElem?_eq_none (Nat.le_refl _)] at hs
    cases hs
  · exact hle

theorem solved_getElem (h : p.SolvedTo k) {i : Nat} (hi : i < p.standings.length) :
    p.standings[i].solved = decide (i < k) := by
  have hflag : p.isSolved i = p.standings[i].solved := by
    unfold isSolved
    rw [List.getElem?_eq_getElem hi]
    rfl
  rw [← hflag, Bool.eq_iff_iff, decide_eq_true_iff]
  exact h i

/-- The first level that is not solved is number `k`. -/
theorem frontier_eq (h : p.SolvedTo k) : p.frontier = k := by
  unfold frontier
  rcases Nat.lt_or_ge k p.standings.length with hlt | hge
  · refine (List.findIdx_eq hlt).mpr ⟨?_, ?_⟩
    · rw [h.solved_getElem hlt, decide_eq_false (Nat.lt_irrefl k)]
      rfl
    · intro j hj
      rw [h.solved_getElem (Nat.lt_trans hj hlt), decide_eq_true hj]
      rfl
  · have hk : k = p.standings.length := Nat.le_antisymm h.le_length hge
    rw [hk]
    refine List.findIdx_eq_length_of_false ?_
    intro s hs
    obtain ⟨j, hj, rfl⟩ := List.getElem_of_mem hs
    rw [h.solved_getElem hj, decide_eq_true (hk ▸ hj)]
    rfl

/-- The solved levels are `k`: all of the first `k` standings count and none of the others. -/
theorem solvedCount_eq (h : p.SolvedTo k) : p.solvedCount = k := by
  have hfirst : (p.standings.take k).countP Standing.solved = (p.standings.take k).length := by
    refine List.countP_eq_length.mpr ?_
    intro s hs
    obtain ⟨j, hj, rfl⟩ := List.mem_take_iff_getElem.mp hs
    rw [h.solved_getElem]
    exact decide_eq_true (by omega)
  have hrest : (p.standings.drop k).countP Standing.solved = 0 := by
    refine List.countP_eq_zero.mpr ?_
    intro s hs
    obtain ⟨j, hj, rfl⟩ := List.mem_drop_iff_getElem.mp hs
    rw [h.solved_getElem, decide_eq_false (by omega)]
    exact Bool.false_ne_true
  unfold solvedCount
  rw [← List.take_append_drop k p.standings, List.countP_append, hfirst, hrest, List.length_take,
    Nat.add_zero]
  exact Nat.min_eq_left h.le_length

theorem countAttempt (h : p.SolvedTo k) (i : Nat) : (p.countAttempt i).SolvedTo k := by
  intro j
  rw [isSolved_countAttempt]
  exact h j

/-- Solving a level again changes nothing; solving the first open one moves on by one. -/
theorem markSolved (h : p.SolvedTo k) {i : Nat} (hi : i < p.standings.length) (hik : i ≤ k) :
    (p.markSolved i).SolvedTo (max k (i + 1)) := by
  intro j
  rw [isSolved_markSolved hi, Bool.or_eq_true, decide_eq_true_iff, h j]
  omega

end SolvedTo

end Campaign

end RobotMaze
