/-
The standings are the history of the submissions.

A campaign keeps two figures of each level, whether it is solved and how often it was
attempted, and forgets the rest.  Its history is the list of the programs that were
submitted while a level was in progress, each with that level and with the reply.  Both
figures of a level can be read off the part of the history that belongs to the level:
the standing is what `Standing.after` makes of the submissions one after another
(`standing_performAll`).

One call adds at most one submission, and it changes the standing of the level that was
in progress before the call and no other (`standings_perform`).  A success may already
have led to another level when the call returns, but nothing is entered there.
-/
import RobotMaze.Proofs.Campaign.ByHand
import RobotMaze.Proofs.Campaign.Order

namespace RobotMaze

namespace Campaign

/-- A program that was submitted while a level was in progress. -/
structure Submission where
  /-- The level that was in progress. -/
  level : Nat
  program : Program
  reply : Except CampaignError Outcome

/-- Whether the reply reports that the level is solved. -/
def Submission.solves (s : Submission) : Bool :=
  match s.reply with
  | .ok o => o.solved
  | .error _ => false

def Call.isSubmit : Call → Bool
  | .submit _ => true
  | _ => false

/-- What a call adds to the history. -/
def submission? (p : Campaign) : Call → Option Submission
  | .submit cs =>
    match p.stage with
    | .inProgress i => some { level := i, program := cs, reply := (p.submit cs).reply }
    | _ => none
  | _ => none

/-- The programs that are submitted in a list of calls while a level is in progress. -/
def history (p : Campaign) : List Call → List Submission
  | [] => []
  | c :: calls => (p.submission? c).toList ++ history (p.perform c).state calls

end Campaign

namespace Standing

open Campaign (Submission)

/-- The standing of a level after a program was submitted for it. -/
def after (t : Standing) (s : Submission) : Standing where
  solved := t.solved || s.solves
  attempts := min (t.attempts + 1) attemptLimit

def afterAll (t : Standing) (past : List Submission) : Standing :=
  past.foldl after t

theorem solved_afterAll (past : List Submission) :
    ∀ t : Standing, (t.afterAll past).solved = (t.solved || past.any Submission.solves) := by
  induction past with
  | nil =>
      intro t
      exact (Bool.or_false _).symm
  | cons s past ih =>
      intro t
      show ((t.after s).afterAll past).solved = _
      rw [ih, List.any_cons, ← Bool.or_assoc]
      rfl

/-- The counter counts up to its limit. -/
theorem attempts_afterAll (past : List Submission) :
    ∀ t : Standing, t.attempts ≤ attemptLimit →
      (t.afterAll past).attempts = min (t.attempts + past.length) attemptLimit := by
  induction past with
  | nil =>
      intro t ht
      exact (Nat.min_eq_left ht).symm
  | cons s past ih =>
      intro t _
      have hnext : (t.after s).attempts = min (t.attempts + 1) attemptLimit := rfl
      show ((t.after s).afterAll past).attempts = _
      rw [ih _ (hnext ▸ Nat.min_le_right _ _), hnext, List.length_cons]
      omega

end Standing

namespace Campaign

variable {p : Campaign} {k : Nat}

theorem history_cons (p : Campaign) (c : Call) (calls : List Call) :
    p.history (c :: calls) = (p.submission? c).toList ++ (p.perform c).state.history calls :=
  rfl

/-! ### One call -/

theorem submission?_of_inProgress {i : Nat} (hs : p.stage = .inProgress i) (cs : Program) :
    p.submission? (.submit cs) =
      some { level := i, program := cs, reply := (p.submit cs).reply } := by
  unfold submission?
  rw [hs]

theorem submission?_of_not_inProgress (hs : ∀ i, p.stage ≠ .inProgress i) (cs : Program) :
    p.submission? (.submit cs) = none := by
  unfold submission?
  cases h : p.stage with
  | inProgress i => exact absurd h (hs i)
  | _ => rfl

/-- A call is a success exactly if it adds a solving submission to the history. -/
theorem any_solves_submission? (p : Campaign) (c : Call) :
    (p.submission? c).any Submission.solves = (p.perform c).succeeds := by
  cases c with
  | submit cs =>
      show _ = ((p.submit cs).map Reply.outcome).succeeds
      rcases Classical.exists_or_forall_not fun i => p.stage = .inProgress i with ⟨i, hi⟩ | hnone
      · rw [submission?_of_inProgress hi, Option.any_some]
        unfold Submission.solves Turn.succeeds Turn.map
        cases (p.submit cs).reply <;> rfl
      · rw [submission?_of_not_inProgress hnone,
          submit_of_missing fun i _ hi => absurd hi (hnone i)]
        rfl
  | start => exact (Bool.eq_false_iff.mpr (not_succeeds_map_stage p.start)).symm
  | advance => exact (Bool.eq_false_iff.mpr (not_succeeds_map_stage p.advance)).symm
  | select i => exact (Bool.eq_false_iff.mpr (not_succeeds_map_stage (p.select i))).symm

/-- A success adds its submission to those that solve a level, and no other call does. -/
theorem filter_solves_submission? (p : Campaign) (c : Call) :
    ((p.submission? c).toList.filter Submission.solves) =
      if (p.perform c).succeeds then (p.submission? c).toList else [] := by
  rw [← any_solves_submission?]
  cases p.submission? c with
  | none => rfl
  | some s => exact List.filter_cons

theorem exists_submission? {c : Call} (hsucc : (p.perform c).succeeds = true) :
    ∃ s, p.submission? c = some s := by
  rw [← any_solves_submission?] at hsucc
  cases hs : p.submission? c with
  | none =>
      rw [hs] at hsucc
      cases hsucc
  | some s => exact ⟨s, rfl⟩

/-- One more attempt is all that a failure leaves behind. -/
theorem standings_of_failure {s : Submission} (hs : s.solves = false) :
    (p.countAttempt s.level).standings = p.standings.modify s.level fun t => t.after s := by
  refine congrArg (p.standings.modify s.level) (funext fun t => ?_)
  unfold Standing.after
  rw [hs, Bool.or_false]

theorem standings_of_success {s : Submission} (hs : s.solves = true) :
    ((p.countAttempt s.level).markSolved s.level).standings =
      p.standings.modify s.level fun t => t.after s := by
  show (p.standings.modify s.level _).modify s.level _ = _
  rw [List.modify_modify_eq]
  refine congrArg (p.standings.modify s.level) (funext fun t => ?_)
  unfold Standing.after
  rw [hs, Bool.or_true]
  rfl

namespace InOrder

/-- A submission belongs to the level in progress and is answered by a run on it. -/
theorem submission?_eq_some (h : InOrder p k) {c : Call} {s : Submission}
    (hs : p.submission? c = some s) :
    p.stage = .inProgress s.level ∧
      ∃ l, p.levels[s.level]? = some l ∧ s.reply = .ok (l.run s.program) := by
  cases c with
  | submit cs =>
      rcases Classical.exists_or_forall_not fun i => p.stage = .inProgress i with ⟨i, hi⟩ | hnone
      · obtain ⟨l, hl⟩ := h.exists_level hi
        rw [submission?_of_inProgress hi] at hs
        rw [← Option.some.inj hs]
        exact ⟨hi, l, hl, submit_reply hi hl cs⟩
      · rw [submission?_of_not_inProgress hnone] at hs
        cases hs
  | start => cases hs
  | advance => cases hs
  | select i => cases hs

/-- A submission changes the standing of its level, and other calls change none. -/
theorem standings_perform (h : InOrder p k) (c : Call) :
    (p.perform c).state.standings =
      match p.submission? c with
      | some s => p.standings.modify s.level fun t => t.after s
      | none => p.standings := by
  have hstep := p.step_perform c
  generalize (p.perform c).state = q at hstep ⊢
  -- `Step` says how the call ends and `submission?` holds the reply to it; that both go by
  -- the same run is `submit_reply`.
  cases hstep with
  | start _ => rfl
  | startedBefore _ => rfl
  | @failure i l cs hs hl ho =>
      rw [submission?_of_inProgress hs, submit_reply hs hl]
      exact standings_of_failure (s := ⟨i, cs, .ok (l.run cs)⟩) ho
  | @success i l cs hs hl ho _ =>
      rw [submission?_of_inProgress hs, submit_reply hs hl]
      exact standings_of_success (s := ⟨i, cs, .ok (l.run cs)⟩) ho
  | @successOn i l cs hs hl ho _ =>
      rw [submission?_of_inProgress hs, submit_reply hs hl]
      exact standings_of_success (s := ⟨i, cs, .ok (l.run cs)⟩) ho
  | @submitRefused cs hmissing =>
      have hnone : ∀ i, p.stage ≠ .inProgress i := by
        intro i hs
        obtain ⟨l, hl⟩ := h.exists_level hs
        exact hmissing i l hs hl
      rw [submission?_of_not_inProgress hnone]
  | advance _ => rfl
  | advanceRefused _ => rfl
  | select _ => rfl
  | selectRefused _ => rfl

/-- The standing of a level that is not in progress stays as it is. -/
theorem standing_perform_of_ne (h : InOrder p k) (c : Call) {i : Nat}
    (hi : p.stage ≠ .inProgress i) :
    (p.perform c).state.standings[i]? = p.standings[i]? := by
  rw [h.standings_perform c]
  cases hs : p.submission? c with
  | none => rfl
  | some s =>
      have hne : s.level ≠ i := fun he => hi (he ▸ (h.submission?_eq_some hs).1)
      show (p.standings.modify s.level _)[i]? = _
      rw [List.getElem?_modify]
      simp only [if_neg hne]
      exact Option.map_id_apply

theorem standing_perform (h : InOrder p k) (c : Call) (i : Nat) :
    (p.perform c).state.standings[i]? = p.standings[i]?.map fun t =>
      t.afterAll ((p.submission? c).toList.filter fun s => s.level == i) := by
  rw [h.standings_perform c]
  cases p.submission? c with
  | none => exact Option.map_id_apply.symm
  | some s =>
      show (p.standings.modify s.level _)[i]? = p.standings[i]?.map fun t =>
        t.afterAll ([s].filter fun s => s.level == i)
      rw [List.getElem?_modify]
      by_cases hi : s.level = i
      · simp only [if_pos hi, List.filter_cons, beq_iff_eq, List.filter_nil]
        rfl
      · simp only [if_neg hi, List.filter_cons, beq_iff_eq, List.filter_nil]
        rfl

/-! ### A whole list of calls -/

/-- Every standing is what the submissions for its level have made of it. -/
theorem standing_performAll (calls : List Call) :
    ∀ {p : Campaign} {k : Nat}, InOrder p k → ∀ i : Nat,
      (p.performAll calls).standings[i]? = p.standings[i]?.map fun t =>
        t.afterAll ((p.history calls).filter fun s => s.level == i) := by
  induction calls with
  | nil =>
      intro p k _ i
      exact Option.map_id_apply.symm
  | cons c calls ih =>
      intro p k h i
      obtain ⟨k', h'⟩ := h.step (p.step_perform c)
      show ((p.perform c).state.performAll calls).standings[i]? = _
      rw [ih h', h.standing_perform c, Option.map_map]
      refine congrArg (fun f => p.standings[i]?.map f) (funext fun t => ?_)
      rw [history_cons, List.filter_append]
      exact List.foldl_append.symm

/-- The levels in the history exist, and each program was run on its level. -/
theorem reply_of_mem_history (calls : List Call) :
    ∀ {p : Campaign} {k : Nat}, InOrder p k → ∀ s ∈ p.history calls,
      ∃ l, p.levels[s.level]? = some l ∧ s.reply = .ok (l.run s.program) := by
  induction calls with
  | nil =>
      intro p k _ s hs
      cases hs
  | cons c calls ih =>
      intro p k h s hs
      have hstep := p.step_perform c
      obtain ⟨k', h'⟩ := h.step hstep
      rcases List.mem_append.mp hs with hnow | hlater
      · exact (h.submission?_eq_some (Option.mem_toList.mp hnow)).2
      · obtain ⟨l, hl, hreply⟩ := ih h' s hlater
        exact ⟨l, hstep.levels_eq ▸ hl, hreply⟩

/-- A level that does not exist is not in the history. -/
theorem filter_history_eq_nil (h : InOrder p k) (calls : List Call) {i : Nat}
    (hi : p.standings[i]? = none) : ((p.history calls).filter fun s => s.level == i) = [] := by
  refine List.filter_eq_nil_iff.mpr fun s hs => ?_
  obtain ⟨l, hl, -⟩ := h.reply_of_mem_history calls s hs
  have hlt : s.level < p.levels.length := (List.getElem?_eq_some_iff.mp hl).1
  have hge : p.standings.length ≤ i := List.getElem?_eq_none_iff.mp hi
  have hlength := h.length_standings
  rw [beq_iff_eq]
  omega

theorem isSolved_performAll (h : InOrder p k) (calls : List Call) (i : Nat) :
    (p.performAll calls).isSolved i =
      (p.isSolved i || (p.history calls).any fun s => s.level == i && s.solves) := by
  unfold isSolved
  rw [h.standing_performAll calls]
  cases hi : p.standings[i]? with
  | some t =>
      show (t.afterAll _).solved = (t.solved || _)
      rw [Standing.solved_afterAll, List.any_filter]
  | none =>
      rw [← List.any_filter, h.filter_history_eq_nil calls hi]
      rfl

theorem attempts_performAll (h : InOrder p k) (calls : List Call) {i : Nat}
    (hlimit : p.attempts i ≤ Standing.attemptLimit) :
    (p.performAll calls).attempts i =
      min (p.attempts i + (p.history calls).countP fun s => s.level == i)
        Standing.attemptLimit := by
  unfold attempts at hlimit ⊢
  rw [h.standing_performAll calls, List.countP_eq_length_filter]
  cases hi : p.standings[i]? with
  | some t =>
      rw [hi] at hlimit
      exact Standing.attempts_afterAll _ t hlimit
  | none =>
      rw [h.filter_history_eq_nil calls hi]
      rfl

/-- What is unlocked stays unlocked, because what is solved stays solved. -/
theorem isUnlocked_performAll (h : InOrder p k) (calls : List Call) {i : Nat}
    (hu : p.isUnlocked i = true) : (p.performAll calls).isUnlocked i = true := by
  obtain ⟨hlevels, -, k', h'⟩ := InOrder.performAll calls h
  -- With fewer solved levels in the end, level number `k'` would be solved no longer.
  have hk : k ≤ k' := by
    refine Nat.le_of_not_lt fun hlt => Nat.lt_irrefl k' ((h'.solvedTo k').mp ?_)
    rw [h.isSolved_performAll calls, (h.solvedTo k').mpr hlt, Bool.true_or]
  obtain ⟨hi, hik⟩ := h.isUnlocked_iff.mp hu
  exact h'.isUnlocked_iff.mpr ⟨hlevels ▸ hi, Nat.le_trans hik hk⟩

end InOrder

/-- Only submissions enter the history. -/
theorem length_history_le (calls : List Call) :
    ∀ p : Campaign, (p.history calls).length ≤ calls.countP Call.isSubmit := by
  induction calls with
  | nil =>
      intro p
      exact Nat.le_refl 0
  | cons c calls ih =>
      intro p
      have hnow : (p.submission? c).toList.length ≤ if c.isSubmit then 1 else 0 := by
        cases c with
        | submit cs => exact Option.length_toList_le
        | _ => exact Nat.le_refl 0
      have hlater := ih (p.perform c).state
      rw [history_cons, List.length_append, List.countP_cons]
      omega

theorem solvedCount_eq_countP (p : Campaign) :
    p.solvedCount = (List.range p.standings.length).countP p.isSolved := by
  have hflags : p.standings.map Standing.solved =
      (List.range p.standings.length).map p.isSolved := by
    refine List.ext_getElem (by simp) fun i hi _ => ?_
    rw [List.length_map] at hi
    rw [List.getElem_map, List.getElem_map, List.getElem_range]
    unfold isSolved
    rw [List.getElem?_eq_getElem hi]
    rfl
  calc p.solvedCount
      = (p.standings.map Standing.solved).countP id := by rw [List.countP_map]; rfl
    _ = ((List.range p.standings.length).map p.isSolved).countP id := by rw [hflags]
    _ = (List.range p.standings.length).countP p.isSolved := List.countP_map

/-! ### From the beginning -/

theorem isSolved_create (levels : List Level) (settings : CampaignSettings) (i : Nat) :
    (create levels settings).isSolved i = false := by
  refine Bool.eq_false_iff.mpr fun h => ?_
  exact absurd (((InOrder.create levels settings).solvedTo i).mp h) (Nat.not_lt_zero i)

theorem attempts_create (levels : List Level) (settings : CampaignSettings) (i : Nat) :
    (create levels settings).attempts i = 0 := by
  unfold attempts create
  rw [List.getElem?_replicate]
  split <;> rfl

/--
**The standings bear out the history.**  After any list of calls to a new campaign,
whatever the settings, and with fewer submissions than the counter can hold, a level has
as many attempts as programs were submitted while it was in progress.  It is solved
exactly if one of them was answered with a success, that is, if one of them ends on the
goal of the level, and the solved levels are as many as there are such levels.  Solved
and unlocked levels remain so, and a call only changes the standing of the level in
progress.
-/
theorem standings_bear_out_history (levels : List Level) (settings : CampaignSettings)
    (calls : List Call) :
    let p := (create levels settings).performAll calls
    let past := (create levels settings).history calls
    (calls.countP Call.isSubmit < Standing.attemptLimit →
      ∀ i, p.attempts i = past.countP fun s => s.level == i) ∧
    (∀ i, p.isSolved i = true ↔ ∃ s ∈ past, s.level = i ∧ s.solves = true) ∧
    (∀ s ∈ past, ∃ l, levels[s.level]? = some l ∧ s.reply = .ok (l.run s.program) ∧
      (s.solves = true ↔
        (Program.final l.board.toTerrain l.start s.program).position = l.goal)) ∧
    p.solvedCount = (List.range levels.length).countP
      (fun i => past.any fun s => s.level == i && s.solves) ∧
    (∀ more i, p.isSolved i = true → (p.performAll more).isSolved i = true) ∧
    (∀ more i, p.isUnlocked i = true → (p.performAll more).isUnlocked i = true) ∧
    (∀ c i, p.stage ≠ .inProgress i →
      (p.perform c).state.standings[i]? = p.standings[i]?) := by
  intro p past
  have hnew := InOrder.create levels settings
  obtain ⟨hlevels, -, k, hk⟩ := InOrder.performAll calls hnew
  have hsolved : ∀ i, p.isSolved i = past.any fun s => s.level == i && s.solves := by
    intro i
    rw [hnew.isSolved_performAll calls, isSolved_create, Bool.false_or]
  refine ⟨?_, ?_, ?_, ?_, ?_, ?_, ?_⟩
  · intro hfew i
    have hall : (past.countP fun s => s.level == i) ≤ past.length := List.countP_le_length
    have hlength : past.length ≤ calls.countP Call.isSubmit := length_history_le calls _
    rw [hnew.attempts_performAll calls (attempts_create levels settings i ▸ Nat.zero_le _),
      attempts_create, Nat.zero_add]
    exact Nat.min_eq_left (Nat.le_of_lt (Nat.lt_of_le_of_lt (Nat.le_trans hall hlength) hfew))
  · intro i
    rw [hsolved, List.any_eq_true]
    simp only [Bool.and_eq_true, beq_iff_eq]
  · intro s hs
    obtain ⟨l, hl, hreply⟩ := hnew.reply_of_mem_history calls s hs
    refine ⟨l, hl, hreply, ?_⟩
    unfold Submission.solves
    rw [hreply]
    exact Level.run_solved_iff
  · rw [solvedCount_eq_countP, hk.length_standings, hlevels]
    exact congrArg (fun f => (List.range levels.length).countP f) (funext hsolved)
  · intro more i hi
    rw [hk.isSolved_performAll more, hi, Bool.true_or]
  · intro more i hu
    exact hk.isUnlocked_performAll more hu
  · intro c i hi
    exact hk.standing_perform_of_ne c hi

/-- A failure, a success and another failure at the first of two levels. -/
theorem standings_bear_out_history_nook :
    let calls : List Call :=
      [.start, .submit [], .submit Program.throughNook, .select 0, .submit [.act .left]]
    let p := (create [Level.nook, Level.nook] { autoAdvance := true }).performAll calls
    calls.countP Call.isSubmit < Standing.attemptLimit ∧ p.attempts 0 = 3 ∧
      p.isSolved 0 = true ∧ (p.performAll [.submit []]).isSolved 0 = true ∧
      p.stage ≠ .inProgress 1 ∧ (p.perform (.submit [])).state.standings[1]? = p.standings[1]? := by
  intro calls p
  obtain ⟨hattempts, -, -, -, hsolved, -, hother⟩ := standings_bear_out_history
    [Level.nook, Level.nook] { autoAdvance := true } calls
  have hfew : calls.countP Call.isSubmit < Standing.attemptLimit := by decide
  have h0 : p.isSolved 0 = true := by decide
  have h1 : p.stage ≠ .inProgress 1 := by decide
  exact ⟨hfew, (hattempts hfew 0).trans (by decide), h0, hsolved [.submit []] 0 h0, h1,
    hother (.submit []) 1 h1⟩

end Campaign

end RobotMaze
