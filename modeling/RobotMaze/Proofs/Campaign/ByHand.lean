/-
Going on at once is the same as going on by hand.

With automatic advance a success leads straight to the next level; without it the player
stays at the solved level until told to go on.  A player without it who answers every
success with an advance (`withAdvances`) sees the same campaign: the same stages,
standings and replies, and all in all the same log.

The two sides are related by a function.  `manual` switches automatic advance off and
keeps everything else, and one call on the automatic side is matched by one or two on
the other (`matched_perform`).  Nothing has to be known about the campaign for that.
The stage "solved" never shows between two calls on the automatic side, but if it did,
both sides would treat it alike, so the match needs no invariant.
-/
import RobotMaze.Proofs.Campaign.Step
import RobotMaze.Proofs.Run

namespace RobotMaze

namespace Campaign

variable {p : Campaign}

/-- The same campaign without automatic advance. -/
def manual (p : Campaign) : Campaign :=
  { p with settings := { autoAdvance := false } }

/-- The same turn on a campaign without automatic advance. -/
def Turn.manual {α : Type} (t : Turn α) : Turn α :=
  { t with state := t.state.manual }

/-- Whether a turn answers with the outcome of a program that solved its level. -/
def Turn.succeeds (t : Turn Reply) : Bool :=
  match t.reply with
  | .ok (.outcome o) => o.solved
  | _ => false

/-- A call, and an advance if it was a success. -/
def answering (p : Campaign) (c : Call) : List Call :=
  if (p.perform c).succeeds then [c, .advance] else [c]

/-- The given calls, with one advance right after each success. -/
def withAdvances (p : Campaign) : List Call → List Call
  | [] => []
  | c :: calls => p.answering c ++ withAdvances (p.performAll (p.answering c)) calls

/-! ### Successes -/

/-- Only a submission can be a success. -/
theorem not_succeeds_map_stage (t : Turn Stage) : ¬(t.map Reply.stage).succeeds = true := by
  show ¬(match t.reply.map Reply.stage with
    | .ok (.outcome o) => o.solved
    | _ => false) = true
  cases t.reply <;> exact Bool.false_ne_true

/-- A submission is a success if its program solves the level in progress. -/
theorem succeeds_submit_iff {cs : Program} :
    (p.perform (.submit cs)).succeeds = true ↔
      ∃ i l, p.stage = .inProgress i ∧ p.levels[i]? = some l ∧ (l.run cs).solved = true := by
  rcases p.playing_or_missing with ⟨i, l, hs, hl⟩ | hmissing
  · have hreply : (p.perform (.submit cs)).reply = .ok (.outcome (l.run cs)) :=
      congrArg (Except.map Reply.outcome) (submit_reply hs hl cs)
    unfold Turn.succeeds
    rw [hreply]
    constructor
    · intro ho
      exact ⟨i, l, hs, hl, ho⟩
    · intro ⟨j, m, hs', hm, ho⟩
      rw [hs] at hs'
      rw [← Stage.inProgress.inj hs', hl] at hm
      rw [Option.some.inj hm]
      exact ho
  · constructor
    · intro hsucc
      have hreply : (p.perform (.submit cs)).reply = .error (.noActiveLevel p.stage) :=
        congrArg (fun t => t.reply.map Reply.outcome) (submit_of_missing hmissing cs)
      unfold Turn.succeeds at hsucc
      rw [hreply] at hsucc
      cases hsucc
    · intro ⟨i, l, hs, hl, _⟩
      exact absurd hl (hmissing i l hs)

/-! ### One call

Only a success is treated differently, so every other turn is the same on both sides. -/

theorem start_manual (p : Campaign) : p.manual.start = p.start.manual := by
  by_cases h : p.stage = .notStarted
  · rw [start_of_notStarted h, start_of_notStarted (p := p.manual) h]
    rfl
  · rw [start_of_started h, start_of_started (p := p.manual) h]
    rfl

theorem advance_manual (p : Campaign) : p.manual.advance = p.advance.manual := by
  rcases Classical.exists_or_forall_not fun i => p.stage = .solved i with ⟨i, h⟩ | h
  · rw [advance_of_solved h, advance_of_solved (p := p.manual) h]
    rfl
  · rw [advance_of_not_solved h, advance_of_not_solved (p := p.manual) h]
    rfl

theorem select_manual (p : Campaign) (i : Nat) : p.manual.select i = (p.select i).manual := by
  by_cases hu : p.isUnlocked i = true
  · rw [select_of_unlocked hu, select_of_unlocked (p := p.manual) hu]
    rfl
  · by_cases hi : i < p.levels.length
    · rw [select_of_locked hi hu, select_of_locked (p := p.manual) hi hu]
      rfl
    · rw [select_of_outOfRange hi, select_of_outOfRange (p := p.manual) hi]
      rfl

theorem submit_manual_of_no_success {cs : Program}
    (h : ¬(p.perform (.submit cs)).succeeds = true) :
    p.manual.submit cs = (p.submit cs).manual := by
  rw [succeeds_submit_iff] at h
  rcases p.playing_or_missing with ⟨i, l, hs, hl⟩ | hmissing
  · have ho : (l.run cs).solved = false :=
      Bool.eq_false_iff.mpr fun hsolved => h ⟨i, l, hs, hl, hsolved⟩
    rw [submit_of_failure hs hl ho, submit_of_failure (p := p.manual) hs hl ho]
    rfl
  · rw [submit_of_missing hmissing, submit_of_missing (p := p.manual) hmissing]
    rfl

/-- A success on a campaign that goes on at once is a success on the other and an advance
after it. -/
theorem advance_succeed_manual (hauto : p.settings.autoAdvance = true) (i : Nat) (l : Level) :
    let after := p.manual.succeed i l
    after.state.advance.reply = .ok (p.succeed i l).state.stage ∧
      after.state.advance.state = (p.succeed i l).state.manual ∧
      (p.succeed i l).events = after.events ++ after.state.advance.events := by
  -- Only the test on `p` needs `hauto`; on `p.manual` it reduces to false by itself.
  unfold succeed
  rw [if_pos hauto]
  exact ⟨rfl, rfl, rfl⟩

/-- On a campaign without automatic advance, a call and the advance after a success come to
the same as the turn `t`, which is the answer to the call with automatic advance. -/
structure Matched (p : Campaign) (c : Call) (t : Turn Reply) : Prop where
  reply : (p.perform c).reply = t.reply
  state : p.performAll (p.answering c) = t.state.manual
  /-- The advance after a success is not refused. -/
  advance_reply : (p.perform c).succeeds = true →
    (p.perform c).state.advance.reply = .ok t.state.stage
  events : t.events = (p.perform c).events ++
    if (p.perform c).succeeds then (p.perform c).state.advance.events else []

/-- A call that is no success needs no advance. -/
theorem Matched.of_same {c : Call} (hsame : p.manual.perform c = (p.perform c).manual)
    (hfail : ¬(p.perform c).succeeds = true) : Matched p.manual c (p.perform c) := by
  have hfail' : ¬(p.manual.perform c).succeeds = true := by
    rw [hsame]
    exact hfail
  refine ⟨?_, ?_, fun hsucc => absurd hsucc hfail', ?_⟩
  · rw [hsame]
    rfl
  · unfold answering
    rw [if_neg hfail']
    show (p.manual.perform c).state = _
    rw [hsame]
    rfl
  · rw [if_neg hfail', List.append_nil, hsame]
    rfl

theorem Matched.of_success (hauto : p.settings.autoAdvance = true) {cs : Program}
    (hsucc : (p.perform (.submit cs)).succeeds = true) :
    Matched p.manual (.submit cs) (p.perform (.submit cs)) := by
  obtain ⟨i, l, hs, hl, ho⟩ := succeeds_submit_iff.mp hsucc
  have hsucc' : (p.manual.perform (.submit cs)).succeeds = true :=
    succeeds_submit_iff.mpr ⟨i, l, hs, hl, ho⟩
  have hturn : p.perform (.submit cs) = _ :=
    congrArg (Turn.map Reply.outcome) (submit_of_success hs hl ho)
  have hturn' : p.manual.perform (.submit cs) = _ :=
    congrArg (Turn.map Reply.outcome) (submit_of_success (p := p.manual) hs hl ho)
  obtain ⟨hreply, hstate, hevents⟩ :=
    advance_succeed_manual (p := p.countAttempt i) hauto i l
  refine ⟨?_, ?_, fun _ => ?_, ?_⟩
  · rw [hturn, hturn']
    rfl
  · unfold answering
    rw [if_pos hsucc']
    show (p.manual.perform (.submit cs)).state.advance.state = _
    rw [hturn, hturn']
    exact hstate
  · rw [hturn, hturn']
    exact hreply
  · rw [if_pos hsucc', hturn, hturn']
    show l.runEvents cs ++ _ = _
    rw [hevents, ← List.append_assoc]
    rfl

theorem matched_perform (hauto : p.settings.autoAdvance = true) (c : Call) :
    Matched p.manual c (p.perform c) := by
  cases c with
  | start =>
      refine Matched.of_same ?_ (not_succeeds_map_stage p.start)
      exact congrArg (Turn.map Reply.stage) p.start_manual
  | submit cs =>
      by_cases hsucc : (p.perform (.submit cs)).succeeds = true
      · exact Matched.of_success hauto hsucc
      · refine Matched.of_same ?_ hsucc
        exact congrArg (Turn.map Reply.outcome) (submit_manual_of_no_success hsucc)
  | advance =>
      refine Matched.of_same ?_ (not_succeeds_map_stage p.advance)
      exact congrArg (Turn.map Reply.stage) p.advance_manual
  | select i =>
      refine Matched.of_same ?_ (not_succeeds_map_stage (p.select i))
      exact congrArg (Turn.map Reply.stage) (p.select_manual i)

/-! ### A whole list of calls -/

theorem withAdvances_cons (p : Campaign) (c : Call) (calls : List Call) :
    p.withAdvances (c :: calls) =
      p.answering c ++ (p.performAll (p.answering c)).withAdvances calls :=
  rfl

/-- The calls with advances grow by what answers the last call. -/
theorem withAdvances_concat (c : Call) (calls : List Call) :
    ∀ p : Campaign, p.withAdvances (calls ++ [c]) =
      p.withAdvances calls ++ (p.performAll (p.withAdvances calls)).answering c := by
  induction calls with
  | nil =>
      intro p
      exact List.append_nil _
  | cons d calls ih =>
      intro p
      rw [List.cons_append, withAdvances_cons, withAdvances_cons, ih, performAll_append,
        List.append_assoc]

theorem performAll_withAdvances (calls : List Call) :
    ∀ {p : Campaign}, p.settings.autoAdvance = true →
      (p.performAll calls).settings.autoAdvance = true ∧
        p.manual.performAll (p.manual.withAdvances calls) = (p.performAll calls).manual := by
  induction calls with
  | nil =>
      intro p hauto
      exact ⟨hauto, rfl⟩
  | cons c calls ih =>
      intro p hauto
      have hnext : (p.perform c).state.settings.autoAdvance = true := by
        rw [(p.step_perform c).settings_eq]
        exact hauto
      obtain ⟨hend, hsame⟩ := ih hnext
      refine ⟨hend, ?_⟩
      rw [withAdvances_cons, performAll_append, (matched_perform hauto c).state, hsame]
      rfl

/--
**Automatic advance is an advance after each success.**  One campaign goes on at once
and gets a list of calls; another does not and gets the same calls with an advance
after each success, `fresh.withAdvances calls`, which grows with every call by that call
and the advance.  Both are then at the same stage with the same standings, they answer
the next call alike, and the advance that may follow it leads to the stage where the
first campaign is already.
-/
theorem auto_advance_is_advance_after_success (levels : List Level) (calls : List Call)
    (c : Call) :
    let a := (create levels { autoAdvance := true }).performAll calls
    let fresh := create levels { autoAdvance := false }
    let b := fresh.performAll (fresh.withAdvances calls)
    fresh.withAdvances (calls ++ [c]) = fresh.withAdvances calls ++
        (if (b.perform c).succeeds then [c, .advance] else [c]) ∧
      b.levels = a.levels ∧ b.stage = a.stage ∧ b.standings = a.standings ∧
      (b.perform c).reply = (a.perform c).reply ∧
      ((b.perform c).succeeds = true →
        (b.perform c).state.advance.reply = .ok (a.perform c).state.stage) ∧
      (a.perform c).events = (b.perform c).events ++
        if (b.perform c).succeeds then (b.perform c).state.advance.events else [] := by
  intro a fresh b
  obtain ⟨hauto, hb⟩ :=
    performAll_withAdvances calls (p := create levels { autoAdvance := true }) rfl
  have hba : b = a.manual := hb
  have hmatched : Matched b c (a.perform c) := hba ▸ matched_perform hauto c
  refine ⟨withAdvances_concat c calls fresh, ?_, ?_, ?_, hmatched.reply, hmatched.advance_reply,
    hmatched.events⟩
  · rw [hba]
    rfl
  · rw [hba]
    rfl
  · rw [hba]
    rfl

theorem auto_advance_is_advance_after_success_nook :
    let fresh := create [Level.nook, Level.nook] { autoAdvance := false }
    let b := fresh.performAll (fresh.withAdvances [.start])
    (b.perform (.submit Program.throughNook)).succeeds = true ∧
      (b.perform (.submit Program.throughNook)).state.advance.reply = .ok (.inProgress 1) := by
  intro fresh b
  have hsucc : (b.perform (.submit Program.throughNook)).succeeds = true := by decide
  obtain ⟨-, -, -, -, -, hadvance, -⟩ := auto_advance_is_advance_after_success
    [Level.nook, Level.nook] [.start] (.submit Program.throughNook)
  exact ⟨hsucc, (hadvance hsucc).trans (congrArg Except.ok (by decide))⟩

end Campaign

end RobotMaze
