/-
When a call is refused, and that a refusal has no effect.

A submission is refused exactly while no level is in progress, and going on exactly
while no level has just been solved.  A level can be selected if it exists and at least
as many levels are solved as lie before it.  The calls test none of this in these words:
`submit` looks the level up, and `select` compares with the first level that is not
solved.  That both come to the same is what a campaign in order provides, since a level
in progress exists there and the solved levels are a prefix.

That a refused call changes nothing is plain for all calls but one.  A submission counts
the attempt and marks the level before it goes on, and going on may be refused; but it
never is at that point, since the level has just become "solved" (`succeed_reply`).
-/
import RobotMaze.Proofs.Campaign.Order

namespace RobotMaze

namespace Campaign

variable {p : Campaign} {k : Nat}

/-! ### The reply of each call -/

theorem Turn.reply_map_eq_error_iff {α β : Type} {f : α → β} {t : Turn α} {e : CampaignError} :
    (t.map f).reply = .error e ↔ t.reply = .error e := by
  show t.reply.map f = .error e ↔ t.reply = .error e
  cases t.reply <;> simp [Except.map]

theorem start_reply (p : Campaign) : p.start.reply = .ok p.start.state.stage := by
  by_cases h : p.stage = .notStarted
  · rw [start_of_notStarted h]
    rfl
  · rw [start_of_started h]

theorem advance_reply_eq_error_iff {e : CampaignError} :
    p.advance.reply = .error e ↔ (∀ i, p.stage ≠ .solved i) ∧ e = .noActiveLevel p.stage := by
  rcases Classical.exists_or_forall_not fun i => p.stage = .solved i with ⟨i, h⟩ | h
  · rw [advance_of_solved h]
    constructor
    · intro hreply
      cases hreply
    · intro hnone
      exact absurd h (hnone.1 i)
  · rw [advance_of_not_solved h]
    constructor
    · intro hreply
      exact ⟨h, (Except.error.inj hreply).symm⟩
    · intro hnone
      exact congrArg Except.error hnone.2.symm

namespace InOrder

theorem submit_reply_eq_error_iff (h : InOrder p k) {cs : Program} {e : CampaignError} :
    (p.submit cs).reply = .error e ↔
      (∀ i, p.stage ≠ .inProgress i) ∧ e = .noActiveLevel p.stage := by
  rcases Classical.exists_or_forall_not fun i => p.stage = .inProgress i with ⟨i, hs⟩ | hnone
  · obtain ⟨l, hl⟩ := h.exists_level hs
    rw [submit_reply hs hl]
    constructor
    · intro hreply
      cases hreply
    · intro hnone
      exact absurd hs (hnone.1 i)
  · rw [submit_of_missing fun i _ hs => absurd hs (hnone i)]
    constructor
    · intro hreply
      exact ⟨hnone, (Except.error.inj hreply).symm⟩
    · intro he
      exact congrArg Except.error he.2.symm

theorem select_reply (h : InOrder p k) (i : Nat) :
    (p.select i).reply =
      if p.levels.length ≤ i then .error (.outOfRange i p.levels.length)
      else if p.solvedCount < i then .error (.levelLocked i)
      else .ok (.inProgress i) := by
  rw [h.solvedTo.solvedCount_eq]
  by_cases hi : i < p.levels.length
  · rw [if_neg (Nat.not_le_of_lt hi)]
    by_cases hk : i ≤ k
    · rw [if_neg (Nat.not_lt_of_le hk), select_of_unlocked (h.isUnlocked_iff.mpr ⟨hi, hk⟩)]
      rfl
    · have hlocked : ¬p.isUnlocked i = true := fun hu => hk (h.isUnlocked_iff.mp hu).2
      rw [if_pos (Nat.lt_of_not_le hk), select_of_locked hi hlocked]
      rfl
  · rw [if_pos (Nat.le_of_not_lt hi), select_of_outOfRange hi]
    rfl

/-! ### A refusal has no effect -/

/-- A refused call is a refusal and nothing else: the state is the one before the call, and
nothing is logged. -/
theorem perform_eq_refuse (h : InOrder p k) {c : Call} {e : CampaignError}
    (hreply : (p.perform c).reply = .error e) : p.perform c = p.refuse e := by
  cases c with
  | start =>
      have hstart := Turn.reply_map_eq_error_iff.mp hreply
      rw [start_reply] at hstart
      cases hstart
  | submit cs =>
      have hsubmit := Turn.reply_map_eq_error_iff.mp hreply
      obtain ⟨hnone, rfl⟩ := h.submit_reply_eq_error_iff.mp hsubmit
      show (p.submit cs).map Reply.outcome = _
      rw [submit_of_missing fun i _ hs => absurd hs (hnone i)]
      rfl
  | advance =>
      have hadvance := Turn.reply_map_eq_error_iff.mp hreply
      obtain ⟨hnone, rfl⟩ := advance_reply_eq_error_iff.mp hadvance
      show p.advance.map Reply.stage = _
      rw [advance_of_not_solved hnone]
      rfl
  | select i =>
      have hselect := Turn.reply_map_eq_error_iff.mp hreply
      show (p.select i).map Reply.stage = _
      by_cases hu : p.isUnlocked i = true
      · rw [select_of_unlocked hu] at hselect
        cases hselect
      · by_cases hi : i < p.levels.length
        · rw [select_of_locked hi hu] at hselect ⊢
          rw [← Except.error.inj hselect]
          rfl
        · rw [select_of_outOfRange hi] at hselect ⊢
          rw [← Except.error.inj hselect]
          rfl

end InOrder

/-! ### What a player can rely on -/

/-- A call is refused only for the reason that its error names, and a refused call is
without effect. -/
structure RefusesForCause (p : Campaign) : Prop where
  start_reply : p.start.reply = .ok p.start.state.stage
  /-- A submission is refused exactly while no level is in progress. -/
  submit_refused : ∀ cs e, (p.submit cs).reply = .error e ↔
    (∀ i, p.stage ≠ .inProgress i) ∧ e = .noActiveLevel p.stage
  /-- Going on is refused exactly while no level has just been solved. -/
  advance_refused : ∀ e, p.advance.reply = .error e ↔
    (∀ i, p.stage ≠ .solved i) ∧ e = .noActiveLevel p.stage
  /-- Every level up to the first that is not solved can be selected, and no other. -/
  select_reply : ∀ i, (p.select i).reply =
    if p.levels.length ≤ i then .error (.outOfRange i p.levels.length)
    else if p.solvedCount < i then .error (.levelLocked i)
    else .ok (.inProgress i)
  /-- A refused call changes nothing and leaves nothing in the log. -/
  unchanged : ∀ c e, (p.perform c).reply = .error e →
    (p.perform c).state = p ∧ (p.perform c).events = []
  /-- Once a program has solved the level in progress, nothing is refused any more. -/
  succeed_reply : ∀ i l, (p.succeed i l).reply = .ok ()

theorem InOrder.refusesForCause (h : InOrder p k) : RefusesForCause p where
  start_reply := p.start_reply
  submit_refused := fun _ _ => h.submit_reply_eq_error_iff
  advance_refused := fun _ => advance_reply_eq_error_iff
  select_reply := h.select_reply
  unchanged := by
    intro c e hreply
    rw [h.perform_eq_refuse hreply]
    exact ⟨rfl, rfl⟩
  succeed_reply := p.succeed_reply

/--
**Calls are refused for cause and without effect.**  After any list of calls to a new
campaign, whatever the settings, each call is refused exactly under the condition that
belongs to its error, and a refused call leaves stage, solved levels and attempts as
they were.
-/
theorem refused_only_for_cause (levels : List Level) (settings : CampaignSettings)
    (calls : List Call) :
    let p := (create levels settings).performAll calls
    p.levels = levels ∧ RefusesForCause p := by
  obtain ⟨hlevels, -, k, hk⟩ := InOrder.performAll calls (InOrder.create levels settings)
  exact ⟨hlevels, hk.refusesForCause⟩

end Campaign

end RobotMaze
