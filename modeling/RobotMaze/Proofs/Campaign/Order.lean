/-
Levels are solved in order.

A campaign stores which levels are solved and which one is being played side by side,
and nothing compares the two.  That they fit together is an invariant of the calls:
exactly the first `k` levels are solved, the level being played is one of these or the
next, and the stages "just solved" and "all complete" are only reached when the flags
bear them out (`InOrder`).

The number `k` only changes when the first open level is solved.  Returning to an
earlier level is harmless because solving it again sets a flag that is set already, and
going on from a solved level is harmless because the flag was set before.  What can be
asked of a campaign (`Coherent`) is then read off the invariant.
-/
import RobotMaze.Proofs.Campaign.Step

namespace RobotMaze

namespace Campaign

/-- Whether a stage fits a campaign whose first `k` levels are solved. -/
def Fits (p : Campaign) (k : Nat) : Stage → Prop
  | .notStarted => k = 0
  | .inProgress i => i < p.levels.length ∧ i ≤ k
  | .solved i => i < k ∧ p.settings.autoAdvance = false
  | .allComplete => k = p.levels.length

/-- The invariant: the first `k` levels are solved, no others, and the stage fits. -/
structure InOrder (p : Campaign) (k : Nat) : Prop where
  length_standings : p.standings.length = p.levels.length
  solvedTo : p.SolvedTo k
  fits : p.Fits k p.stage

namespace InOrder

variable {p q : Campaign} {k : Nat}

theorem le_length (h : InOrder p k) : k ≤ p.levels.length := by
  rw [← h.length_standings]
  exact h.solvedTo.le_length

/-- Unlocked are the levels before the first open one, and that one. -/
theorem isUnlocked_iff (h : InOrder p k) {i : Nat} :
    p.isUnlocked i = true ↔ i < p.levels.length ∧ i ≤ k := by
  unfold isUnlocked
  rw [Bool.and_eq_true, decide_eq_true_iff, decide_eq_true_iff, h.solvedTo.frontier_eq]

/-- A level in progress exists. -/
theorem exists_level (h : InOrder p k) {i : Nat} (hs : p.stage = .inProgress i) :
    ∃ l, p.levels[i]? = some l := by
  have hfits := h.fits
  rw [hs] at hfits
  have hi : i < p.levels.length := hfits.1
  exact ⟨p.levels[i], List.getElem?_eq_getElem hi⟩

theorem create (levels : List Level) (settings : CampaignSettings) :
    InOrder (Campaign.create levels settings) 0 := by
  refine ⟨List.length_replicate, ?_, rfl⟩
  intro i
  rw [isSolved_iff]
  constructor
  · intro h
    obtain ⟨s, hs, hsolved⟩ := h
    rw [List.eq_of_mem_replicate (List.mem_of_getElem? hs)] at hsolved
    cases hsolved
  · intro hi
    exact absurd hi (Nat.not_lt_zero i)

/-- Going on from a solved level leads to one that may be played, or to the end. -/
theorem fits_stageAfter (h : InOrder p k) {i : Nat} (hik : i < k) : p.Fits k (p.stageAfter i) := by
  unfold stageAfter
  have hle := h.le_length
  by_cases hi : i + 1 < p.levels.length
  · rw [if_pos hi]
    exact ⟨hi, hik⟩
  · rw [if_neg hi]
    show k = p.levels.length
    omega

/-- Another stage that fits keeps the invariant. -/
theorem withStage (h : InOrder p k) {s : Stage} (hs : p.Fits k s) :
    InOrder { p with stage := s } k := by
  refine ⟨h.length_standings, h.solvedTo, ?_⟩
  cases s <;> exact hs

theorem countAttempt (h : InOrder p k) (i : Nat) : InOrder (p.countAttempt i) k := by
  refine ⟨?_, h.solvedTo.countAttempt i, ?_⟩
  · show (p.standings.modify i _).length = p.levels.length
    rw [List.length_modify]
    exact h.length_standings
  · have hfits := h.fits
    show (p.countAttempt i).Fits k p.stage
    cases hs : p.stage <;> rw [hs] at hfits <;> exact hfits

/-- Solving the level in progress, whether for the first time or again. -/
theorem markSolved (h : InOrder p k) {i : Nat} (hstage : p.stage = .inProgress i) :
    InOrder (p.markSolved i) (max k (i + 1)) := by
  have hfits := h.fits
  rw [hstage] at hfits
  obtain ⟨hi, hik⟩ := hfits
  refine ⟨?_, h.solvedTo.markSolved (h.length_standings ▸ hi) hik, ?_⟩
  · show (p.standings.modify i _).length = p.levels.length
    rw [List.length_modify]
    exact h.length_standings
  · show (p.markSolved i).Fits (max k (i + 1)) p.stage
    rw [hstage]
    exact ⟨hi, by omega⟩

theorem step {c : Call} (h : InOrder p k) (hstep : Step p c q) : ∃ k', InOrder q k' := by
  have hfits := h.fits
  cases hstep with
  | start hs =>
      rw [hs] at hfits
      refine ⟨k, h.withStage ?_⟩
      cases hl : p.levels with
      | nil =>
          show k = p.levels.length
          rw [hl]
          exact hfits
      | cons l ls =>
          show 0 < p.levels.length ∧ 0 ≤ k
          rw [hl]
          exact ⟨Nat.succ_pos _, Nat.zero_le k⟩
  | startedBefore _ => exact ⟨k, h⟩
  | @failure i _ _ _ _ _ => exact ⟨k, h.countAttempt i⟩
  | @success i _ _ hs _ _ hmanual =>
      refine ⟨max k (i + 1), ((h.countAttempt i).markSolved hs).withStage ?_⟩
      exact ⟨by omega, hmanual⟩
  | @successOn i _ _ hs _ _ _ =>
      have hsolved := (h.countAttempt i).markSolved hs
      exact ⟨max k (i + 1), hsolved.withStage (hsolved.fits_stageAfter (by omega))⟩
  | submitRefused _ => exact ⟨k, h⟩
  | advance hs =>
      rw [hs] at hfits
      exact ⟨k, h.withStage (h.fits_stageAfter hfits.1)⟩
  | advanceRefused _ => exact ⟨k, h⟩
  | select hu => exact ⟨k, h.withStage (h.isUnlocked_iff.mp hu)⟩
  | selectRefused _ => exact ⟨k, h⟩

/-- A whole list of calls keeps the invariant, and the levels and settings with it. -/
theorem performAll (calls : List Call) :
    ∀ {p : Campaign} {k : Nat}, InOrder p k →
      (p.performAll calls).levels = p.levels ∧ (p.performAll calls).settings = p.settings ∧
        ∃ k', InOrder (p.performAll calls) k' := by
  induction calls with
  | nil => intro p k h; exact ⟨rfl, rfl, k, h⟩
  | cons c calls ih =>
      intro p k h
      have hstep := p.step_perform c
      obtain ⟨k', h'⟩ := h.step hstep
      obtain ⟨hlevels, hsettings, hend⟩ := ih h'
      exact ⟨hlevels.trans hstep.levels_eq, hsettings.trans hstep.settings_eq, hend⟩

end InOrder

/-! ### What can be asked of a campaign in order -/

/-- The flags and the stage of a campaign fit together. -/
structure Coherent (p : Campaign) : Prop where
  /-- There is one standing for each level. -/
  length_standings : p.standings.length = p.levels.length
  /-- The solved levels are a prefix of the list. -/
  solved_before : ∀ i j, i < j → p.isSolved j = true → p.isSolved i = true
  /-- Unlocked are the solved levels and the first one that is not. -/
  unlocked_iff_first : ∀ i, i < p.levels.length →
    (p.isUnlocked i = true ↔
      p.isSolved i = true ∨ p.isSolved i = false ∧ ∀ j, j < i → p.isSolved j = true)
  /-- Unlocked are the levels up to the number of solved ones. -/
  unlocked_iff_count : ∀ i, i < p.levels.length → (p.isUnlocked i = true ↔ i ≤ p.solvedCount)
  inProgress : ∀ i, p.stage = .inProgress i → i < p.levels.length ∧ p.isUnlocked i = true
  solved : ∀ i, p.stage = .solved i →
    i < p.levels.length ∧ p.isSolved i = true ∧ p.settings.autoAdvance = false
  allComplete : p.stage = .allComplete → ∀ i, i < p.levels.length → p.isSolved i = true
  notStarted : p.stage = .notStarted → ∀ i, p.isSolved i = false
  /-- A level in progress is found, and the submitted program is run on it. -/
  submit : ∀ i cs, p.stage = .inProgress i →
    ∃ l, p.levels[i]? = some l ∧ (p.submit cs).reply = .ok (l.run cs)

theorem InOrder.coherent {p : Campaign} {k : Nat} (h : InOrder p k) : Coherent p := by
  have hsolved := h.solvedTo
  have hfits := h.fits
  refine ⟨h.length_standings, ?_, ?_, ?_, ?_, ?_, ?_, ?_, ?_⟩
  · intro i j hij hj
    rw [hsolved] at hj ⊢
    omega
  · intro i hi
    rw [h.isUnlocked_iff, hsolved]
    constructor
    · intro h
      obtain ⟨-, hik⟩ := h
      rcases Nat.lt_or_eq_of_le hik with hlt | rfl
      · exact Or.inl hlt
      · refine Or.inr ⟨Bool.eq_false_iff.mpr ?_, fun j hj => (hsolved j).mpr hj⟩
        rw [ne_eq, hsolved]
        exact Nat.lt_irrefl i
    · intro h
      rcases h with hlt | ⟨-, hall⟩
      · exact ⟨hi, Nat.le_of_lt hlt⟩
      · refine ⟨hi, Nat.le_of_not_lt ?_⟩
        intro hki
        exact Nat.lt_irrefl k ((hsolved k).mp (hall k hki))
  · intro i hi
    rw [h.isUnlocked_iff, hsolved.solvedCount_eq]
    omega
  · intro i hs
    rw [hs] at hfits
    exact ⟨hfits.1, h.isUnlocked_iff.mpr hfits⟩
  · intro i hs
    rw [hs] at hfits
    exact ⟨Nat.lt_of_lt_of_le hfits.1 h.le_length, (hsolved i).mpr hfits.1, hfits.2⟩
  · intro hs i hi
    rw [hs] at hfits
    exact (hsolved i).mpr (hfits ▸ hi)
  · intro hs i
    rw [hs] at hfits
    refine Bool.eq_false_iff.mpr ?_
    rw [ne_eq, hsolved, show k = 0 from hfits]
    exact Nat.not_lt_zero i
  · intro i cs hs
    obtain ⟨l, hl⟩ := h.exists_level hs
    exact ⟨l, hl, submit_reply hs hl cs⟩

/--
**Whatever the player does, flags and stage fit together.**  After any list of calls to
a new campaign the levels and settings are the given ones, the solved levels form a
prefix that the stage agrees with, and no level is looked up that does not exist.
-/
theorem coherent_after_any_calls (levels : List Level) (settings : CampaignSettings)
    (calls : List Call) :
    let p := (create levels settings).performAll calls
    p.levels = levels ∧ p.settings = settings ∧ Coherent p := by
  obtain ⟨hlevels, hsettings, k, hk⟩ := InOrder.performAll calls (InOrder.create levels settings)
  exact ⟨hlevels, hsettings, hk.coherent⟩

end Campaign

end RobotMaze
