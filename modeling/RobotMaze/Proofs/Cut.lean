/-
Cutting a text into its words, and the case of its letters.

The words of a text are its maximal runs of characters that are no separators.  `Cut` says
so without a splitting function: it builds the text up from its words and from the gaps
between them.  Every text can be cut in one way only, and that is the way in which reading
cuts it (`cut_iff`).  So a gap counts for nothing but being there, and a change of
characters that keeps separators apart from others changes the words alone (`Cut.map`).

Lowering the letters of a text is such a change: a letter is no blank, in either case.
-/
import RobotMaze.Proofs.Words

namespace RobotMaze

namespace Text

variable {isSeparator : Char → Bool}

/-! ### Cutting a text into words -/

/-- The words of a text from left to right.  Before each stands a gap, which may be empty,
and behind it a separator or the end of the text. -/
inductive Cut (isSeparator : Char → Bool) : List Char → List (List Char) → Prop
  | gap {gap : List Char} (hgap : ∀ c ∈ gap, isSeparator c = true) : Cut isSeparator gap []
  | last {gap w : List Char} (hgap : ∀ c ∈ gap, isSeparator c = true)
      (hw : IsWord isSeparator w) : Cut isSeparator (gap ++ w) [w]
  | next {gap w rest : List Char} {c : Char} {ws : List (List Char)}
      (hgap : ∀ c ∈ gap, isSeparator c = true) (hw : IsWord isSeparator w)
      (hc : isSeparator c = true) (hrest : Cut isSeparator rest ws) :
      Cut isSeparator (gap ++ (w ++ c :: rest)) (w :: ws)

namespace Cut

theorem forall_isWord {cs : List Char} {ws : List (List Char)} (h : Cut isSeparator cs ws) :
    ∀ w ∈ ws, IsWord isSeparator w := by
  induction h with
  | gap hgap => simp
  | last hgap hw => simpa using hw
  | next hgap hw hc hrest ih => exact List.forall_mem_cons.mpr ⟨hw, ih⟩

/-- A separator in front of a text belongs to the gap before its first word. -/
theorem cons_separator {c : Char} {cs : List Char} {ws : List (List Char)}
    (hc : isSeparator c = true) (h : Cut isSeparator cs ws) : Cut isSeparator (c :: cs) ws := by
  cases h with
  | gap hgap => exact .gap (List.forall_mem_cons.mpr ⟨hc, hgap⟩)
  | @last gap w hgap hw =>
      rw [← List.cons_append]
      exact .last (List.forall_mem_cons.mpr ⟨hc, hgap⟩) hw
  | @next gap w rest d ws hgap hw hd hrest =>
      rw [← List.cons_append]
      exact .next (List.forall_mem_cons.mpr ⟨hc, hgap⟩) hw hd hrest

/-- Any other character begins a word or lengthens the first one. -/
theorem exists_cons {c : Char} {cs : List Char} {ws : List (List Char)}
    (hc : isSeparator c = false) (h : Cut isSeparator cs ws) :
    ∃ vs, Cut isSeparator (c :: cs) vs := by
  have hgap : ∀ d ∈ ([] : List Char), isSeparator d = true := by simp
  have hword : IsWord isSeparator [c] := ⟨by simp, by simpa using hc⟩
  have hlonger : ∀ {w : List Char}, IsWord isSeparator w → IsWord isSeparator (c :: w) := by
    intro w hw
    exact ⟨by simp, List.forall_mem_cons.mpr ⟨hc, hw.2⟩⟩
  have hafter : ∀ {d : Char} {gap rest : List Char} {ws : List (List Char)},
      (∀ x ∈ d :: gap, isSeparator x = true) → Cut isSeparator rest ws →
        Cut isSeparator (c :: d :: rest) ([c] :: ws) := by
    intro d gap rest ws hd hrest
    exact .next hgap hword (hd d List.mem_cons_self) hrest
  cases h with
  | gap hg =>
      cases cs with
      | nil => exact ⟨_, .last hgap hword⟩
      | cons d gap => exact ⟨_, hafter hg (.gap (List.forall_mem_cons.mp hg).2)⟩
  | @last gap w hg hw =>
      cases gap with
      | nil => exact ⟨_, .last hgap (hlonger hw)⟩
      | cons d gap => exact ⟨_, hafter hg (.last (List.forall_mem_cons.mp hg).2 hw)⟩
  | @next gap w rest e ws hg hw he hrest =>
      cases gap with
      | nil => exact ⟨_, .next hgap (hlonger hw) he hrest⟩
      | cons d gap => exact ⟨_, hafter hg (.next (List.forall_mem_cons.mp hg).2 hw he hrest)⟩

/-- A change of characters that keeps separators apart from others changes the words alone. -/
theorem map {f : Char → Char} (hf : ∀ c, isSeparator (f c) = isSeparator c) {cs : List Char}
    {ws : List (List Char)} (h : Cut isSeparator cs ws) :
    Cut isSeparator (cs.map f) (ws.map (List.map f)) := by
  have hgap : ∀ {gap : List Char}, (∀ c ∈ gap, isSeparator c = true) →
      ∀ c ∈ gap.map f, isSeparator c = true := by
    intro gap hg
    simpa [hf] using hg
  have hword : ∀ {w : List Char}, IsWord isSeparator w → IsWord isSeparator (w.map f) := by
    intro w hw
    exact ⟨by simpa using hw.1, by simpa [hf] using hw.2⟩
  induction h with
  | gap hg => exact .gap (hgap hg)
  | last hg hw =>
      rw [List.map_append]
      exact .last (hgap hg) (hword hw)
  | next hg hw hc hrest ih =>
      rw [List.map_append, List.map_append, List.map_cons]
      exact .next (hgap hg) (hword hw) ((hf _).trans hc) ih

end Cut

theorem exists_cut (isSeparator : Char → Bool) (cs : List Char) :
    ∃ ws, Cut isSeparator cs ws := by
  induction cs with
  | nil => exact ⟨[], .gap (by simp)⟩
  | cons c cs ih =>
      obtain ⟨ws, hws⟩ := ih
      cases hc : isSeparator c with
      | true => exact ⟨ws, hws.cons_separator hc⟩
      | false => exact hws.exists_cons hc

theorem fields_gap_append {gap : List Char} (hgap : ∀ c ∈ gap, isSeparator c = true)
    (cs : List Char) : fields isSeparator (gap ++ cs) = fields isSeparator cs := by
  induction gap with
  | nil => rfl
  | cons c gap ih =>
      obtain ⟨hc, hrest⟩ := List.forall_mem_cons.mp hgap
      have hcut := fields_append_cons hc [] (gap ++ cs)
      rw [fields_nil, ih hrest] at hcut
      exact hcut

theorem fields_gap {gap : List Char} (hgap : ∀ c ∈ gap, isSeparator c = true) :
    fields isSeparator gap = [] := by
  have h := fields_gap_append hgap []
  rwa [List.append_nil, fields_nil] at h

/-- At a gap the fields fall into those before it and those behind it, however long it is. -/
theorem fields_append_gap_append {gap : List Char} (hne : gap ≠ [])
    (hgap : ∀ c ∈ gap, isSeparator c = true) (before behind : List Char) :
    fields isSeparator (before ++ (gap ++ behind))
      = fields isSeparator before ++ fields isSeparator behind := by
  cases gap with
  | nil => exact absurd rfl hne
  | cons c gap =>
      obtain ⟨hc, hrest⟩ := List.forall_mem_cons.mp hgap
      rw [List.cons_append, fields_append_cons hc, fields_gap_append hrest]

/-- **A text is cut in one way only,** the way that reading cuts it. -/
theorem cut_iff {cs : List Char} {ws : List (List Char)} :
    Cut isSeparator cs ws ↔ ws = fields isSeparator cs := by
  have huniq : ∀ {ws : List (List Char)}, Cut isSeparator cs ws → ws = fields isSeparator cs := by
    intro ws h
    induction h with
    | gap hgap => exact (fields_gap hgap).symm
    | last hgap hw => rw [fields_gap_append hgap, fields_of_isWord hw]
    | next hgap hw hc hrest ih =>
        rw [fields_gap_append hgap, fields_append_cons hc, fields_of_isWord hw, ih]
        rfl
  constructor
  · exact huniq
  · intro h
    obtain ⟨vs, hvs⟩ := exists_cut isSeparator cs
    rw [h, ← huniq hvs]
    exact hvs

/-! ### The case of letters -/

theorem toNat_toLower (c : Char) :
    c.toLower.toNat = if 65 ≤ c.toNat ∧ c.toNat ≤ 90 then c.toNat + 32 else c.toNat := by
  have hshift : ('a'.val - 'A'.val).toNat = 32 := rfl
  have hfirst : 'A'.val.toNat = 65 := rfl
  have hlast : 'Z'.val.toNat = 90 := rfl
  have hcode : c.val.toNat = c.toNat := rfl
  unfold Char.toLower
  simp only [ge_iff_le, UInt32.le_iff_toNat_le, hfirst, hlast, hcode]
  by_cases hupper : 65 ≤ c.toNat ∧ c.toNat ≤ 90
  · rw [if_pos hupper, dif_pos hupper]
    simp only [Char.toNat, UInt32.toNat_add, hshift] at hupper ⊢
    omega
  · rw [if_neg hupper, dif_neg hupper]

theorem toLower_eq_or (c : Char) :
    c.toLower = c ∨ 65 ≤ c.toNat ∧ c.toNat ≤ 90 ∧ c.toLower.toNat = c.toNat + 32 := by
  have hnat := toNat_toLower c
  split at hnat
  · next hupper => exact Or.inr ⟨hupper.1, hupper.2, hnat⟩
  · exact Or.inl (Char.toNat_inj.mp hnat)

theorem toLower_toLower (c : Char) : c.toLower.toLower = c.toLower := by
  rcases toLower_eq_or c with h | ⟨hA, -, hnat⟩
  · rw [h, h]
  · rcases toLower_eq_or c.toLower with h | ⟨-, hZ, -⟩
    · exact h
    · omega

theorem lower_lower (cs : List Char) : lower (lower cs) = lower cs := by
  unfold lower
  rw [List.map_map]
  exact List.map_congr_left fun c _ => toLower_toLower c

/-- A letter is no blank, in either case. -/
theorem isBlank_toLower (c : Char) : isBlank c.toLower = isBlank c := by
  have hvisible : ∀ d : Char, 0x21 ≤ d.toNat → d.toNat ≤ 0x7E → isBlank d = false := by
    intro d hlow hhigh
    refine Bool.eq_false_iff.mpr fun hblank => ?_
    have hspace : d.toNat ∈ whiteSpace := isBlank_iff.mp hblank
    simp only [whiteSpace, List.mem_cons, List.not_mem_nil, or_false] at hspace
    omega
  rcases toLower_eq_or c with h | ⟨hA, hZ, hnat⟩
  · rw [h]
  · rw [hvisible c (by omega) (by omega), hvisible c.toLower (by omega) (by omega)]

/-- A name without blanks is known by its letters in lower case. -/
theorem nameKey_of_forall {w : List Char} (hw : ∀ x ∈ w, isBlank x = false) :
    nameKey (String.ofList w) = String.ofList (lower w) := by
  unfold nameKey
  rw [String.toList_ofList, trim_of_forall hw]

/-- A part of a lowered word needs no lowering any more. -/
theorem nameKey_of_lower_eq {w before part behind : List Char} (hw : ∀ x ∈ w, isBlank x = false)
    (h : lower w = before ++ (part ++ behind)) :
    nameKey (String.ofList part) = String.ofList part := by
  have hblank : ∀ x ∈ part, isBlank x = false := by
    intro x hx
    have hmem : x ∈ lower w := by
      rw [h]
      simp [hx]
    obtain ⟨y, hy, rfl⟩ := List.mem_map.mp hmem
    rw [isBlank_toLower]
    exact hw y hy
  have hsame : lower part = part := by
    have htwice := lower_lower w
    rw [h] at htwice
    unfold lower at htwice ⊢
    rw [List.map_append, List.map_append] at htwice
    exact (List.append_inj (List.append_inj htwice (by simp)).2 (by simp)).1
  rw [nameKey_of_forall hblank, hsame]

theorem after?_eq_some_iff {opening cs rest : List Char} :
    after? opening cs = some rest ↔ cs = opening ++ rest := by
  constructor
  · intro h
    unfold after? at h
    by_cases ho : opening.isPrefixOf cs = true
    · rw [if_pos ho, Option.some.injEq] at h
      obtain ⟨tail, rfl⟩ := List.isPrefixOf_iff_prefix.mp ho
      rw [← h, List.drop_left]
    · rw [if_neg ho] at h
      cases h
  · intro h
    rw [h]
    exact after?_append opening rest

end Text

end RobotMaze
