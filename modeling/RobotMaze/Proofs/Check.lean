/-
What a level answers about a program.

`check` counts the commands first.  If there are not too many it goes through them one by
one, and through the kinds that each requires, and stops at the first kind that is not on
the palette.  `Command.Lacks` says which kind that is for one command: its own, or the kind
of its body if its own is there.  So the place that is reported is the least one at which
something is lacking, and no other answer is possible.

That a program is accepted does not depend on the order of its commands: `Admits` is kept
when commands are left out or change places, and by a level that allows more.
-/
import Mathlib.Data.List.Perm.Subperm
import Mathlib.Order.Bounds.Basic
import RobotMaze.Proofs.Rules

namespace RobotMaze

/-! ### What one command lacks -/

/-- The first kind that a command needs and the palette does not offer. -/
inductive Command.Lacks (palette : Palette) : Command → Kind → Prop
  /-- The kind of the command itself. -/
  | own {c : Command} (h : palette.allows c.kind = false) : Lacks palette c c.kind
  /-- The kind of the body of a conditional, if conditionals as such are offered. -/
  | body {s : Sense} {a : Action} (hown : palette.allows .conditionalWall = true)
      (h : palette.allows a.kind = false) : Lacks palette (.ifWall s a) a.kind

namespace Command

variable {palette : Palette} {c : Command} {k : Kind}

theorem find?_required_eq_some_iff :
    (c.required.find? fun k => !palette.allows k) = some k ↔ c.Lacks palette k := by
  constructor
  · intro h
    cases c with
    | act a =>
        obtain ⟨hmissing, rfl⟩ : palette.allows a.kind = false ∧ a.kind = k := by
          simpa [required, List.find?_cons_eq_some] using h
        exact .own hmissing
    | ifWall s a =>
        cases hown : palette.allows .conditionalWall with
        | false =>
            obtain rfl : Kind.conditionalWall = k := by simpa [required, hown] using h
            exact .own hown
        | true =>
            obtain ⟨hmissing, rfl⟩ : palette.allows a.kind = false ∧ a.kind = k := by
              simpa [required, hown, List.find?_cons_eq_some] using h
            exact .body hown hmissing
  · intro h
    cases h with
    | own h => cases c <;> simp_all [required, kind]
    | body hown h => simp [required, hown, h]

theorem Lacks.eq {k' : Kind} (h : c.Lacks palette k) (h' : c.Lacks palette k') : k = k' :=
  Option.some.inj <|
    (find?_required_eq_some_iff.mpr h).symm.trans (find?_required_eq_some_iff.mpr h')

/-- A command lacks nothing if every kind that it requires is offered. -/
theorem not_exists_lacks_iff :
    (¬∃ k, c.Lacks palette k) ↔ ∀ k ∈ c.required, palette.allows k = true := by
  have hnone : (¬∃ k, c.Lacks palette k) ↔
      (c.required.find? fun k => !palette.allows k) = none := by
    rw [Option.eq_none_iff_forall_ne_some, not_exists]
    exact forall_congr' fun k => not_congr find?_required_eq_some_iff.symm
  rw [hnone, List.find?_eq_none]
  simp

/-- These kinds are its own and that of its action, the body of a conditional. -/
theorem forall_required_iff :
    (∀ k ∈ c.required, palette.allows k = true) ↔
      palette.allows c.kind = true ∧ palette.allows c.action.kind = true := by
  cases c <;> simp [required, kind, action]

end Command

namespace Level

variable {l : Level} {p : Program} {palette : Palette}

/-! ### The first command that lacks something -/

/-- The places of the commands that lack a kind. -/
def offences (palette : Palette) (p : Program) : Set Nat :=
  { i | ∃ c, p[i]? = some c ∧ ∃ k, c.Lacks palette k }

theorem isLeast_of_firstMissing {i : Nat} {k : Kind} (h : firstMissing palette p = some (i, k)) :
    IsLeast (offences palette p) i ∧ ∃ c, p[i]? = some c ∧ c.Lacks palette k := by
  obtain ⟨earlier, ⟨c, j⟩, later, hcut, hfound, hnone⟩ := List.findSome?_eq_some_iff.mp h
  obtain ⟨before, rest, rfl, rfl, hrest⟩ := List.zipIdx_eq_append_iff.mp hcut
  obtain ⟨d, behind, rfl, hd, -⟩ := List.zipIdx_eq_cons_iff.mp hrest.symm
  obtain ⟨rfl, rfl⟩ := Prod.mk.inj hd
  obtain ⟨k', hk', hpair⟩ := Option.map_eq_some_iff.mp hfound
  obtain ⟨rfl, rfl⟩ := Prod.mk.inj hpair
  have hlacks : c.Lacks palette k' := Command.find?_required_eq_some_iff.mp hk'
  have hhere : (before ++ c :: behind)[0 + before.length]? = some c := by simp
  refine ⟨⟨⟨c, hhere, k', hlacks⟩, ?_⟩, c, hhere, hlacks⟩
  rintro j ⟨d, hd, k, hk⟩
  refine Nat.le_of_not_lt fun hlt => ?_
  -- A command further to the left was gone through and nothing was found missing.
  rw [List.getElem?_append_left (by omega)] at hd
  have hmem : (d, j) ∈ before.zipIdx := List.mk_mem_zipIdx_iff_getElem?.mpr hd
  have hfind := Option.map_eq_none_iff.mp (hnone (d, j) hmem)
  rw [Command.find?_required_eq_some_iff.mpr hk] at hfind
  cases hfind

/-- **The first missing kind is found at the least place at which a command lacks one.** -/
theorem firstMissing_eq_some_iff {i : Nat} {k : Kind} :
    firstMissing palette p = some (i, k) ↔
      IsLeast (offences palette p) i ∧ ∃ c, p[i]? = some c ∧ c.Lacks palette k := by
  refine ⟨isLeast_of_firstMissing, ?_⟩
  rintro ⟨hleast, c, hc, hlacks⟩
  cases hfound : firstMissing palette p with
  | none =>
      have hall := firstMissing_eq_none_iff.mp hfound c (List.mem_of_getElem? hc)
      exact absurd ⟨k, hlacks⟩ (Command.not_exists_lacks_iff.mpr hall)
  | some found =>
      obtain ⟨hleast', c', hc', hlacks'⟩ := isLeast_of_firstMissing (k := found.2) hfound
      have hi : found.1 = i := hleast'.unique hleast
      rw [hi, hc, Option.some.injEq] at hc'
      rw [← hi, hlacks.eq (hc' ▸ hlacks')]

/-! ### The answers -/

theorem check_of_cap_lt (h : l.cap < p.length) :
    l.check p = .error (.tooLong p.length l.cap) :=
  if_pos h

theorem check_of_length_le (h : p.length ≤ l.cap) :
    l.check p = match firstMissing l.palette p with
      | some (index, kind) => .error (.unsupported index kind)
      | none => .ok () :=
  if_neg (Nat.not_lt_of_le h)

theorem check_eq_tooLong_iff {length cap : Nat} :
    l.check p = .error (.tooLong length cap) ↔
      l.cap < p.length ∧ length = p.length ∧ cap = l.cap := by
  rcases Nat.lt_or_ge l.cap p.length with hlong | hshort
  · simp [check_of_cap_lt hlong, hlong, eq_comm]
  · rw [check_of_length_le hshort]
    cases firstMissing l.palette p <;> simp [hshort]

theorem check_eq_unsupported_iff {index : Nat} {kind : Kind} :
    l.check p = .error (.unsupported index kind) ↔
      p.length ≤ l.cap ∧ firstMissing l.palette p = some (index, kind) := by
  rcases Nat.lt_or_ge l.cap p.length with hlong | hshort
  · simp [check_of_cap_lt hlong, hlong]
  · rw [check_of_length_le hshort]
    cases firstMissing l.palette p <;> simp [hshort, Prod.ext_iff]

/-- A program is refused for a kind exactly if it requires one that is not offered. -/
theorem exists_unsupported_iff :
    (∃ index kind, l.check p = .error (.unsupported index kind)) ↔
      p.length ≤ l.cap ∧ ∃ c ∈ p, ∃ k ∈ c.required, l.palette.allows k = false := by
  simp only [check_eq_unsupported_iff]
  constructor
  · rintro ⟨i, k, hlength, hmissing⟩
    refine ⟨hlength, ?_⟩
    by_contra hall
    rw [firstMissing_eq_none_iff.mpr (by simpa using hall)] at hmissing
    cases hmissing
  · rintro ⟨hlength, c, hc, k, hk, hno⟩
    cases hfound : firstMissing l.palette p with
    | none =>
        rw [firstMissing_eq_none_iff.mp hfound c hc k hk] at hno
        cases hno
    | some found => exact ⟨found.1, found.2, hlength, rfl⟩

theorem check_ne_unknownInstruction (text : String) :
    l.check p ≠ .error (.unknownInstruction text) := by
  intro h
  rcases Nat.lt_or_ge l.cap p.length with hlong | hshort
  · rw [check_of_cap_lt hlong] at h
    cases h
  · rw [check_of_length_le hshort] at h
    split at h <;> cases h

/-- A level that allows no less accepts what is left of a program, in whatever order. -/
theorem Admits.mono {l' : Level} {q : Program} (h : l.Admits p) (hq : q.Subperm p)
    (hpalette : ∀ k, l.palette.allows k = true → l'.palette.allows k = true)
    (hcap : l.cap ≤ l'.cap) : l'.Admits q where
  length_le := Nat.le_trans hq.length_le (Nat.le_trans h.length_le hcap)
  allows c hc k hk := hpalette k (h.allows c (hq.subset hc) k hk)

/--
**A level reports the first thing that is wrong with a program.**  A program that is too long
is refused for that, whatever its commands are.  Otherwise the report is about the first
command that requires a kind off the palette, and it names the kind of the command itself
before that of its body.  All other programs are accepted; and so is then whatever is left of
them when commands are dropped or change places, by any level that allows no less.
-/
theorem check_reports_first_violation (l : Level) (p : Program) :
    (∀ length cap, l.check p = .error (.tooLong length cap) ↔
      l.cap < p.length ∧ length = p.length ∧ cap = l.cap) ∧
    ((∃ index kind, l.check p = .error (.unsupported index kind)) ↔
      p.length ≤ l.cap ∧ ∃ c ∈ p, ∃ k ∈ c.required, l.palette.allows k = false) ∧
    (∀ index kind, l.check p = .error (.unsupported index kind) ↔
      p.length ≤ l.cap ∧ IsLeast (offences l.palette p) index ∧
        ∃ c, p[index]? = some c ∧ c.Lacks l.palette kind) ∧
    (l.check p = .ok () ↔
      p.length ≤ l.cap ∧
        ∀ c ∈ p, l.palette.allows c.kind = true ∧ l.palette.allows c.action.kind = true) ∧
    (∀ text, l.check p ≠ .error (.unknownInstruction text)) ∧
    (l.check p = .ok () → ∀ q : Program, q.Subperm p → ∀ l' : Level,
      (∀ k, l.palette.allows k = true → l'.palette.allows k = true) → l.cap ≤ l'.cap →
        l'.check q = .ok ()) := by
  refine ⟨fun length cap => check_eq_tooLong_iff, exists_unsupported_iff, ?_, ?_,
    fun text => check_ne_unknownInstruction text, ?_⟩
  · intro index kind
    rw [check_eq_unsupported_iff, firstMissing_eq_some_iff]
  · rw [check_eq_ok_iff]
    constructor
    · intro h
      exact ⟨h.length_le, fun c hc => Command.forall_required_iff.mp (h.allows c hc)⟩
    · rintro ⟨hlength, hallows⟩
      exact ⟨hlength, fun c hc => Command.forall_required_iff.mpr (hallows c hc)⟩
  · intro h q hq l' hpalette hcap
    exact check_eq_ok_iff.mpr ((check_eq_ok_iff.mp h).mono hq hpalette hcap)

/-- A level without turns, which refuses one as the body of a conditional. -/
theorem check_reports_first_violation_nook :
    let l := { nook with palette := Palette.ofKinds [.moveForward, .conditionalWall], cap := 3 }
    let p : Program := [.act .forward, .act .forward, .ifWall .ahead .forward]
    let q : Program := [.ifWall .ahead .forward, .act .forward]
    let turning : Program := [.act .forward, .ifWall .ahead .left, .act .right]
    (l.check p = .ok () ∧ q.Subperm p ∧ nook.check q = .ok ()) ∧
      l.check turning = .error (.unsupported 1 .turnLeft) ∧
        IsLeast (offences l.palette turning) 1 := by
  intro l p q turning
  have hp : l.check p = .ok () := rfl
  have hq : q.Subperm p := by decide
  have hturning : l.check turning = .error (.unsupported 1 .turnLeft) := rfl
  have hpalette : ∀ k, l.palette.allows k = true → nook.palette.allows k = true := by
    intro k _
    cases k <;> rfl
  obtain ⟨-, -, -, -, -, hinherited⟩ := check_reports_first_violation l p
  obtain ⟨-, -, hreport, -, -, -⟩ := check_reports_first_violation l turning
  exact ⟨⟨hp, hq, hinherited hp q hq nook hpalette (by decide)⟩, hturning,
    ((hreport 1 .turnLeft).mp hturning).2.1⟩

end Level

end RobotMaze
