/-
Which level a selector chooses.

A selector is the number of a level if it is a numeral of up to 64 bits, and a name otherwise.
What a numeral is and which number it stands for is said digit by digit (`Text.Digits`), so
leading zeros and a plus sign are part of it, and a numeral that is too large is a name like
any other.

Among the levels with a name the first one counts, and the case of letters does not.
`Text.Recased` says so letter by letter.  It holds both ways and carries on from one text to
the next, and that is what a search by the name of a level itself comes down to.  Recasing
leaves digits and signs as they are.  So a name that is no numeral does not become one
(`Recased.eq_of_numeral`), and the search for it is not taken for a number.
-/
import Mathlib.Data.List.Forall2
import Mathlib.Data.List.Induction
import RobotMaze.Proofs.Cut
import RobotMaze.Proofs.Run
import RobotMaze.Proofs.Wording
import RobotMaze.Selection

namespace RobotMaze

namespace Text

/-! ### Numerals -/

/-- Decimal digits, with leading zeros or not, and the number they stand for. -/
inductive Digits : List Char → Nat → Prop
  | digit {d : Nat} (hd : d < 10) : Digits [Nat.digitChar d] d
  | append {cs : List Char} {n d : Nat} (h : Digits cs n) (hd : d < 10) :
      Digits (cs ++ [Nat.digitChar d]) (10 * n + d)

/-- A numeral, which may have a plus sign, and the number it stands for. -/
inductive Numeral (s : String) (n : Nat) : Prop
  | unsigned (h : Digits s.toList n)
  | signed {cs : List Char} (hs : s.toList = '+' :: cs) (h : Digits cs n)

variable {c : Char} {cs : List Char} {n : Nat}

theorem exists_digitChar_of_isDigit (h : c.isDigit = true) : ∃ d, d < 10 ∧ c = Nat.digitChar d := by
  obtain ⟨hzero, hnine⟩ := Char.isDigit_iff_toNat.mp h
  have hfirst : '0'.toNat = 48 := rfl
  have hlast : '9'.toNat = 57 := rfl
  have hd : c.toNat - 48 < 10 := by omega
  refine ⟨c.toNat - 48, hd, Char.toNat_inj.mp ?_⟩
  rw [Nat.toNat_digitChar_of_lt_ten hd]
  omega

theorem ofDigitChars_concat {d : Nat} (hd : d < 10) (cs : List Char) :
    Nat.ofDigitChars 10 (cs ++ [Nat.digitChar d]) 0 = 10 * Nat.ofDigitChars 10 cs 0 + d := by
  have hfirst : '0'.toNat = 48 := rfl
  rw [Nat.ofDigitChars_append, Nat.ofDigitChars_cons, Nat.ofDigitChars_nil,
    Nat.toNat_digitChar_of_lt_ten hd, hfirst]
  omega

theorem Digits.ne_nil (h : Digits cs n) : cs ≠ [] := by
  cases h <;> simp

theorem Digits.forall_isDigit (h : Digits cs n) : ∀ c ∈ cs, c.isDigit = true := by
  induction h with
  | digit hd => simpa [Nat.isDigit_digitChar] using hd
  | append h hd ih =>
      refine List.forall_mem_append.mpr ⟨ih, ?_⟩
      simpa [Nat.isDigit_digitChar] using hd

theorem Digits.ofDigitChars_eq (h : Digits cs n) : Nat.ofDigitChars 10 cs 0 = n := by
  induction h with
  | digit hd => simpa using ofDigitChars_concat hd []
  | append h hd ih => rw [ofDigitChars_concat hd, ih]

/-- A run of digits stands for some number. -/
theorem digits_of_forall_isDigit (hne : cs ≠ []) (h : ∀ c ∈ cs, c.isDigit = true) :
    Digits cs (Nat.ofDigitChars 10 cs 0) := by
  induction cs using List.reverseRecOn with
  | nil => exact absurd rfl hne
  | append_singleton cs c ih =>
      obtain ⟨hcs, hc⟩ := List.forall_mem_append.mp h
      obtain ⟨d, hd, rfl⟩ := exists_digitChar_of_isDigit (hc c (List.mem_singleton_self c))
      rw [ofDigitChars_concat hd]
      by_cases hnil : cs = []
      · subst hnil
        simpa using Digits.digit hd
      · exact .append (ih hnil hcs) hd

theorem readNat?_eq_some_iff : readNat? cs = some n ↔ Digits cs n := by
  unfold readNat?
  constructor
  · intro h
    obtain ⟨hcond, heq⟩ := Option.ite_none_right_eq_some.mp h
    simp only [Bool.and_eq_true, Bool.not_eq_true', List.isEmpty_eq_false_iff,
      List.all_eq_true] at hcond
    rw [← Option.some.inj heq]
    exact digits_of_forall_isDigit hcond.1 hcond.2
  · intro h
    have hcond : (!cs.isEmpty && cs.all Char.isDigit) = true := by
      simpa [h.ne_nil] using h.forall_isDigit
    rw [if_pos hcond, h.ofDigitChars_eq]

theorem Digits.head?_ne (h : Digits cs n) : cs.head? ≠ some '+' := by
  intro hsign
  have hdigit := h.forall_isDigit _ (List.mem_of_head? hsign)
  exact absurd hdigit (by decide)

variable {s : String}

/-- A sign is no digit, so a text with a plus sign is a numeral in one way only. -/
theorem numeral_of_plus (hs : s.toList = '+' :: cs) : Numeral s n ↔ Digits cs n := by
  refine ⟨fun h => ?_, .signed hs⟩
  cases h with
  | unsigned h =>
      rw [hs] at h
      exact absurd rfl h.head?_ne
  | signed hs' h =>
      obtain ⟨-, rfl⟩ := List.cons.inj (hs.symm.trans hs')
      exact h

theorem numeral_of_not_plus (hs : ∀ cs, s.toList ≠ '+' :: cs) :
    Numeral s n ↔ Digits s.toList n := by
  refine ⟨fun h => ?_, .unsigned⟩
  cases h with
  | unsigned h => exact h
  | signed hs' h => exact absurd hs' (hs _)

/-- A numeral of up to 64 bits, which is what the number of a level is given by. -/
structure IsIndex (s : String) (n : Nat) : Prop where
  numeral : Numeral s n
  fits : n < 0x10000000000000000

theorem readIndex?_eq_some_iff : readIndex? s = some n ↔ IsIndex s n := by
  have hlimit : ∀ cs, ((readNat? cs).bind fun n =>
      if n < 0x10000000000000000 then some n else none) = some n ↔
        Digits cs n ∧ n < 0x10000000000000000 := by
    intro cs
    simp only [Option.bind_eq_some_iff, readNat?_eq_some_iff, Option.ite_none_right_eq_some,
      Option.some.injEq]
    constructor
    · rintro ⟨m, hm, hlt, rfl⟩
      exact ⟨hm, hlt⟩
    · rintro ⟨hn, hlt⟩
      exact ⟨n, hn, hlt, rfl⟩
  have hindex : IsIndex s n ↔ Numeral s n ∧ n < 0x10000000000000000 :=
    ⟨fun h => ⟨h.numeral, h.fits⟩, fun h => ⟨h.1, h.2⟩⟩
  unfold readIndex?
  rw [hindex]
  split
  · next cs hs => rw [hlimit, numeral_of_plus hs]
  · next hs => rw [hlimit, numeral_of_not_plus hs]

theorem readIndex?_eq_none_iff : readIndex? s = none ↔ ∀ n, ¬IsIndex s n := by
  simp only [Option.eq_none_iff_forall_ne_some, ne_eq, readIndex?_eq_some_iff]

/-! ### The case of letters -/

/-- One is a capital letter of ASCII and the other the same letter in lower case. -/
def IsCapitalOf (a b : Char) : Prop :=
  65 ≤ a.toNat ∧ a.toNat ≤ 90 ∧ b.toNat = a.toNat + 32

/-- The same character, but for the case of a letter of ASCII. -/
inductive SameLetter (a b : Char) : Prop
  | same (h : a = b)
  | lowered (h : IsCapitalOf a b)
  | raised (h : IsCapitalOf b a)

/-- Two texts that are the same letter by letter, but for the case of the letters. -/
def Recased (s t : String) : Prop :=
  List.Forall₂ SameLetter s.toList t.toList

theorem toLower_eq_toLower_iff {a b : Char} : a.toLower = b.toLower ↔ SameLetter a b := by
  rw [← Char.toNat_inj, toNat_toLower, toNat_toLower]
  constructor
  · intro h
    split at h
    · next ha =>
      split at h
      · exact .same (Char.toNat_inj.mp (by omega))
      · exact .lowered ⟨ha.1, ha.2, h.symm⟩
    · split at h
      · next hb => exact .raised ⟨hb.1, hb.2, h⟩
      · exact .same (Char.toNat_inj.mp h)
  · intro h
    cases h with
    | same h => rw [h]
    | lowered h =>
        obtain ⟨hA, hZ, hb⟩ := h
        rw [if_pos ⟨hA, hZ⟩, if_neg (by omega), hb]
    | raised h =>
        obtain ⟨hA, hZ, ha⟩ := h
        rw [if_neg (by omega), if_pos ⟨hA, hZ⟩, ha]

variable {t u : String}

theorem lower_eq_lower_iff : lower s.toList = lower t.toList ↔ Recased s t := by
  unfold lower Recased
  rw [← List.forall₂_eq_eq_eq, List.forall₂_map_left_iff, List.forall₂_map_right_iff]
  simp only [toLower_eq_toLower_iff]

theorem sameLetters_iff : sameLetters s t = true ↔ Recased s t := by
  unfold sameLetters
  rw [beq_iff_eq, lower_eq_lower_iff]

namespace Recased

theorem symm (h : Recased s t) : Recased t s :=
  lower_eq_lower_iff.mp (lower_eq_lower_iff.mpr h).symm

theorem trans (h : Recased s t) (h' : Recased t u) : Recased s u :=
  lower_eq_lower_iff.mp ((lower_eq_lower_iff.mpr h).trans (lower_eq_lower_iff.mpr h'))

end Recased

/-- Only letters have a case. -/
theorem SameLetter.eq_of_isDigit {a b : Char} (h : SameLetter a b)
    (hb : b.isDigit = true ∨ b = '+') : a = b := by
  have hnine : b.toNat ≤ 57 := by
    rcases hb with hb | rfl
    · exact (Char.isDigit_iff_toNat.mp hb).2
    · decide
  cases h with
  | same h => exact h
  | lowered h =>
      obtain ⟨hA, -, hnat⟩ := h
      omega
  | raised h =>
      obtain ⟨hA, -, -⟩ := h
      omega

theorem eq_of_forall_isDigit {ss ts : List Char} (h : List.Forall₂ SameLetter ss ts) :
    (∀ c ∈ ts, c.isDigit = true ∨ c = '+') → ss = ts := by
  induction h with
  | nil => exact fun _ => rfl
  | cons hc _ ih =>
      intro hts
      obtain ⟨hd, hts⟩ := List.forall_mem_cons.mp hts
      rw [hc.eq_of_isDigit hd, ih hts]

/-- A text that recasing makes a numeral is this numeral. -/
theorem Recased.eq_of_numeral (h : Recased s t) (ht : Numeral t n) : s = t := by
  have hchars : ∀ c ∈ t.toList, c.isDigit = true ∨ c = '+' := by
    intro c hc
    cases ht with
    | unsigned ht => exact Or.inl (ht.forall_isDigit c hc)
    | signed hs ht =>
        rw [hs, List.mem_cons] at hc
        exact hc.symm.imp_left (ht.forall_isDigit c)
  exact String.toList_inj.mp (eq_of_forall_isDigit h hchars)

/-! ### Numerals that are written -/

theorem digits_natChars (n : Nat) : Digits (natChars n) n :=
  readNat?_eq_some_iff.mp (readNat?_natChars n)

/-- Leading zeros count for nothing. -/
theorem Digits.replicate_append (h : Digits cs n) (zeros : Nat) :
    Digits (List.replicate zeros '0' ++ cs) n := by
  have hzeros : ∀ k, Nat.ofDigitChars 10 (List.replicate k '0') 0 = 0 := by
    intro k
    induction k with
    | zero => rfl
    | succ k ih => exact ih
  have hall : ∀ c ∈ List.replicate zeros '0' ++ cs, c.isDigit = true := by
    refine List.forall_mem_append.mpr ⟨fun c hc => ?_, h.forall_isDigit⟩
    rw [List.eq_of_mem_replicate hc]
    rfl
  have hdigits := digits_of_forall_isDigit (List.append_ne_nil_of_right_ne_nil _ h.ne_nil) hall
  rwa [Nat.ofDigitChars_append, hzeros, h.ofDigitChars_eq] at hdigits

/-- The numeral of a number, behind some leading zeros. -/
def padded (zeros n : Nat) : String :=
  String.ofList (List.replicate zeros '0') ++ ofNat n

theorem toList_padded (zeros n : Nat) :
    (padded zeros n).toList = List.replicate zeros '0' ++ natChars n := by
  simp [padded, ofNat]

theorem isIndex_padded (h : n < 0x10000000000000000) (zeros : Nat) :
    IsIndex (padded zeros n) n := by
  refine ⟨.unsigned ?_, h⟩
  rw [toList_padded]
  exact (digits_natChars n).replicate_append zeros

theorem isIndex_plus_padded (h : n < 0x10000000000000000) (zeros : Nat) :
    IsIndex ("+" ++ padded zeros n) n := by
  have hs : ("+" ++ padded zeros n).toList = '+' :: (List.replicate zeros '0' ++ natChars n) := by
    rw [String.toList_append, toList_padded]
    rfl
  exact ⟨.signed hs ((digits_natChars n).replicate_append zeros), h⟩

end Text

namespace Catalog

open Text

/-! ### The level that is chosen -/

/-- The first level of a catalog with this name, but for the case of letters, and its number. -/
structure FirstNamed (c : Catalog) (name : String) (i : Nat) (l : Level) : Prop where
  level : c.levels[i]? = some l
  named : Recased l.name name
  first : ∀ j < i, ∀ l', c.levels[j]? = some l' → ¬Recased l'.name name

variable {c : Catalog} {selector : String} {i v : Nat} {l : Level}

theorem find?_eq_some_iff : c.find? selector = some (i, l) ↔ c.FirstNamed selector i l := by
  unfold find?
  simp only [Option.map_eq_some_iff, List.find?_eq_some_iff_getElem, sameLetters_iff]
  constructor
  · rintro ⟨⟨l', i'⟩, ⟨hnamed, k, hk, hat, hbefore⟩, hpair⟩
    obtain ⟨rfl, rfl⟩ := Prod.mk.inj hpair
    rw [List.getElem_zipIdx, Nat.zero_add] at hat
    obtain ⟨rfl, rfl⟩ := Prod.mk.inj hat
    refine ⟨List.getElem?_eq_getElem _, hnamed, fun j hj l' hl' hrecased => ?_⟩
    obtain ⟨hlen, rfl⟩ := List.getElem?_eq_some_iff.mp hl'
    simpa [sameLetters_iff.mpr hrecased] using hbefore j hj
  · rintro ⟨hlevel, hnamed, hfirst⟩
    obtain ⟨hi, rfl⟩ := List.getElem?_eq_some_iff.mp hlevel
    refine ⟨(c.levels[i], i), ⟨hnamed, i, by simpa using hi, by simp, fun j hj => ?_⟩, rfl⟩
    have hother := hfirst j hj c.levels[j] (List.getElem?_eq_getElem _)
    rw [← sameLetters_iff] at hother
    simpa using hother

theorem find?_eq_none_iff :
    c.find? selector = none ↔ ∀ l ∈ c.levels, ¬Recased l.name selector := by
  unfold find?
  simp only [Option.map_eq_none_iff, List.find?_eq_none, sameLetters_iff, Prod.forall,
    List.mem_zipIdx_iff_getElem?]
  constructor
  · intro h l hl
    obtain ⟨i, hi⟩ := List.mem_iff_getElem?.mp hl
    exact h l i hi
  · exact fun h l i hi => h l (List.mem_of_getElem? hi)

theorem select_of_lt (hv : IsIndex selector v) (hlt : v < c.levels.length) :
    c.select selector = .ok c.levels[v] := by
  have hget : c.get? v = some c.levels[v] := List.getElem?_eq_getElem hlt
  simp only [select, readIndex?_eq_some_iff.mpr hv, hget]

theorem select_of_le (hv : IsIndex selector v) (hle : c.levels.length ≤ v) :
    c.select selector = .error (.noSuchIndex v c.levels.length) := by
  have hget : c.get? v = none := List.getElem?_eq_none hle
  simp only [select, readIndex?_eq_some_iff.mpr hv, hget]

/-- A selector that is no number chooses the first level of that name. -/
theorem select_eq_ok_iff (hname : ∀ v, ¬IsIndex selector v) :
    c.select selector = .ok l ↔ ∃ i, c.FirstNamed selector i l := by
  simp only [select, readIndex?_eq_none_iff.mpr hname, ← find?_eq_some_iff]
  cases c.find? selector with
  | none => simp
  | some found => simp [Prod.ext_iff]

/-- A selector that is no number chooses nothing if no level has that name. -/
theorem select_eq_error_iff (hname : ∀ v, ¬IsIndex selector v) (e : SelectionError) :
    c.select selector = .error e ↔
      (∀ l ∈ c.levels, ¬Recased l.name selector) ∧ e = .noSuchName selector := by
  simp only [select, readIndex?_eq_none_iff.mpr hname, ← find?_eq_none_iff]
  cases c.find? selector with
  | none => simp [eq_comm]
  | some found => simp

/-- A selector chooses a level of the catalog, or there is none of that number or name. -/
theorem select_cases (c : Catalog) (selector : String) :
    (∃ l ∈ c.levels, c.select selector = .ok l) ∨
      (∃ v, c.select selector = .error (.noSuchIndex v c.levels.length)) ∨
      c.select selector = .error (.noSuchName selector) := by
  by_cases hnumber : ∃ v, IsIndex selector v
  · obtain ⟨v, hv⟩ := hnumber
    rcases Nat.lt_or_ge v c.levels.length with hlt | hle
    · exact Or.inl ⟨_, List.getElem_mem hlt, select_of_lt hv hlt⟩
    · exact Or.inr (Or.inl ⟨v, select_of_le hv hle⟩)
  · have hname : ∀ v, ¬IsIndex selector v := not_exists.mp hnumber
    cases hselect : c.select selector with
    | ok l =>
        obtain ⟨i, hfirst⟩ := (select_eq_ok_iff hname).mp hselect
        exact Or.inl ⟨l, List.mem_of_getElem? hfirst.level, rfl⟩
    | error e =>
        obtain ⟨-, rfl⟩ := (select_eq_error_iff hname e).mp hselect
        exact Or.inr (Or.inr rfl)

/-- Any recasing of a name chooses the level, unless the name is a numeral or an earlier
level has it too. -/
theorem select_recased (hlevel : c.levels[i]? = some l) (hname : ∀ v, ¬IsIndex l.name v)
    (hfirst : ∀ j < i, ∀ l', c.levels[j]? = some l' → ¬Recased l'.name l.name)
    (hrecased : Recased l.name selector) : c.select selector = .ok l := by
  have hselector : ∀ v, ¬IsIndex selector v := by
    intro v hv
    refine hname v ?_
    rwa [hrecased.eq_of_numeral hv.numeral]
  refine (select_eq_ok_iff hselector).mpr ⟨i, hlevel, hrecased, fun j hj l' hl' hsame => ?_⟩
  exact hfirst j hj l' hl' (hsame.trans hrecased.symm)

/-- Which level a selector chooses.  A catalog cannot have more levels than there are numbers
of 64 bits, so each of them is chosen by its number. -/
theorem select_by_number_or_name (c : Catalog) :
    (∀ selector v, IsIndex selector v →
      (∀ hv : v < c.levels.length, c.select selector = .ok c.levels[v]) ∧
      (c.levels.length ≤ v → c.select selector = .error (.noSuchIndex v c.levels.length))) ∧
    (∀ selector, (∀ v, ¬IsIndex selector v) →
      (∀ l, c.select selector = .ok l ↔ ∃ i, c.FirstNamed selector i l) ∧
      (∀ e, c.select selector = .error e ↔
        (∀ l ∈ c.levels, ¬Recased l.name selector) ∧ e = .noSuchName selector)) ∧
    (∀ v n selector,
      (SelectionError.noSuchIndex v n).chain =
        ["level " ++ ofNat v ++ " does not exist (" ++ ofNat n ++ " levels)"] ∧
      (SelectionError.noSuchName selector).chain = ["no level named " ++ quoted selector] ∧
      (∀ other, quoted other = quoted selector → other = selector)) ∧
    (∀ i (hi : i < c.levels.length), i < 0x10000000000000000 → ∀ zeros,
      c.select (padded zeros i) = .ok c.levels[i] ∧
      c.select ("+" ++ padded zeros i) = .ok c.levels[i]) ∧
    (∀ (i : Nat) (l : Level), c.levels[i]? = some l → (∀ v, ¬IsIndex l.name v) →
      (∀ j < i, ∀ l', c.levels[j]? = some l' → ¬Recased l'.name l.name) →
      ∀ name, Recased l.name name → c.select name = .ok l) := by
  refine ⟨fun selector v hv => ⟨select_of_lt hv, select_of_le hv⟩,
    fun selector hname => ⟨fun l => select_eq_ok_iff hname, select_eq_error_iff hname⟩,
    fun v n selector => ⟨rfl, rfl, fun other hsame => quoted_injective hsame⟩,
    fun i hi hlimit zeros => ⟨?_, ?_⟩,
    fun i l hlevel hname hfirst name => select_recased hlevel hname hfirst⟩
  · exact select_of_lt (isIndex_padded hlimit zeros) hi
  · exact select_of_lt (isIndex_plus_padded hlimit zeros) hi

/-- Names that look like numbers: one is a number and chooses by position, the other is too
large for that and remains a name. -/
theorem select_by_number_or_name_nook :
    let named := fun name => { Level.nook with name }
    let large := "18446744073709551616"
    let c : Catalog := { levels := [Level.nook, named "0", named "NOOK", named large] }
    IsIndex "0" 0 ∧ c.select "0" = .ok Level.nook ∧ c.select "+01" = .ok (named "0") ∧
    IsIndex "4" 4 ∧ c.select "4" = .error (.noSuchIndex 4 4) ∧
    (SelectionError.noSuchIndex 4 4).chain = ["level 4 does not exist (4 levels)"] ∧
    (∀ v, ¬IsIndex large v) ∧ c.FirstNamed large 3 (named large) ∧
    c.select large = .ok (named large) ∧
    (∀ v, ¬IsIndex "" v) ∧ c.select "" = .error (.noSuchName "") ∧
    Recased "nook" "nOOK" ∧ c.select "nOOK" = .ok Level.nook := by
  intro named large c
  obtain ⟨hnumber, hname, hmessage, hnumeral, hrecased⟩ := select_by_number_or_name c
  have hzero : IsIndex "0" 0 := readIndex?_eq_some_iff.mp (by decide +kernel)
  have hfour : IsIndex "4" 4 := readIndex?_eq_some_iff.mp (by decide +kernel)
  have hlarge : ∀ v, ¬IsIndex large v := readIndex?_eq_none_iff.mp (by decide +kernel)
  have hempty : ∀ v, ¬IsIndex "" v := readIndex?_eq_none_iff.mp (by decide +kernel)
  have hnook : ∀ v, ¬IsIndex "nook" v := readIndex?_eq_none_iff.mp (by decide +kernel)
  have hfirst : c.FirstNamed large 3 (named large) := find?_eq_some_iff.mp (by decide +kernel)
  have hnone : ∀ l ∈ c.levels, ¬Recased l.name "" := find?_eq_none_iff.mp (by decide +kernel)
  have hraised : Recased "nook" "nOOK" := sameLetters_iff.mp (by decide +kernel)
  exact ⟨hzero, (hnumber "0" 0 hzero).1 (by decide), (hnumeral 1 (by decide) (by decide) 1).2,
    hfour, (hnumber "4" 4 hfour).2 (by decide), (hmessage 4 4 "").1,
    hlarge, hfirst, ((hname large hlarge).1 _).mpr ⟨3, hfirst⟩,
    hempty, ((hname "" hempty).2 _).mpr ⟨hnone, rfl⟩,
    hraised, hrecased 0 Level.nook rfl hnook (by simp) "nOOK" hraised⟩

end Catalog

end RobotMaze
