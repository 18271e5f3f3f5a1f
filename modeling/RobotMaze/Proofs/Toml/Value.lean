/-
A value is read back from where it is written.

A number, a truth value or a text is read back whatever follows it, as long as it can be
seen to end there (`Ends`); lists follow by induction on how deep they nest, since their
items are again values that a comma or a bracket follows.
-/
import RobotMaze.Proofs.Toml.Quotation
import RobotMaze.Toml.Statement

namespace RobotMaze.Toml

/-- What may follow a value: the end of its line, or a comma or bracket of the list that it
is in. -/
def Ends (rest : List Char) : Prop :=
  ∃ c more, rest = c :: more ∧ c ∈ ['\n', ',', ']']

theorem Ends.head?_ne {rest : List Char} (h : Ends rest) {c : Char}
    (hc : c ∉ ['\n', ',', ']']) : rest.head? ≠ some c := by
  obtain ⟨c', more, rfl, hmem⟩ := h
  rintro heq
  exact hc (Option.some.inj heq ▸ hmem)

/-! ### Words -/

theorem wordAhead_append {word rest : List Char} (hword : word.all isWordChar = true)
    (hrest : Ends rest) : wordAhead (word ++ rest) = word := by
  have hrun : (word ++ rest).takeWhile isWordChar = word := by
    obtain ⟨c, more, rfl, hc⟩ := hrest
    have hstop : ¬isWordChar c = true := by
      simp only [List.mem_cons, List.not_mem_nil, or_false] at hc
      rcases hc with rfl | rfl | rfl <;> decide
    rw [List.takeWhile_append_of_pos (List.all_eq_true.mp hword),
      List.takeWhile_cons_of_neg hstop, List.append_nil]
  unfold wordAhead
  simp only [hrun, List.drop_left]
  split
  · exact absurd rfl (hrest.head?_ne (by decide))
  · rfl

theorem scalar?_append {word rest : List Char} {d : Datum} (hne : word ≠ [])
    (hword : word.all isWordChar = true) (hread : word? word = some d) (hrest : Ends rest) :
    scalar? (word ++ rest) = some (d, rest) := by
  unfold scalar?
  simp only [wordAhead_append hword hrest, hread, List.drop_left, Option.map_some]
  rw [if_neg (by simpa using hne)]

/-! ### Numbers -/

theorem isDigit_of_mem_natChars {n : Nat} {c : Char} (h : c ∈ Text.natChars n) :
    c.isDigit = true :=
  Nat.isDigit_of_mem_toDigits (by decide) (by decide) h

/-- Only the numeral of zero begins with a zero. -/
theorem head?_natChars_ne {n : Nat} (h : 0 < n) : (Text.natChars n).head? ≠ some '0' := by
  unfold Text.natChars
  induction n using Nat.strongRecOn with
  | ind n ih =>
      by_cases hsmall : n < 10
      · rw [Nat.toDigits_of_lt_base hsmall]
        have hdigit : ∀ n < 10, 0 < n → [n.digitChar].head? ≠ some '0' := by decide
        exact hdigit n hsmall h
      · have hfront := ih (n / 10) (by omega) (by omega)
        rw [Nat.toDigits_of_base_le (by decide) (Nat.le_of_not_lt hsmall)]
        have hne : Nat.toDigits 10 (n / 10) ≠ [] := Nat.toDigits_ne_nil
        obtain ⟨c, more, heq⟩ := List.exists_cons_of_ne_nil hne
        rw [heq] at hfront ⊢
        exact hfront

theorem decimalDigits?_natChars (n : Nat) :
    decimalDigits? (Text.natChars n) = some (Text.natChars n) := by
  have hgroup : ungroup? Char.isDigit (Text.natChars n) = some (Text.natChars n) := by
    have hone : (Text.natChars n).splitOnP (· == '_') = [Text.natChars n] := by
      refine List.splitOnP_eq_singleton fun c hc => ?_
      have hdigit := isDigit_of_mem_natChars hc
      rw [beq_eq_false_iff_ne]
      rintro rfl
      exact absurd hdigit (by decide)
    have hne : (Text.natChars n).isEmpty = false := by
      rw [List.isEmpty_eq_false_iff]
      exact Nat.toDigits_ne_nil
    have hall : (Text.natChars n).all Char.isDigit = true :=
      List.all_eq_true.mpr fun c hc => isDigit_of_mem_natChars hc
    simp [ungroup?, hone, hne, hall]
  unfold decimalDigits?
  rw [hgroup]
  split
  · next heq => rw [heq]
  · next hnot heq =>
    have heq := Option.some.inj heq
    rcases Nat.eq_zero_or_pos n with rfl | hpos
    · exact (hnot (List.cons.inj heq).2.symm).elim
    · exact absurd (by rw [heq]; rfl) (head?_natChars_ne hpos)
  · rfl

theorem mem_intChars {i : Int} {c : Char} (h : c ∈ Text.intChars i) :
    c = '-' ∨ c.isDigit = true := by
  unfold Text.intChars at h
  split at h
  · rcases List.mem_cons.mp h with rfl | h
    · exact Or.inl rfl
    · exact Or.inr (isDigit_of_mem_natChars h)
  · exact Or.inr (isDigit_of_mem_natChars h)

theorem not_mem_intChars {i : Int} {c : Char} (hsign : c ≠ '-') (hdigit : c.isDigit = false) :
    c ∉ Text.intChars i := by
  intro hmem
  rcases mem_intChars hmem with heq | hdigit'
  · exact hsign heq
  · exact Bool.false_ne_true (hdigit.symm.trans hdigit')

theorem intChars_ne_nil (i : Int) : Text.intChars i ≠ [] := by
  unfold Text.intChars
  split
  · exact List.cons_ne_nil _ _
  · exact Nat.toDigits_ne_nil

theorem isWordChar_of_mem_intChars {i : Int} {c : Char} (h : c ∈ Text.intChars i) :
    isWordChar c = true := by
  rcases mem_intChars h with rfl | hdigit
  · rfl
  · simp [isWordChar, isKeyChar, Char.isAlphanum, hdigit]

/-- The sign is taken off, if there is one. -/
theorem unsigned_intChars (i : Int) :
    unsigned (Text.intChars i) = (decide (i < 0), Text.natChars i.natAbs) := by
  unfold Text.intChars
  split
  · next hneg =>
    rw [decide_eq_true hneg]
    rfl
  · next hnonneg =>
    have hdigit : ∀ {c : Char} {cs : List Char}, Text.natChars i.natAbs = c :: cs →
        c.isDigit = true :=
      fun heq => isDigit_of_mem_natChars (heq ▸ List.mem_cons_self)
    rw [decide_eq_false hnonneg]
    unfold unsigned
    split
    · next heq => exact absurd (hdigit heq) (by decide)
    · next heq => exact absurd (hdigit heq) (by decide)
    · rfl

theorem integer?_intChars {i : Int} (h : -0x8000000000000000 ≤ i ∧ i < 0x8000000000000000) :
    integer? (Text.intChars i) = some i := by
  unfold integer?
  split
  · next heq => exact absurd (by simp [heq]) (not_mem_intChars (i := i) (c := 'x') (by decide) rfl)
  · next heq => exact absurd (by simp [heq]) (not_mem_intChars (i := i) (c := 'o') (by decide) rfl)
  · next heq => exact absurd (by simp [heq]) (not_mem_intChars (i := i) (c := 'b') (by decide) rfl)
  · have hdigits : Nat.ofDigitChars 10 (Text.natChars i.natAbs) 0 = i.natAbs :=
      Nat.ofDigitChars_ten_toDigits
    simp only [unsigned_intChars, decimalDigits?_natChars, Option.bind_some, decide_eq_true_eq,
      hdigits]
    have hsign : (if i < 0 then -(i.natAbs : Int) else i.natAbs) = i := by
      split <;> omega
    rw [hsign]
    exact if_pos h

theorem word?_intChars {i : Int} (h : -0x8000000000000000 ≤ i ∧ i < 0x8000000000000000) :
    word? (Text.intChars i) = some (.int i) := by
  have hname : ∀ (name : List Char) (c : Char), c ∈ name → c ≠ '-' → c.isDigit = false →
      (Text.intChars i == name) = false := by
    intro name c hc hsign hdigit
    rw [beq_eq_false_iff_ne]
    rintro rfl
    exact not_mem_intChars hsign hdigit hc
  have htrue := hname "true".toList 't' (by decide) (by decide) rfl
  have hfalse := hname "false".toList 'f' (by decide) (by decide) rfl
  unfold word?
  rw [htrue, hfalse, integer?_intChars h]
  rfl

/-! ### Values without brackets -/

/-- A text that begins with something that is neither skipped nor the end of a list. -/
def Opens (cs : List Char) : Prop :=
  ∃ c more, cs = c :: more ∧ isSpace c = false ∧ c ∉ ['\n', '\r', '#', ']']

theorem Opens.append {cs : List Char} (h : Opens cs) (tail : List Char) : Opens (cs ++ tail) := by
  obtain ⟨c, more, rfl, hc⟩ := h
  exact ⟨c, more ++ tail, rfl, hc⟩

theorem Opens.skipLines {cs : List Char} (h : Opens cs) : skipLines false cs = some cs := by
  obtain ⟨c, more, rfl, hspace, hmem⟩ := h
  simp only [List.mem_cons, List.not_mem_nil, or_false, not_or] at hmem
  obtain ⟨hn, hr, hcomment, -⟩ := hmem
  rw [Toml.skipLines.eq_def]
  simp [hr, hspace, hcomment]

theorem Opens.skipSpaces {cs : List Char} (h : Opens cs) : skipSpaces cs = cs := by
  obtain ⟨c, more, rfl, hspace, -⟩ := h
  exact List.dropWhile_cons_of_neg (by simp [hspace])

theorem ne_of_isWordChar {c x : Char} (hc : isWordChar c = true) (hx : isWordChar x = false) :
    c ≠ x := by
  rintro rfl
  exact Bool.false_ne_true (hx.symm.trans hc)

theorem opens_of_isWordChar {c : Char} (hc : isWordChar c = true) (more : List Char) :
    Opens (c :: more) := by
  refine ⟨c, more, rfl, ?_, ?_⟩
  · simp [isSpace, ne_of_isWordChar hc (x := ' ') rfl, ne_of_isWordChar hc (x := '\t') rfl]
  · intro hmem
    simp only [List.mem_cons, List.not_mem_nil, or_false] at hmem
    rcases hmem with rfl | rfl | rfl | rfl <;> exact absurd hc (by decide)

/-- The value is read back from what is written, brackets nesting at most so deep. -/
structure Written (depth : Nat) (d : Datum) (v : List Char) : Prop where
  opens : Opens v
  read : ∀ {rest : List Char}, Ends rest → (value depth).run (v ++ rest) = some (d, rest)

theorem run_value_of_ne (depth : Nat) {c : Char} (cs : List Char) (hlist : c ≠ '[')
    (htable : c ≠ '\x7b') : (value depth).run (c :: cs) = plainValue? (c :: cs) := by
  cases depth with
  | zero => rfl
  | succ depth =>
      show bracketed? (value depth) (c :: cs) = _
      unfold bracketed?
      split
      · next heq => exact absurd (List.cons.inj heq).1 hlist
      · next heq => exact absurd (List.cons.inj heq).1 htable
      · rfl

/-- A word is read back as what it says. -/
theorem written_word {word : List Char} {d : Datum} (depth : Nat) (hne : word ≠ [])
    (hword : word.all isWordChar = true) (hread : word? word = some d) :
    Written depth d word := by
  obtain ⟨c, more, rfl⟩ := List.exists_cons_of_ne_nil hne
  have hc : isWordChar c = true := List.all_eq_true.mp hword c List.mem_cons_self
  refine ⟨opens_of_isWordChar hc more, ?_⟩
  intro rest hrest
  rw [List.cons_append, run_value_of_ne depth _ (ne_of_isWordChar hc rfl) (ne_of_isWordChar hc rfl)]
  unfold plainValue?
  split
  · next heq => exact absurd (List.cons.inj heq).1 (ne_of_isWordChar hc rfl)
  · next heq => exact absurd (List.cons.inj heq).1 (ne_of_isWordChar hc rfl)
  · exact scalar?_append hne hword hread hrest

theorem written_bool (depth : Nat) (b : Bool) :
    Written depth (.bool b) (if b then "true".toList else "false".toList) := by
  cases b with
  | true => exact written_word depth (by decide) (by decide) rfl
  | false => exact written_word depth (by decide) (by decide) rfl

theorem written_int (depth : Nat) {i : Int}
    (h : -0x8000000000000000 ≤ i ∧ i < 0x8000000000000000) :
    Written depth (.int i) (Text.intChars i) :=
  written_word depth (intChars_ne_nil i)
    (List.all_eq_true.mpr fun _ hc => isWordChar_of_mem_intChars hc) (word?_intChars h)

theorem textChars_eq_cons (cs : List Char) :
    ∃ mark more, textChars cs = mark :: more ∧ (mark = '"' ∨ mark = '\'') := by
  unfold textChars
  split
  · exact ⟨'"', _, rfl, Or.inl rfl⟩
  · exact ⟨'\'', _, rfl, Or.inr rfl⟩
  · exact ⟨'"', _, rfl, Or.inl rfl⟩
  · exact ⟨'\'', _, rfl, Or.inr rfl⟩

theorem written_text (depth : Nat) (s : String) :
    Written depth (.text s) (textChars s.toList) := by
  obtain ⟨mark, more, heq, hmark⟩ := textChars_eq_cons s.toList
  have hopens : isSpace mark = false ∧ mark ∉ ['\n', '\r', '#', ']'] := by
    rcases hmark with rfl | rfl <;> decide
  have hbracket : mark ≠ '[' ∧ mark ≠ '\x7b' := by
    rcases hmark with rfl | rfl <;> decide
  refine ⟨⟨mark, more, heq, hopens⟩, ?_⟩
  intro rest hrest
  have hread := quotation?_textChars s.toList (hrest.head?_ne (c := '"') (by decide))
    (hrest.head?_ne (by decide))
  rw [heq, List.cons_append] at hread ⊢
  rw [run_value_of_ne depth _ hbracket.1 hbracket.2]
  rcases hmark with rfl | rfl
  · simp only [plainValue?, hread, Option.map_some, String.ofList_toList]
  · simp only [plainValue?, hread, Option.map_some, String.ofList_toList]

/-! ### Lists -/

section Items

variable {item : Reader Datum} {start rest : List Char} {d : Datum}

/-- `items?` without the facts that it carries along to see that it ends. -/
theorem items?_eq (item : Reader Datum) (cs : List Char) :
    items? item cs = (skipLines false cs).bind fun start =>
      match start with
      | ']' :: rest => some ([], rest)
      | start => (item.run start).bind fun p =>
        match skipLines false p.2 with
        | some (']' :: rest) => some ([p.1], rest)
        | some (',' :: rest) => (items? item rest).map fun q => (p.1 :: q.1, q.2)
        | _ => none := by
  fun_cases items? item cs with
  | case1 hs => simp [hs]
  | case2 _ hs => simp [hs]
  | case3 _ _ hs _ hi => simp [hs, hi]
  | case4 _ _ hs _ _ _ hi _ _ ha => simp [hs, hi, ha]
  | case5 _ _ hs _ _ _ hi _ _ ha => simp [hs, hi, ha]
  | case6 _ _ hs _ _ _ hi => simp [hs, hi]

theorem items?_close (rest : List Char) : items? item (']' :: rest) = some ([], rest) := by
  rw [items?_eq]
  rfl

/-- A blank before an item is skipped. -/
theorem items?_space (cs : List Char) : items? item (' ' :: cs) = items? item cs := by
  rw [items?_eq, items?_eq item cs]
  rfl

theorem items?_last (hstart : Opens start) (hitem : item.run start = some (d, ']' :: rest)) :
    items? item start = some ([d], rest) := by
  have hskip := hstart.skipLines
  have hafter : skipLines false (']' :: rest) = some (']' :: rest) := rfl
  obtain ⟨c, more, rfl, -, hc⟩ := hstart
  rw [items?_eq, hskip]
  simp only [List.mem_cons, List.not_mem_nil, or_false, not_or] at hc
  simp [hc.2.2.2, hitem, hafter]

theorem items?_comma (hstart : Opens start) (hitem : item.run start = some (d, ',' :: rest)) :
    items? item start = (items? item rest).map fun q => (d :: q.1, q.2) := by
  have hskip := hstart.skipLines
  have hafter : skipLines false (',' :: rest) = some (',' :: rest) := rfl
  obtain ⟨c, more, rfl, -, hc⟩ := hstart
  rw [items?_eq, hskip]
  simp only [List.mem_cons, List.not_mem_nil, or_false, not_or] at hc
  simp [hc.2.2.2, hitem, hafter]

end Items

/-- Brackets nest at most so deep in the value. -/
def Nests : Nat → Datum → Prop
  | 0, .list _ => False
  | depth + 1, .list items => ∀ d ∈ items, Nests depth d
  | _, _ => True

/-- The items of a list are read back if each of them is. -/
theorem items?_intercalate {depth : Nat}
    (hwritten : ∀ {d : Datum} {v : List Char}, Nests depth d → inlineChars? d = some v →
      Written depth d v) :
    ∀ {ds : List Datum} {parts : List (List Char)}, (∀ d ∈ ds, Nests depth d) →
      itemChars? ds = some parts → ∀ rest,
        items? (value depth) (", ".toList.intercalate parts ++ ']' :: rest) = some (ds, rest) := by
  intro ds
  induction ds with
  | nil =>
      intro parts _ hparts rest
      cases hparts
      exact items?_close rest
  | cons d ds ih =>
      intro parts hnests hparts rest
      simp only [itemChars?, Option.bind_eq_bind, Option.bind_eq_some_iff, Option.some.injEq]
        at hparts
      obtain ⟨first, hfirst, more, hmore, rfl⟩ := hparts
      have hd := hwritten (hnests d List.mem_cons_self) hfirst
      have hrest := ih (fun d hd => hnests d (List.mem_cons_of_mem _ hd)) hmore rest
      cases more with
      | nil =>
          have hnone : ds = [] := by
            rw [List.intercalate_nil, List.nil_append, items?_close] at hrest
            exact (Prod.mk.inj (Option.some.inj hrest)).1.symm
          subst hnone
          rw [List.intercalate_singleton]
          exact items?_last (hd.opens.append _) (hd.read ⟨']', rest, rfl, by decide⟩)
      | cons second more =>
          rw [List.intercalate_cons_cons, List.append_assoc, List.append_assoc]
          generalize ", ".toList.intercalate (second :: more) ++ ']' :: rest = tail at hrest ⊢
          have hcomma : ", ".toList ++ tail = ',' :: ' ' :: tail := rfl
          rw [hcomma, items?_comma (hd.opens.append _) (hd.read ⟨',', _, rfl, by decide⟩),
            items?_space, hrest]
          rfl

/-- A value that is no list is read back at any depth. -/
theorem written_of_not_list (depth : Nat) {d : Datum} {v : List Char}
    (hlist : ∀ items, d ≠ .list items) (h : inlineChars? d = some v) : Written depth d v := by
  cases d with
  | bool b =>
      cases b with
      | true =>
          cases h
          exact written_bool depth true
      | false =>
          cases h
          exact written_bool depth false
  | int i =>
      simp only [inlineChars?] at h
      split at h
      · next hrange =>
        cases h
        exact written_int depth hrange
      · cases h
  | text s =>
      cases h
      exact written_text depth s
  | list items => exact absurd rfl (hlist items)
  | null => cases h
  | real => cases h
  | moment => cases h
  | record fs => cases h

/-- **A value is read back from where it is written,** if it does not nest too deep. -/
theorem written_inlineChars? (depth : Nat) :
    ∀ {d : Datum} {v : List Char}, Nests depth d → inlineChars? d = some v →
      Written depth d v := by
  induction depth with
  | zero =>
      intro d v hnests h
      refine written_of_not_list 0 ?_ h
      rintro items rfl
      exact hnests
  | succ depth ih =>
      intro d v hnests h
      by_cases hlist : ∃ items, d = .list items
      · obtain ⟨items, rfl⟩ := hlist
        simp only [inlineChars?, Option.map_eq_some_iff] at h
        obtain ⟨parts, hparts, rfl⟩ := h
        refine ⟨⟨'[', _, rfl, by decide, by decide⟩, fun {rest} _ => ?_⟩
        have hitems := items?_intercalate ih hnests hparts rest
        rw [List.cons_append, List.cons_append, List.append_assoc, List.singleton_append]
        show (items? (value depth) _).map _ = _
        rw [hitems]
        rfl
      · exact written_of_not_list (depth + 1) (fun items heq => hlist ⟨items, heq⟩) h

end RobotMaze.Toml
