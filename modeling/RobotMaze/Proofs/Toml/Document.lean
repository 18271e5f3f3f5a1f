/-
A document is read back from the blocks that it is written in.

The statements of a block add entries to the last table of the document so far.  `Focus`
describes that table by the document around it, so adding entries to it is one lemma for
all kinds of blocks (`foldlM_assigns`).  `Adds` then says of blocks, wherever they stand,
what they add to the document, and goes together from block to block.

So the notation keeps documents (`faithful_codec`): all their values stand on one line, and
no list in them holds another one.
-/
import RobotMaze.Proofs.Codec
import RobotMaze.Proofs.Toml.Lines
import RobotMaze.Toml

namespace RobotMaze.Toml

/-! ### Entries -/

/-- The entries of a table without tables in it. -/
def values (fs : List (String × Datum)) : Entries :=
  fs.map fun f => (f.1, .value f.2)

/-- There is nothing under the key yet. -/
def Fresh (key : String) (es : Entries) : Prop :=
  key ∉ es.map Prod.fst

theorem fresh_cons {key : String} {e : String × Node} {es : Entries} :
    Fresh key (e :: es) ↔ key ≠ e.1 ∧ Fresh key es := by
  unfold Fresh
  rw [List.map_cons, List.mem_cons, not_or]

theorem fresh_append {key : String} {es es' : Entries} :
    Fresh key (es ++ es') ↔ Fresh key es ∧ Fresh key es' := by
  unfold Fresh
  rw [List.map_append, List.mem_append, not_or]

theorem find?_of_fresh {key : String} {es : Entries} (h : Fresh key es) :
    Entries.find? key es = none := by
  induction es with
  | nil => rfl
  | cons e es ih =>
      rw [fresh_cons] at h
      unfold Entries.find?
      rw [List.lookup_cons, beq_eq_false_iff_ne.mpr h.1]
      exact ih h.2

theorem put_of_fresh {key : String} {es : Entries} (n : Node) (h : Fresh key es) :
    es.put key n = es ++ [(key, n)] := by
  induction es with
  | nil => rfl
  | cons e es ih =>
      rw [fresh_cons] at h
      unfold Entries.put
      rw [if_neg (Ne.symm h.1), ih h.2]
      rfl

theorem find?_last {key : String} {es : Entries} (n : Node) (h : Fresh key es) :
    Entries.find? key (es ++ [(key, n)]) = some n := by
  rw [← put_of_fresh n h, Entries.find?_put, if_pos rfl]

theorem put_last {key : String} {es : Entries} (m n : Node) (h : Fresh key es) :
    Entries.put key n (es ++ [(key, m)]) = es ++ [(key, n)] := by
  induction es with
  | nil => exact if_pos rfl
  | cons e es ih =>
      rw [fresh_cons] at h
      rw [List.cons_append]
      unfold Entries.put
      rw [if_neg (Ne.symm h.1), ih h.2]
      rfl

/-- The table that a path leads to, seen from the document around it. -/
def Focus (path : List String) (around : Entries → Entries) : Prop :=
  ∀ f es, Entries.change false f path .stated (around es) = (f .stated es).map around

theorem focus_root : Focus [] id := by
  intro f es
  exact Option.map_id'.symm

theorem focus_table {key : String} {es : Entries} (h : Fresh key es) :
    Focus [key] fun inner => es ++ [(key, .table .stated inner)] := by
  intro f inner
  unfold Entries.change
  simp only [find?_last _ h, put_last _ _ h]
  rfl

theorem focus_element {key : String} {es : Entries} (before : List Entries) (h : Fresh key es) :
    Focus [key] fun inner => es ++ [(key, .tables (before ++ [inner]))] := by
  intro f inner
  unfold Entries.change
  simp only [find?_last _ h, put_last _ _ h, List.reverse_concat, List.reverse_cons,
    List.reverse_reverse]
  rfl

/-! ### Statements -/

/-- Keys of a table are added to it one after another, wherever it stands. -/
theorem foldlM_assigns {path : List String} {around : Entries → Entries}
    (hfocus : Focus path around) : ∀ {fs : List (String × Datum)} {es : Entries},
      (fs.map Prod.fst).Nodup → (∀ f ∈ fs, Fresh f.1 es) →
        (assigns fs).foldlM Draft.apply { root := around es, here := path }
          = some { root := around (es ++ values fs), here := path } := by
  intro fs
  induction fs with
  | nil =>
      intro es _ _
      rw [values, List.map_nil, List.append_nil]
      rfl
  | cons f fs ih =>
      intro es hdistinct hfresh
      obtain ⟨hnew, hdistinct⟩ := List.nodup_cons.mp hdistinct
      have hf := hfresh f List.mem_cons_self
      have hadd : es.addDotted [] f.1 f.2 = some (es ++ [(f.1, .value f.2)]) := by
        show Entries.add f.1 f.2 es = _
        unfold Entries.add
        rw [find?_of_fresh hf, put_of_fresh _ hf]
      have hstep : Draft.apply { root := around es, here := path }
          (.assign { path := [], last := f.1 } f.2)
            = some { root := around (es ++ [(f.1, .value f.2)]), here := path } := by
        show (Entries.change false (fun _ es => es.addDotted [] f.1 f.2) path .stated
          (around es)).map _ = _
        rw [hfocus, hadd]
        rfl
      have hrest := @ih (es ++ [(f.1, .value f.2)]) hdistinct fun g hg => by
        refine fresh_append.mpr ⟨hfresh g (List.mem_cons_of_mem _ hg), ?_⟩
        rw [Fresh, List.map_singleton, List.mem_singleton]
        exact fun heq => hnew (heq ▸ List.mem_map_of_mem hg)
      rw [assigns, List.map_cons, List.foldlM_cons, hstep]
      show List.foldlM Draft.apply _ (assigns fs) = _
      rw [hrest, List.append_assoc]
      rfl

theorem apply_table {key : String} {es : Entries} (path : List String) (h : Fresh key es) :
    Draft.apply { root := es, here := path } (.table { path := [], last := key })
      = some { root := es ++ [(key, .table .stated [])], here := [key] } := by
  show (es.state [] key).map _ = _
  unfold Entries.state Entries.change
  simp only [find?_of_fresh h, put_of_fresh _ h]
  rfl

/-- The first element of a list of tables, or one more of them. -/
theorem apply_first_element {key : String} {es : Entries} (path : List String) (h : Fresh key es) :
    Draft.apply { root := es, here := path } (.element { path := [], last := key })
      = some { root := es ++ [(key, .tables [[]])], here := [key] } := by
  show (es.stateElement [] key).map _ = _
  unfold Entries.stateElement Entries.change
  simp only [find?_of_fresh h, put_of_fresh _ h]
  rfl

theorem apply_next_element {key : String} {es : Entries} (path : List String)
    (before : List Entries) (h : Fresh key es) :
    Draft.apply { root := es ++ [(key, .tables before)], here := path }
        (.element { path := [], last := key })
      = some { root := es ++ [(key, .tables (before ++ [[]]))], here := [key] } := by
  show (Entries.stateElement [] key _).map _ = _
  unfold Entries.stateElement Entries.change
  simp only [find?_last _ h, put_last _ _ h]
  rfl

/-! ### Blocks -/

/-- Wherever the blocks stand below a document, they make one table of it into another. -/
def Adds (bs : List Block) (es es' : Entries) : Prop :=
  ∀ parts, bs.mapM Block.chars? = some parts →
    ∃ ss, Spells (spaced parts) ss ∧ ∀ path, ∃ path',
      ss.foldlM Draft.apply { root := es, here := path } = some { root := es', here := path' }

theorem Adds.nil (es : Entries) : Adds [] es es := by
  intro parts h
  cases h
  exact ⟨[], .nil, fun path => ⟨path, rfl⟩⟩

theorem Adds.append {bs bs' : List Block} {es es' es'' : Entries} (h : Adds bs es es')
    (h' : Adds bs' es' es'') : Adds (bs ++ bs') es es'' := by
  intro parts hparts
  obtain ⟨front, back, hfront, hback, rfl⟩ := mapM_append_eq_some_iff.mp hparts
  obtain ⟨ss, hspell, hfold⟩ := h front hfront
  obtain ⟨ss', hspell', hfold'⟩ := h' back hback
  refine ⟨ss ++ ss', ?_, ?_⟩
  · rw [spaced, List.flatMap_append]
    exact hspell.append hspell'
  · intro path
    obtain ⟨path', heq⟩ := hfold path
    obtain ⟨path'', heq'⟩ := hfold' path'
    exact ⟨path'', by rw [List.foldlM_append, heq]; exact heq'⟩

/-- A block adds what its keys add to the table that it opens. -/
theorem Adds.block {b : Block} {s : Statement} {key : String} {es : Entries}
    {around : Entries → Entries} (hheader : Spells b.header [s]) (htidy : Tidy b.fields)
    (hfocus : Focus [key] around)
    (hopen : ∀ path, Draft.apply { root := es, here := path } s
      = some { root := around [], here := [key] }) :
    Adds [b] es (around (values b.fields)) := by
  intro parts hparts
  obtain ⟨cs, hcs, rfl⟩ := mapM_singleton_eq_some_iff.mp hparts
  refine ⟨s :: assigns b.fields, ?_, fun path => ⟨[key], ?_⟩⟩
  · have hblock := Spells.lineFeed.append (spells_block hheader htidy hcs)
    rw [spaced, List.flatMap_singleton]
    exact hblock
  · rw [List.foldlM_cons, hopen path]
    exact @foldlM_assigns [key] around hfocus b.fields [] htidy.distinct
      fun _ _ => List.not_mem_nil

/-! ### Fields of a document -/

/-- The block of one element of a list of tables. -/
def elementBlock (key : String) (fs : List (String × Datum)) : Block where
  header := "[[".toList ++ key.toList ++ "]]\n".toList
  fields := fs

theorem fieldBlocks_list (key : String) (items : List Datum) :
    fieldBlocks key (.list items) = if items.isEmpty then [] else
      match items.mapM recordFields? with
      | some tables => tables.map (elementBlock key)
      | none => [] :=
  rfl

theorem mapM_recordFields? (tables : List (List (String × Datum))) :
    (tables.map Datum.record).mapM recordFields? = some tables := by
  induction tables with
  | nil => rfl
  | cons fs tables ih =>
      rw [List.map_cons, List.mapM_cons, ih]
      rfl

theorem eq_map_of_mapM_recordFields? {items : List Datum} :
    ∀ {tables : List (List (String × Datum))}, items.mapM recordFields? = some tables →
      items = tables.map .record := by
  induction items with
  | nil =>
      intro tables h
      cases h
      rfl
  | cons d items ih =>
      intro tables h
      obtain ⟨fs, more, hfs, hmore, rfl⟩ := mapM_cons_eq_some_iff.mp h
      cases d with
      | record inner =>
          cases hfs
          rw [ih hmore, List.map_cons]
      | _ => cases hfs

theorem fieldBlocks_tables (key : String) {tables : List (List (String × Datum))}
    (h : tables ≠ []) :
    fieldBlocks key (.list (tables.map .record)) = tables.map (elementBlock key) := by
  rw [fieldBlocks_list, if_neg (by simpa using h), mapM_recordFields?]

/-- The table of a document's field that has one, in one block; the elements of its lists of
tables, in a block each. -/
theorem fieldBlocks_cases (key : String) (d : Datum) :
    fieldBlocks key d = [] ∨ (∃ inner, d = .record inner) ∨
      ∃ tables : List (List (String × Datum)), tables ≠ [] ∧ d = .list (tables.map .record) := by
  cases d with
  | record inner => exact Or.inr (Or.inl ⟨inner, rfl⟩)
  | list items =>
      rw [fieldBlocks_list]
      split
      · exact Or.inl rfl
      next hne =>
      split
      · next tables htables =>
        refine Or.inr (Or.inr ⟨tables, ?_, ?_⟩)
        · rintro rfl
          have hnil := eq_map_of_mapM_recordFields? htables
          exact hne (by rw [hnil]; rfl)
        · rw [eq_map_of_mapM_recordFields? htables]
      · exact Or.inl rfl
  | null => exact Or.inl rfl
  | bool => exact Or.inl rfl
  | int => exact Or.inl rfl
  | real => exact Or.inl rfl
  | text => exact Or.inl rfl
  | moment => exact Or.inl rfl

theorem adds_table {key : String} {es : Entries} {inner : List (String × Datum)}
    (hbare : IsBare key) (hfresh : Fresh key es) (htidy : Tidy inner) :
    Adds (fieldBlocks key (.record inner)) es (es ++ [(key, .table .stated (values inner))]) :=
  Adds.block (spells_table hbare) htidy (focus_table hfresh) fun path => apply_table path hfresh

theorem adds_more_elements {key : String} {es : Entries} (hbare : IsBare key)
    (hfresh : Fresh key es) :
    ∀ {tables : List (List (String × Datum))} (before : List Entries),
      (∀ fs ∈ tables, Tidy fs) →
        Adds (tables.map (elementBlock key)) (es ++ [(key, .tables before)])
          (es ++ [(key, .tables (before ++ tables.map values))]) := by
  intro tables
  induction tables with
  | nil =>
      intro before _
      rw [List.map_nil, List.map_nil, List.append_nil]
      exact .nil _
  | cons fs tables ih =>
      intro before htidy
      have hfirst : Adds [elementBlock key fs] (es ++ [(key, .tables before)])
          (es ++ [(key, .tables (before ++ [values fs]))]) :=
        Adds.block (spells_element hbare) (htidy fs List.mem_cons_self)
          (focus_element before hfresh) fun path => apply_next_element path before hfresh
      have hmore := ih (before ++ [values fs]) fun g hg => htidy g (List.mem_cons_of_mem _ hg)
      rw [List.append_assoc] at hmore
      exact hfirst.append hmore

theorem adds_elements {key : String} {es : Entries} {tables : List (List (String × Datum))}
    (hbare : IsBare key) (hfresh : Fresh key es) (hne : tables ≠ [])
    (htidy : ∀ fs ∈ tables, Tidy fs) :
    Adds (fieldBlocks key (.list (tables.map .record))) es
      (es ++ [(key, .tables (tables.map values))]) := by
  obtain ⟨fs, tables, rfl⟩ := List.exists_cons_of_ne_nil hne
  rw [fieldBlocks_tables key hne]
  have hfirst : Adds [elementBlock key fs] es (es ++ [(key, .tables ([] ++ [values fs]))]) :=
    Adds.block (spells_element hbare) (htidy fs List.mem_cons_self)
      (focus_element [] hfresh) fun path => apply_first_element path hfresh
  exact hfirst.append
    (adds_more_elements hbare hfresh [values fs] fun g hg => htidy g (List.mem_cons_of_mem _ hg))

theorem fieldsOf_append (es es' : Entries) :
    fieldsOf (es ++ es') = fieldsOf es ++ fieldsOf es' := by
  induction es with
  | nil => rfl
  | cons e es ih =>
      rw [List.cons_append, fieldsOf, ih, fieldsOf, List.cons_append]

theorem keys_fieldsOf (es : Entries) : (fieldsOf es).map Prod.fst = es.map Prod.fst := by
  induction es with
  | nil => rfl
  | cons e es ih => rw [fieldsOf, List.map_cons, List.map_cons, ih]

theorem fieldsOf_values (fs : List (String × Datum)) : fieldsOf (values fs) = fs := by
  induction fs with
  | nil => rfl
  | cons f fs ih =>
      show (f.1, f.2) :: fieldsOf (values fs) = _
      rw [ih]

theorem itemsOf_map_values (tables : List (List (String × Datum))) :
    itemsOf (tables.map values) = tables.map .record := by
  induction tables with
  | nil => rfl
  | cons fs tables ih => rw [List.map_cons, itemsOf, fieldsOf_values, ih, List.map_cons]

/-- Whether a field of a document stands in blocks of its own. -/
def hasBlocks (f : String × Datum) : Bool :=
  !(fieldBlocks f.1 f.2).isEmpty

/-- The blocks of a field add this field. -/
theorem adds_field {f : String × Datum} {es : Entries} (hbare : IsBare f.1)
    (hfresh : hasBlocks f = true → Fresh f.1 es)
    (htables : ∀ b ∈ fieldBlocks f.1 f.2, Tidy b.fields) :
    ∃ es', Adds (fieldBlocks f.1 f.2) es (es ++ es') ∧
      fieldsOf es' = [f].filter hasBlocks := by
  obtain ⟨key, d⟩ := f
  rcases fieldBlocks_cases key d with hnone | ⟨inner, rfl⟩ | ⟨tables, hne, rfl⟩
  · refine ⟨[], ?_, ?_⟩
    · simp only [hnone, List.append_nil]
      exact .nil es
    · simp [hasBlocks, hnone, fieldsOf]
  · have hblocks : hasBlocks (key, .record inner) = true := rfl
    refine ⟨_, adds_table hbare (hfresh hblocks) (htables _ (List.mem_singleton_self _)), ?_⟩
    simp [hblocks, fieldsOf, Node.datum, fieldsOf_values]
  · have hblocks : hasBlocks (key, .list (tables.map .record)) = true := by
      simp [hasBlocks, fieldBlocks_tables key hne, hne]
    rw [fieldBlocks_tables key hne] at htables
    refine ⟨_, adds_elements hbare (hfresh hblocks) hne fun fs hfs =>
      htables _ (List.mem_map_of_mem hfs), ?_⟩
    simp [hblocks, fieldsOf, Node.datum, itemsOf_map_values]

/-- A document whose tables are all tidy. -/
structure TidyDocument (fs : List (String × Datum)) : Prop extends Tidy fs where
  tables : ∀ f ∈ fs, ∀ b ∈ fieldBlocks f.1 f.2, Tidy b.fields

/-- The blocks of all fields add those that have blocks, in order. -/
theorem adds_fields : ∀ {fs : List (String × Datum)} {es : Entries}, TidyDocument fs →
    (∀ f ∈ fs, hasBlocks f = true → Fresh f.1 es) →
      ∃ es', Adds (fs.flatMap fun f => fieldBlocks f.1 f.2) es (es ++ es') ∧
        fieldsOf es' = fs.filter hasBlocks := by
  intro fs
  induction fs with
  | nil =>
      intro es _ _
      exact ⟨[], by rw [List.append_nil]; exact .nil es, rfl⟩
  | cons f fs ih =>
      intro es htidy hfresh
      have hnew := (List.nodup_cons.mp htidy.distinct).1
      obtain ⟨es₁, hadds, heq⟩ := adds_field (htidy.bare f List.mem_cons_self)
        (hfresh f List.mem_cons_self) (htidy.tables f List.mem_cons_self)
      have hstill : ∀ g ∈ fs, hasBlocks g = true → Fresh g.1 (es ++ es₁) := by
        intro g hg hblocks
        refine fresh_append.mpr ⟨hfresh g (List.mem_cons_of_mem _ hg) hblocks, fun hmem => ?_⟩
        rw [← keys_fieldsOf, heq, List.mem_map] at hmem
        obtain ⟨f', hf', hkey⟩ := hmem
        rw [List.mem_singleton.mp (List.mem_filter.mp hf').1] at hkey
        exact hnew (hkey ▸ List.mem_map_of_mem hg)
      have htail : TidyDocument fs :=
        ⟨htidy.toTidy.tail, fun g hg => htidy.tables g (List.mem_cons_of_mem _ hg)⟩
      obtain ⟨es₂, hadds', heq'⟩ := ih htail hstill
      refine ⟨es₁ ++ es₂, ?_, ?_⟩
      · rw [List.append_assoc] at hadds'
        exact hadds.append hadds'
      · rw [fieldsOf_append, heq, heq', ← List.filter_append]
        rfl

/-! ### The document -/

/-- The fields of a document as they are written: those that have no blocks come first. -/
def inOrder (fs : List (String × Datum)) : List (String × Datum) :=
  (fs.filter fun f => (fieldBlocks f.1 f.2).isEmpty) ++ fs.filter hasBlocks

theorem statements?_mark (cs : List Char) : statements? ('\ufeff' :: cs) = none := by
  have hskip : skipLines false ('\ufeff' :: cs) = some ('\ufeff' :: cs) := rfl
  have hkey : keyParts? ('\ufeff' :: cs) = none := by
    have hpart : keyPart? ('\ufeff' :: cs) = none := rfl
    rw [keyParts?.eq_def]
    split
    · rfl
    · next h =>
      rw [hpart] at h
      cases h
  have hassign : assignment? (value maxDepth) ('\ufeff' :: cs) = none := by
    unfold assignment? key?
    rw [hkey]
    rfl
  rw [statements?_eq, hskip]
  show (((assignment? (value maxDepth) ('\ufeff' :: cs)).map _).bind _) = none
  rw [hassign]
  rfl

/-- Where there are statements, there is no mark before them. -/
theorem dropMark_of_statements? {cs : List Char} {ss : List Statement}
    (h : statements? cs = some ss) : dropMark cs = cs := by
  unfold dropMark
  split
  · next cs =>
    rw [statements?_mark] at h
    cases h
  · rfl

/-- The block of the values that belong to a document itself, if there are any. -/
theorem spells_values {vs : List (String × Datum)} (htidy : Tidy vs) {parts : List (List Char)}
    (h : (if vs.isEmpty then [] else [{ header := [], fields := vs }]).mapM Block.chars?
      = some parts) : Spells (spaced parts) (assigns vs) := by
  cases vs with
  | nil =>
      cases h
      exact .nil
  | cons v vs =>
      obtain ⟨cs, hcs, rfl⟩ := mapM_singleton_eq_some_iff.mp h
      rw [spaced, List.flatMap_singleton]
      exact Spells.lineFeed.append (spells_block .nil htidy hcs)

theorem Tidy.filter {fs : List (String × Datum)} (h : Tidy fs) (p : String × Datum → Bool) :
    Tidy (fs.filter p) where
  bare f hf := h.bare f (List.mem_filter.mp hf).1
  nests f hf := h.nests f (List.mem_filter.mp hf).1
  distinct := h.distinct.sublist (List.filter_sublist.map _)

theorem inOrder_perm (fs : List (String × Datum)) : (inOrder fs).Perm fs :=
  List.filter_append_perm _ fs

/-- The keys of the values are not those of the tables. -/
theorem Tidy.fresh {fs : List (String × Datum)} (h : Tidy fs) :
    ∀ f ∈ fs, hasBlocks f = true →
      Fresh f.1 (values (fs.filter fun f => (fieldBlocks f.1 f.2).isEmpty)) := by
  have hdistinct := ((inOrder_perm fs).map Prod.fst).nodup_iff.mpr h.distinct
  rw [inOrder, List.map_append, List.nodup_append] at hdistinct
  intro f hf hblocks hmem
  rw [values, List.map_map] at hmem
  exact hdistinct.2.2 f.1 hmem f.1 (List.mem_map_of_mem (List.mem_filter.mpr ⟨hf, hblocks⟩)) rfl

theorem blocks_eq (fs : List (String × Datum)) :
    let vs := fs.filter fun f => (fieldBlocks f.1 f.2).isEmpty
    blocks fs = (if vs.isEmpty then [] else [{ header := [], fields := vs }])
      ++ fs.flatMap fun f => fieldBlocks f.1 f.2 := by
  intro vs
  show (if vs.isEmpty then _ else _) = _
  split <;> rfl

/--
**A document is read back from what is written,** up to the order of its fields: those that
are values come before those that are tables or lists of tables.
-/
theorem read?_print? {fs : List (String × Datum)} (htidy : TidyDocument fs) {s : String}
    (hs : print? (.record fs) = some s) : read? s = some (.record (inOrder fs)) := by
  simp only [print?, Option.map_eq_some_iff] at hs
  obtain ⟨parts, hparts, rfl⟩ := hs
  let vs := fs.filter fun f => (fieldBlocks f.1 f.2).isEmpty
  rw [blocks_eq] at hparts
  obtain ⟨front, back, hfront, hback, rfl⟩ := mapM_append_eq_some_iff.mp hparts
  have hvalues : Tidy vs := htidy.toTidy.filter _
  have hspell := spells_values hvalues hfront
  obtain ⟨es, hadds, heq⟩ := @adds_fields fs (values vs) htidy htidy.toTidy.fresh
  obtain ⟨ss, hspell', hfold'⟩ := hadds back hback
  obtain ⟨path, hfold'⟩ := hfold' []
  have hstatements :
      statements? (['\n'].intercalate (front ++ back)) = some (assigns vs ++ ss) := by
    rw [statements?_intercalate, spaced, List.flatMap_append]
    exact (hspell.append hspell').statements?_eq
  have hassemble : assemble? (assigns vs ++ ss) = some (values vs ++ es) := by
    have hfold := @foldlM_assigns [] id focus_root vs [] hvalues.distinct
      fun _ _ => List.not_mem_nil
    have hroot : (assigns vs).foldlM Draft.apply { root := [], here := [] }
        = some { root := values vs, here := [] } := hfold
    unfold assemble?
    rw [List.foldlM_append, hroot]
    show Option.map Draft.root (ss.foldlM Draft.apply _) = _
    rw [hfold']
    rfl
  unfold read?
  rw [String.toList_ofList, dropMark_of_statements? hstatements, hstatements]
  show (assemble? _).bind _ = _
  rw [hassemble, Option.bind_some, fieldsOf_append, fieldsOf_values, heq]
  rfl

/-! ### When a document can be written -/

theorem isSome_mapM {α β : Type} {f : α → Option β} :
    ∀ {l : List α}, (∀ a ∈ l, (f a).isSome) → (l.mapM f).isSome := by
  intro l
  induction l with
  | nil => intro _; rfl
  | cons a l ih =>
      intro h
      obtain ⟨b, hb⟩ := Option.isSome_iff_exists.mp (h a List.mem_cons_self)
      have hmore := ih fun a ha => h a (List.mem_cons_of_mem _ ha)
      obtain ⟨bs, hbs⟩ := Option.isSome_iff_exists.mp hmore
      rw [List.mapM_cons, hb, hbs]
      rfl

/-- A document can be written if the values in all its blocks can. -/
theorem isSome_print? {fs : List (String × Datum)}
    (h : ∀ b ∈ blocks fs, ∀ f ∈ b.fields, (inlineChars? f.2).isSome) :
    (print? (.record fs)).isSome := by
  unfold print?
  rw [Option.isSome_map]
  refine isSome_mapM fun b hb => ?_
  unfold Block.chars?
  rw [Option.isSome_map]
  refine isSome_mapM fun f hf => ?_
  unfold lineChars?
  rw [Option.isSome_map]
  exact h b hb f hf

/-! ### Documents of values and tables -/

open Datum

variable {d : Datum} {fs : List (String × Datum)}

theorem nests_of_isScalar (h : IsScalar d) (depth : Nat) : Nests depth d := by
  cases h <;> cases depth <;> trivial

theorem nests_of_isValue (h : IsValue d) : Nests maxDepth d := by
  cases h with
  | scalar h => exact nests_of_isScalar h maxDepth
  | list h => exact fun d hd => nests_of_isScalar (h d hd) _

theorem isSome_inlineChars?_of_isScalar (h : IsScalar d) : (inlineChars? d).isSome := by
  cases h with
  | bool b => cases b <;> rfl
  | int h =>
      rw [inlineChars?, if_pos h]
      rfl
  | text => rfl

theorem isSome_itemChars? {items : List Datum} (h : ∀ d ∈ items, IsScalar d) :
    (itemChars? items).isSome := by
  induction items with
  | nil => rfl
  | cons d items ih =>
      have hd := isSome_inlineChars?_of_isScalar (h d List.mem_cons_self)
      have hmore := ih fun d hd => h d (List.mem_cons_of_mem _ hd)
      obtain ⟨cs, hcs⟩ := Option.isSome_iff_exists.mp hd
      obtain ⟨parts, hparts⟩ := Option.isSome_iff_exists.mp hmore
      rw [itemChars?, hcs, hparts]
      rfl

theorem isSome_inlineChars?_of_isValue (h : IsValue d) : (inlineChars? d).isSome := by
  cases h with
  | scalar h => exact isSome_inlineChars?_of_isScalar h
  | list h =>
      rw [inlineChars?, Option.isSome_map]
      exact isSome_itemChars? h

/-- A value has no block of its own. -/
theorem fieldBlocks_of_isValue (key : String) (h : IsValue d) : fieldBlocks key d = [] := by
  rcases fieldBlocks_cases key d with hnone | ⟨inner, rfl⟩ | ⟨ts, hne, rfl⟩
  · exact hnone
  · rcases h with ⟨⟨⟩⟩
  · obtain ⟨fs, ts, rfl⟩ := List.exists_cons_of_ne_nil hne
    rcases h with ⟨⟨⟩⟩ | h
    cases h (.record fs) (List.mem_map_of_mem List.mem_cons_self)

/-- What a field of a document holds is written in blocks of tables, or it is a value. -/
theorem fieldBlocks_of_isPart (key : String) (h : IsPart d) :
    (fieldBlocks key d = [] ∧ IsValue d) ∨
      (fieldBlocks key d ≠ [] ∧ ∀ b ∈ fieldBlocks key d, IsTable b.fields) := by
  cases h with
  | value h => exact Or.inl ⟨fieldBlocks_of_isValue key h, h⟩
  | table h =>
      refine Or.inr ⟨List.cons_ne_nil _ _, fun b hb => ?_⟩
      rw [List.mem_singleton.mp hb]
      exact h
  | @tables ts h =>
      by_cases hts : ts = []
      · subst hts
        exact Or.inl ⟨rfl, .list nofun⟩
      · rw [fieldBlocks_tables key hts]
        refine Or.inr ⟨mt List.map_eq_nil_iff.mp hts, fun b hb => ?_⟩
        obtain ⟨fs, hfs, rfl⟩ := List.mem_map.mp hb
        exact h fs hfs

theorem isBare_of_isPlainName {name : String} (h : IsPlainName name) : IsBare name :=
  h

theorem tidy_of_isTable (h : IsTable fs) : Tidy fs where
  bare f hf := isBare_of_isPlainName (h.plain f hf)
  nests f hf := nests_of_isValue (h.values f hf)
  distinct := h.distinct

/-- Brackets only stand around values, so a list of tables may be as long as it likes. -/
theorem nests_of_isPart (h : IsPart d) : Nests maxDepth d := by
  cases h with
  | value h => exact nests_of_isValue h
  | table h => trivial
  | tables h =>
      intro d hd
      obtain ⟨fs, -, rfl⟩ := List.mem_map.mp hd
      trivial

theorem tidyDocument_of_isDocument (h : IsDocument fs) : TidyDocument fs where
  bare f hf := isBare_of_isPlainName (h.plain f hf)
  nests f hf := nests_of_isPart (h.parts f hf)
  distinct := h.distinct
  tables f hf b hb := by
    rcases fieldBlocks_of_isPart f.1 (h.parts f hf) with ⟨hnone, -⟩ | ⟨-, htables⟩
    · rw [hnone] at hb
      cases hb
    · exact tidy_of_isTable (htables b hb)

/-- The blocks of a document hold values and nothing else. -/
theorem isValue_of_mem_blocks (h : IsDocument fs) {b : Block} (hb : b ∈ blocks fs)
    {f : String × Datum} (hf : f ∈ b.fields) : IsValue f.2 := by
  rw [blocks_eq, List.mem_append, List.mem_flatMap] at hb
  rcases hb with hb | ⟨g, hg, hb⟩
  · split at hb
    · cases hb
    rw [List.mem_singleton.mp hb] at hf
    obtain ⟨hmem, hempty⟩ := List.mem_filter.mp hf
    rcases fieldBlocks_of_isPart f.1 (h.parts f hmem) with ⟨-, hvalue⟩ | ⟨hblocks, -⟩
    · exact hvalue
    · exact absurd (List.isEmpty_iff.mp hempty) hblocks
  · rcases fieldBlocks_of_isPart g.1 (h.parts g hg) with ⟨hnone, -⟩ | ⟨-, htables⟩
    · rw [hnone] at hb
      cases hb
    · exact (htables b hb).values f hf

/-- **The notation keeps documents.** -/
theorem faithful_codec : codec.Faithful where
  writes h := Option.isSome_iff_exists.mp <| isSome_print? fun _ hb _ hf =>
    isSome_inlineChars?_of_isValue (isValue_of_mem_blocks h hb hf)
  reads h hs := ⟨_, read?_print? (tidyDocument_of_isDocument h) hs,
    same_of_perm h.distinct (inOrder_perm _)⟩

end RobotMaze.Toml
