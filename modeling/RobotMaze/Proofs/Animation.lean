/-
A run that is shown in time is the run that is shown at once.

The program has two ways to show a run.  One goes through the trace and puts the words of
the command before each pose; the other replays the trace, shows frame after frame when it is
due, and has an end test and a first frame of its own.  Both show the same list: the poses
of the run with their numbers, the pose with number `k` being the end of the run of the first
`k` commands (`Level.numberedPoses`).

The trace is that list by `trace_eq_map_range`.  The labels are as many as the poses, so none
is missing when they are put beside the poses.  A replay with which nobody interferes shows
its whole timetable and completes (`Replay.run_quiet`), and the timetable numbers the poses of
the trace.  So the last frame is the end of the run, and the last line and the exit status
can be read off it.

What is printed are lines of text.  What they say about a pose is `StepRow` on the one way and
`FrameRow` on the other, and each of them says it about one pose only.
-/
import RobotMaze.Proofs.Replay.Indifference
import RobotMaze.Proofs.Resumption
import RobotMaze.Proofs.Selection
import RobotMaze.Proofs.Wording

namespace RobotMaze

/-! ### The poses of a run with their numbers -/

/-- Each pose of a run with its number, which is that of the commands before it. -/
def Level.numberedPoses (l : Level) (p : Program) : List (Nat × Pose) :=
  (List.range (p.length + 1)).map fun k => (k, (l.run (p.take k)).final)

/-- A list is given by its length and its entries. -/
theorem eq_map_range {α : Type} {list : List α} {n : Nat} {f : Nat → α} (hlength : list.length = n)
    (h : ∀ k < n, list[k]? = some (f k)) : list = (List.range n).map f := by
  refine List.ext_getElem? fun k => ?_
  by_cases hk : k < n
  · rw [h k hk, List.getElem?_map, List.getElem?_range hk]
    rfl
  · have hend : n ≤ k := Nat.le_of_not_lt hk
    rw [List.getElem?_eq_none (hlength ▸ hend), List.getElem?_eq_none (by simpa using hend)]

theorem zipIdx_map_range {α : Type} (f : Nat → α) (n : Nat) :
    ((List.range n).map f).zipIdx = (List.range n).map fun k => (f k, k) := by
  rw [List.zipIdx_eq_zip_range', List.length_map, List.length_range, ← List.range_eq_range']
  exact (congrArg _ (List.map_id _).symm).trans List.zip_map'

theorem Level.trace_eq_map_range (l : Level) (p : Program) :
    (l.run p).trace = (List.range (p.length + 1)).map fun k => (l.run (p.take k)).final :=
  eq_map_range (Program.length_trace _ _ _)
    fun _ hk => Program.getElem?_trace (Nat.le_of_lt_succ hk)

/-- The trace with its numbers, the number behind the pose. -/
theorem Level.zipIdx_trace (l : Level) (p : Program) :
    (l.run p).trace.zipIdx = (l.numberedPoses p).map Prod.swap := by
  rw [l.trace_eq_map_range, zipIdx_map_range, Level.numberedPoses, List.map_map]
  rfl

namespace CommandLine

variable {l : Level} {p : Program}

/-- The words beside a pose by its number. -/
def label (p : Program) (k : Nat) : String :=
  (labels p).getD k ""

theorem labels_eq_map_range (p : Program) :
    labels p = (List.range (p.length + 1)).map (label p) := by
  have hlength : (labels p).length = p.length + 1 := by simp [labels]
  refine eq_map_range hlength fun k hk => ?_
  rw [label, List.getD_eq_getElem?_getD, List.getElem?_eq_getElem (hlength.symm ▸ hk)]
  rfl

/-- The label of the start is `start`, and that of the pose after a command is its text. -/
theorem label_eq (p : Program) :
    label p 0 = "start" ∧ ∀ k c, p[k]? = some c → label p (k + 1) = c.text := by
  refine ⟨rfl, fun k c hc => ?_⟩
  rw [label, List.getD_eq_getElem?_getD, getElem?_labels hc]
  rfl

theorem isLabel_label (p : Program) (k : Nat) : IsLabel (label p k) := by
  rw [label, List.getD_eq_getElem?_getD]
  cases hword : (labels p)[k]? with
  | none => exact ⟨by decide, by decide⟩
  | some word =>
      rcases List.mem_cons.mp (List.mem_of_getElem? hword) with rfl | hmem
      · exact ⟨by decide, by decide⟩
      · obtain ⟨c, -, rfl⟩ := List.mem_map.mp hmem
        exact isLabel_text c

/-! ### Both ways to show a run -/

/-- At once: the map, and then every pose with its label. -/
theorem texts_plainLines (l : Level) (p : Program) :
    (plainLines l p (l.run p)).map Line.text
      = l.board.text :: (l.numberedPoses p).map fun s => stepLine s.1 (label p s.1) s.2 := by
  have hlines : ((l.run p).trace.zip (labels p)).zipIdx
      = (List.range (p.length + 1)).map fun k => (((l.run (p.take k)).final, label p k), k) := by
    rw [l.trace_eq_map_range, labels_eq_map_range, List.zip_map', zipIdx_map_range]
  unfold plainLines Level.numberedPoses
  rw [hlines, List.map_cons, List.map_map, List.map_map, List.map_map]
  rfl

/-- In time: the frames of the replay are the poses of the run with their numbers. -/
theorem numbered_shown_animation (settings : ReplaySettings) (l : Level) (p : Program) :
    (animation settings (l.run p)).shown.map (fun f => (f.index, f.pose)) = l.numberedPoses p := by
  unfold animation
  rw [(Replay.run_quiet (l.trace_run_ne_nil p) settings).1, Replay.timetable, l.zipIdx_trace,
    List.map_map, List.map_map]
  exact List.map_id _

theorem texts_animatedLines (settings : ReplaySettings) (l : Level) (p : Program) :
    (animatedLines (animation settings (l.run p))).map Line.text
      = (l.numberedPoses p).map fun s => frameLine s.1 s.2 := by
  rw [← numbered_shown_animation settings]
  unfold animatedLines
  rw [List.map_map, List.map_map]
  rfl

/-- The last frame shows the end of the run. -/
theorem getLast?_shown_animation (settings : ReplaySettings) (l : Level) (p : Program) :
    ∃ last, (animation settings (l.run p)).shown.getLast? = some last ∧
      last.pose = (l.run p).final := by
  have hlast : (l.numberedPoses p).getLast? = some (p.length, (l.run p).final) := by
    rw [Level.numberedPoses, List.getLast?_map, List.getLast?_range, if_neg (Nat.succ_ne_zero _)]
    simp
  rw [← numbered_shown_animation settings, List.getLast?_map] at hlast
  obtain ⟨last, hshown, hpair⟩ := Option.map_eq_some_iff.mp hlast
  exact ⟨last, hshown, (Prod.mk.inj hpair).2⟩

/-! ### The end -/

/-- The last line about a run that ended with this pose, and the status to exit with. -/
inductive Closes (l : Level) (p : Program) (last : Pose) : (line : String) → (code : Nat) → Prop
  | onGoal {name : String} (h : last.position = l.goal) (hname : name = Text.quoted l.name) :
      Closes l p last s!"Solved {name} in {p.length} instructions.\n" 0
  | elsewhere {place goal : String} (h : last.position ≠ l.goal)
      (hplace : place = s!"({last.position.x}, {last.position.y}) facing {last.heading.name}")
      (hgoal : goal = s!"({l.goal.x}, {l.goal.y})") :
      Closes l p last s!"Stopped at {place}; the goal is at {goal}.\n" 1

theorem closes_final (l : Level) (p : Program) :
    Closes l p (l.run p).final (verdict l p (l.run p)) (l.run p).exitStatus := by
  unfold verdict Outcome.exitStatus
  by_cases hsolved : (l.run p).solved = true
  · rw [if_pos hsolved, if_pos hsolved]
    exact .onGoal (Level.run_solved_iff.mp hsolved) rfl
  · rw [if_neg hsolved, if_neg hsolved]
    exact .elsewhere (mt Level.run_solved_iff.mpr hsolved) (Pose.text_eq _) (Position.text_eq _)

theorem play_of_prepared {a : Arguments} {settings : Settings} {c : Catalog}
    (hlist : a.list = false) (hselect : c.select a.selector = .ok l)
    (hprepare : l.prepare a.source (!a.noCheck) = .ok p) :
    play a settings c = .ok (shown a.animate settings.replay l p) := by
  unfold play
  rw [if_neg (Bool.eq_false_iff.mp hlist), hselect]
  show (l.prepare a.source (!a.noCheck) >>= _) = _
  rw [hprepare]
  rfl

theorem code_shown (animate : Bool) (settings : ReplaySettings) (l : Level) (p : Program) :
    (shown animate settings l p).code = (l.run p).exitStatus :=
  rfl

/--
**A run looks the same in time as at once.**  The frames of an animated run are the poses
of the run with their numbers, in order and each once, and the replay completes.  What is
printed at once, after the map, is a line for each of these poses that says its number, its
label and the pose; what is printed in time is a line for each that says its number and the
pose; and no line says this of another pose.  The last line and the exit status are the same
in both cases and fit the pose that was shown last.
-/
theorem animation_shows_what_is_printed (l : Level) (p : Program) (settings : Settings) :
    let replay := animation settings.replay (l.run p)
    let printed := shown false settings.replay l p
    let animated := shown true settings.replay l p
    (∀ (a : Arguments) (c : Catalog), a.list = false → c.select a.selector = .ok l →
      l.prepare a.source (!a.noCheck) = .ok p →
        play { a with animate := false } settings c = .ok printed ∧
          play { a with animate := true } settings c = .ok animated) ∧
    replay.outcome = .completed ∧
    replay.shown.map (fun f => (f.index, f.pose)) = l.numberedPoses p ∧
    ∃ label : Nat → String, (label 0 = "start" ∧ ∀ k c, p[k]? = some c → label (k + 1) = c.text) ∧
      ∃ rows frames last line,
        List.Forall₂ (fun s row => StepRow s.1 (label s.1) s.2 row) (l.numberedPoses p) rows ∧
        (∀ row ∈ rows, ∃! s : Nat × Pose, StepRow s.1 (label s.1) s.2 row) ∧
        List.Forall₂ (fun s row => FrameRow s.1 s.2 row) (l.numberedPoses p) frames ∧
        (∀ row ∈ frames, ∃! s : Nat × Pose, FrameRow s.1 s.2 row) ∧
        replay.shown.getLast? = some last ∧
        printed.lines.map Line.text = l.board.text :: rows ++ [line] ∧
        animated.lines.map Line.text = frames ++ [line] ∧
        printed.code = animated.code ∧ Closes l p last.pose line animated.code := by
  intro replay printed animated
  have hcompleted : replay.outcome = .completed :=
    (Replay.run_quiet (l.trace_run_ne_nil p) settings.replay).2.1
  obtain ⟨last, hlast, hpose⟩ := getLast?_shown_animation settings.replay l p
  have hprinted : printed.lines.map Line.text
      = (plainLines l p (l.run p)).map Line.text ++ [verdict l p (l.run p)] := List.map_append
  have hanimated : animated.lines.map Line.text
      = (animatedLines replay).map Line.text ++ [verdict l p (l.run p)] := List.map_append
  have hcloses : Closes l p last.pose (verdict l p (l.run p)) animated.code := by
    rw [hpose]
    exact closes_final l p
  rw [texts_plainLines] at hprinted
  rw [texts_animatedLines] at hanimated
  refine ⟨fun a c hlist hselect hprepare => ⟨?_, ?_⟩, hcompleted,
    numbered_shown_animation settings.replay l p, label p, label_eq p, _, _, last,
    verdict l p (l.run p), ?_, ?_, ?_, ?_, hlast, hprinted, hanimated, rfl, hcloses⟩
  · exact play_of_prepared hlist hselect hprepare
  · exact play_of_prepared hlist hselect hprepare
  · refine List.forall₂_map_right_iff.mpr (List.forall₂_same.mpr fun s _ => ?_)
    exact stepRow_stepLine s.1 (label p s.1) s.2
  · refine List.forall_mem_map.mpr fun s _ => ⟨s, stepRow_stepLine _ _ _, fun t ht => ?_⟩
    obtain ⟨hk, -, htold⟩ := ht.unique (isLabel_label p _) (isLabel_label p _)
      (stepRow_stepLine s.1 (label p s.1) s.2)
    exact Prod.ext hk htold
  · refine List.forall₂_map_right_iff.mpr (List.forall₂_same.mpr fun s _ => ?_)
    exact frameRow_frameLine s.1 s.2
  · refine List.forall_mem_map.mpr fun s _ => ⟨s, frameRow_frameLine _ _, fun t ht => ?_⟩
    obtain ⟨hk, htold⟩ := ht.unique (frameRow_frameLine s.1 s.2)
    exact Prod.ext hk htold

/-- The way through the nook, given in two pieces. -/
theorem animation_shows_what_is_printed_nook :
    let l := Level.nook
    let p := Program.throughNook
    let c : Catalog := { levels := [l] }
    let a : Arguments := { program := ["f, if-wall-ahead:r", "f l f"] }
    let settings : Settings := { replay := { stepInterval := 0 } }
    let replay := animation settings.replay (l.run p)
    let animated := shown true settings.replay l p
    (a.list = false ∧ c.select a.selector = .ok l ∧
      l.prepare a.source (!a.noCheck) = .ok p) ∧
    play { a with animate := true } settings c = .ok animated ∧
    replay.outcome = .completed ∧
    replay.shown.map (fun f => (f.index, f.pose))
      = [(0, ⟨⟨0, 0⟩, .east⟩), (1, ⟨⟨1, 0⟩, .east⟩), (2, ⟨⟨1, 0⟩, .south⟩), (3, ⟨⟨1, 1⟩, .south⟩),
        (4, ⟨⟨1, 1⟩, .east⟩), (5, ⟨⟨2, 1⟩, .east⟩)] ∧
    animated.code = 0 := by
  intro l p c a settings replay animated
  have hselect : c.select a.selector = .ok l := by decide +kernel
  have hprepare : l.prepare a.source (!a.noCheck) = .ok p := by decide +kernel
  have hposes : l.numberedPoses p
      = [(0, ⟨⟨0, 0⟩, .east⟩), (1, ⟨⟨1, 0⟩, .east⟩), (2, ⟨⟨1, 0⟩, .south⟩), (3, ⟨⟨1, 1⟩, .south⟩),
        (4, ⟨⟨1, 1⟩, .east⟩), (5, ⟨⟨2, 1⟩, .east⟩)] := by decide
  have hstatus : (l.run p).exitStatus = 0 := by decide
  have hcode : animated.code = 0 := (code_shown true settings.replay l p).trans hstatus
  obtain ⟨hplay, hcompleted, hshown, -⟩ := animation_shows_what_is_printed l p settings
  have hanimated : play { a with animate := true } settings c = .ok animated :=
    (hplay a c rfl hselect hprepare).2
  exact ⟨⟨rfl, hselect, hprepare⟩, hanimated, hcompleted, hshown.trans hposes, hcode⟩

end CommandLine

end RobotMaze
