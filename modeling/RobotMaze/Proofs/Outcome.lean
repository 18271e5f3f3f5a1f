/-
The outcome of a run survives being written down.

An outcome is written as a document of a list of tables, a value and a table: the poses of the
trace, the success, and the last pose.  A notation may have its own order for these, say
values first; fields are looked up by name, and the outcome is the same.

The one thing that could go wrong is a coordinate: it has a place in a document if it is an
integer of 64 bits, and it is read if it is one of 32 bits, which is what positions are made of
(`Outcome.Fits`).  The robot stands on the board all the time, so no coordinate of a run is
too large for that if the sides of the board are not.
-/
import RobotMaze.Datum.Play
import RobotMaze.Proofs.Forms
import RobotMaze.Proofs.Toml.Document
import RobotMaze.Proofs.Walls

namespace RobotMaze

open Datum Form

/-! ### Poses as tables -/

namespace Pose

/-- A pose is a table of values: what fits into 32 bits fits into 64. -/
theorem isTable_fields {p : Pose} (h : p.position.Fits) : IsTable p.fields where
  plain f hf := by
    have hplain : ∀ name ∈ ["position", "direction"], IsPlainName name := by decide
    exact hplain f.1 (List.mem_map_of_mem hf)
  distinct := by
    have hdistinct : ["position", "direction"].Nodup := by decide
    exact hdistinct
  values f hf := by
    simp only [fields, List.mem_cons, List.not_mem_nil, or_false] at hf
    rcases hf with rfl | rfl
    · refine .list fun item hitem => ?_
      obtain ⟨hx, hy⟩ := h
      rcases List.mem_pair.mp hitem with rfl | rfl
      · exact .int (by omega)
      · exact .int (by omega)
    · exact .scalar (.text _)

end Pose

/-! ### Outcomes as documents -/

namespace Outcome

/-- Every coordinate is an integer of 32 bits with a sign. -/
structure Fits (o : Outcome) : Prop where
  trace : ∀ p ∈ o.trace, p.position.Fits
  final : o.final.position.Fits

/-- The tables of the trace. -/
def tables (o : Outcome) : List (List (String × Datum)) :=
  o.trace.map Pose.fields

/-- The fields that are written for an outcome. -/
def fields (o : Outcome) : List (String × Datum) :=
  [("trace", .list (o.tables.map .record)), ("success", write o.solved),
    ("final_state", .record o.final.fields)]

theorem write_eq (o : Outcome) : write o = .record o.fields := by
  rw [fields, tables, List.map_map]
  rfl

variable {o : Outcome}

/-- An outcome is a document if its coordinates fit. -/
theorem isDocument_fields (h : o.Fits) : IsDocument o.fields where
  plain f hf := by
    have hplain : ∀ name ∈ ["trace", "success", "final_state"], IsPlainName name := by decide
    exact hplain f.1 (List.mem_map_of_mem hf)
  distinct := by
    have hdistinct : ["trace", "success", "final_state"].Nodup := by decide
    exact hdistinct
  parts f hf := by
    simp only [fields, List.mem_cons, List.not_mem_nil, or_false] at hf
    rcases hf with rfl | rfl | rfl
    · refine .tables fun fs hfs => ?_
      obtain ⟨p, hp, rfl⟩ := List.mem_map.mp hfs
      exact Pose.isTable_fields (h.trace p hp)
    · exact .value (.scalar (.bool o.solved))
    · exact .table (Pose.isTable_fields h.final)

/-- The outcome is read back, in whatever order its fields are. -/
theorem readsBack_outcome (h : o.Fits) : ReadsBack .toml o := by
  intro d hd
  obtain ⟨fs, rfl, hfields⟩ := Same.record_inv hd
  have htraceReads : ReadsBack .toml o.trace :=
    readsBack_list fun p hp => readsBack_pose .toml (h.trace p hp)
  have htrace := htraceReads.required? (hfields "trace")
  have hsolved := (readsBack_bool .toml o.solved).required? (hfields "success")
  have hfinal := (readsBack_pose .toml h.final).required? (hfields "final_state")
  show (do
    let trace ← required? .toml (fs.lookup "trace")
    let solved ← required? .toml (fs.lookup "success")
    let final ← required? .toml (fs.lookup "final_state")
    some ({ trace, solved, final } : Outcome)) = some o
  rw [htrace, hsolved, hfinal]
  rfl

/-- An outcome is read back from its document if its coordinates fit. -/
theorem read?_print? {codec : Codec} (hcodec : codec.Faithful) (h : o.Fits) :
    ∃ s, codec.print? (write o) = some s ∧
      (codec.read? s).bind (Form.read? .toml) = some o := by
  have hdocument := isDocument_fields h
  obtain ⟨s, hs⟩ := hcodec.writes hdocument
  obtain ⟨d, hread, hsame⟩ := hcodec.reads hdocument hs
  rw [← write_eq] at hs hsame
  exact ⟨s, hs, by rw [hread, Option.bind_some, readsBack_outcome h d hsame]⟩

end Outcome

/-! ### Runs -/

theorem Terrain.fits_of_contains {t : Terrain} {p : Position} (hwidth : t.width ≤ 0x80000000)
    (hheight : t.height ≤ 0x80000000) (h : t.contains p = true) : p.Fits := by
  obtain ⟨hx, hw, hy, hh⟩ := contains_iff.mp h
  exact ⟨by omega, by omega⟩

namespace Level

/-- On a board whose sides fit, all coordinates of a run do. -/
theorem fits_run {l : Level} (hwidth : l.board.width ≤ 0x80000000)
    (hheight : l.board.height ≤ 0x80000000) (p : Program) : (l.run p).Fits := by
  have hend := Terrain.contains_of_isWall_eq_false (l.isWall_final p)
  exact ⟨fun q hq => Terrain.fits_of_contains hwidth hheight (l.free_of_mem_trace hq).1,
    Terrain.fits_of_contains hwidth hheight hend⟩

/--
**The outcome of a run is read back from its document.**  Whatever the program and however
long the trace, the outcome can be written down, and what is written is read as the same
outcome, if its coordinates are integers of 32 bits; and on a board whose sides fit they are.
This holds with every codec that keeps documents.
-/
theorem outcome_round_trip {codec : Codec} (hcodec : codec.Faithful) (l : Level) (p : Program) :
    ((l.run p).Fits → ∃ s, codec.print? (write (l.run p)) = some s ∧
      (codec.read? s).bind (read? .toml) = some (l.run p)) ∧
    (l.board.width ≤ 0x80000000 → l.board.height ≤ 0x80000000 → (l.run p).Fits) :=
  ⟨Outcome.read?_print? hcodec, fun hwidth hheight => fits_run hwidth hheight p⟩

/-- One step into the nook, and how it is written: the success comes first. -/
theorem outcome_round_trip_nook :
    let o := nook.run [.act .forward]
    let s := "success = false\n\n"
      ++ "[[trace]]\nposition = [0, 0]\ndirection = \"east\"\n\n"
      ++ "[[trace]]\nposition = [1, 0]\ndirection = \"east\"\n\n"
      ++ "[final_state]\nposition = [1, 0]\ndirection = \"east\"\n"
    Toml.codec.Faithful ∧ nook.board.width ≤ 0x80000000 ∧ nook.board.height ≤ 0x80000000 ∧
      o.Fits ∧ Toml.codec.print? (write o) = some s ∧
      (Toml.codec.read? s).bind (read? .toml) = some o := by
  intro o s
  obtain ⟨hread, hfits⟩ := outcome_round_trip Toml.faithful_codec nook [.act .forward]
  have hwidth : nook.board.width ≤ 0x80000000 := by decide
  have hheight : nook.board.height ≤ 0x80000000 := by decide
  have htext : Toml.codec.print? (write o) = some s := by decide +kernel
  obtain ⟨s', hprint, hback⟩ := hread (hfits hwidth hheight)
  obtain rfl : s = s' := Option.some.inj (htext.symm.trans hprint)
  exact ⟨Toml.faithful_codec, hwidth, hheight, hfits hwidth hheight, htext, hback⟩

end Level

end RobotMaze
