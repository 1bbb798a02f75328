import Testbench.Command.Task
import Testbench.Proofs.Command.Path
import Testbench.Proofs.Vhdl.Entity

/-!
# The names of outputs

What is read from a file is told by its name.  The files that are made for an entity have names
that lead to a file in whatever directory they are seen from; no record and no makefile has the
name of a source, and no record has the name of a bench.
-/

namespace Testbench

open Text Vhdl

variable {p name : Text} {e : Entity} {config : Config} {kind : SourceKind}

/-! ### Kinds of files -/

namespace SourceKind

theorem ofPath?_eq_of_fileName? (h : Path.fileName? p = some name) :
  ofPath? p = ofPath? name
  := by
  rw [ofPath?, ofPath?, Path.extension?_eq_of_fileName? h]

/-- A file from which an entity is read has a name. -/
theorem exists_fileName?_of_ofPath? (h : ofPath? p = some kind) :
  ∃ name, Path.fileName? p = some name
  := by
  apply Option.ne_none_iff_exists'.1
  intro none
  simp [ofPath?, Path.extension?, none] at h

end SourceKind

/-! ### Names that are made -/

/-- A character that no word has is in no identifier. -/
theorem not_mem_text {c : Char} (h : ¬isWordChar c) (i : Identifier) :
  c ∉ i.text
  := fun mem => h (i.isWord.forall_mem c mem)

theorem isFileName_recordFile (e : Entity) :
  Path.IsFileName (recordFile e)
  := by
  apply Path.isFileName_of_length
  · simp [recordFile]
  · simpa [recordFile] using not_mem_text (c := '/') (by decide) e.name

/-- A suffix without a slash gives the name of a file. -/
theorem isFileName_benchFile (e : Entity) (h : '/' ∉ config.bench.suffix) :
  Path.IsFileName (benchFile e config)
  := by
  apply Path.isFileName_of_length
  · simp [benchFile]
  · simpa [benchFile, Bench.topName, h] using not_mem_text (c := '/') (by decide) e.name

theorem isFileName_makefile :
  Path.IsFileName Makefile.fileName
  := Path.isFileName_of_length (by decide) (by decide)

/-- What is written as a record is read as a record. -/
theorem ofPath?_recordFile (e : Entity) :
  SourceKind.ofPath? (recordFile e) = some .record
  := by
  have extension : Path.extension? (recordFile e) = some ("json" : Text) :=
    (isFileName_recordFile e).extension? e.name.isWord.ne_nil (by decide)
  rw [SourceKind.ofPath?, extension]
  decide

/-- The bench and the record end differently. -/
theorem not_sameWord_recordFile (e : Entity) (config : Config) :
  ¬(benchFile e config).sameWord (recordFile e)
  := by
  rw [sameWord_iff, benchFile, recordFile, lower_append, lower_append]
  intro same
  have ends : some 'd' = some 'n' := by
    simpa [lower] using congrArg List.getLast? same
  exact absurd ends (by decide)

end Testbench
