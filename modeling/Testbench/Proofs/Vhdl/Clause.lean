import Testbench.Proofs.Vhdl.Declaration
import Testbench.Vhdl.Generic
import Testbench.Vhdl.Port

/-!
# Reading clauses

Generics and ports are read in the same way: the first clause with a keyword is found in the
body of an entity, its inside is split into declarations, and each of them is read by itself.
So a clause is read declaration by declaration, and a clause with another keyword does not
matter, wherever it stands.
-/

namespace Testbench.Vhdl

open Nesting

variable {α : Type} {keyword other inside t : Text} {malformed : Declaration.Fault → Error}
  {read : Text → Except Error (List α)}

namespace Declaration

/-- Reads the declarations in the first clause with a keyword in the body of an entity. -/
def readClause (keyword : Text) (malformed : Fault → Error) (read : Text → Except Error (List α))
    (body : Text) : Except Error (List α) := do
  match ← (clause? keyword body).mapError malformed with
  | none => return []
  | some inside => return (← (list inside).mapM read).flatten

end Declaration

open Declaration

/-- The generics of an entity are what its clause of generics declares. -/
theorem Generic.ofBody_eq_readClause :
  Generic.ofBody = readClause "generic" (.malformedGeneric "generic") Generic.ofDeclaration?
  := rfl

/-- The ports of an entity are what its clause of ports declares. -/
theorem Port.ofBody_eq_readClause :
  Port.ofBody = readClause "port" (.malformedPort "port") Port.ofDeclaration
  := rfl

namespace Declaration

/-! ### Single clauses -/

/-- The declarations in the trim of a text are those in the text. -/
theorem list_trim (t : Text) :
  list t.trim = list t
  := by
  rw [list, list, split_trim (by decide)]

/-- What is read of a body depends on the clause that is found there. -/
theorem readClause_congr {body body' : Text} (h : clause? keyword body = clause? keyword body') :
  readClause keyword malformed read body = readClause keyword malformed read body'
  := by
  rw [readClause, readClause, h]

/-- A clause at the start of a body is read. -/
theorem readClause_clauseText (hk : IsWord keyword) (hi : Balanced inside) (rest : Text) :
  readClause keyword malformed read (clauseText keyword inside ++ rest) =
    ((list inside).mapM read).map List.flatten
  := by
  rw [readClause, clause?_clauseText hk hi rest]
  simp only [Except.mapError]
  rw [← list_trim inside]
  rfl

/-- What a clause with one declaration in it gives: what is read of the declaration, and nothing if
it is blank. -/
def readOne (read : Text → Except Error (List α)) (t : Text) : Except Error (List α) :=
  if t.trim ≠ [] then read t.trim else .ok []

/-- A clause with declarations behind semicolons gives what they give one by one. -/
theorem readClause_join {ds : List Text} (hk : IsWord keyword)
    (h : ∀ d ∈ ds, IsPart d) :
  readClause keyword malformed read (clauseText keyword (Text.join "; " ds)) =
    (ds.mapM (readOne read)).map List.flatten
  := by
  have balanced : Balanced (Text.join "; " ds) :=
    Balanced.join (Balanced.of_isPlain (by decide)) fun d hd => (h d hd).balanced
  have clause : readClause keyword malformed read (clauseText keyword (Text.join "; " ds) ++ []) =
      _ := readClause_clauseText hk balanced []
  rw [List.append_nil, list_join h, map_flatten_mapM_filter, List.mapM_map] at clause
  rw [clause]
  congr 1
  apply mapM_congr
  intro d _
  simp [readOne]

/-- A clause with a single declaration gives what the declaration gives. -/
theorem readClause_single (hk : IsWord keyword) (h : IsPart t) :
  readClause keyword malformed read (clauseText keyword t) = readOne read t
  := by
  have one : readClause keyword malformed read (clauseText keyword (Text.join "; " [t])) = _ :=
    readClause_join hk (by simpa using h)
  rw [Text.join, List.intercalate_singleton, map_flatten_mapM_cons] at one
  rw [one]
  cases readOne read t <;> simp [bind, Except.bind, Except.map, pure, Except.pure]

/-- A clause is read declaration by declaration. -/
theorem readClause_join_eq_mapM {ds : List Text} (hk : IsWord keyword)
    (h : ∀ d ∈ ds, IsPart d) :
  readClause keyword malformed read (clauseText keyword (Text.join "; " ds)) =
    (ds.mapM fun d => readClause keyword malformed read (clauseText keyword d)).map List.flatten
  := by
  rw [readClause_join hk h]
  congr 1
  apply mapM_congr
  intro d hd
  apply (readClause_single hk (h d hd)).symm

/-! ### Two clauses -/

/-- A clause is read in the same way if a clause with another keyword follows it. -/
theorem readClause_append (hk : IsWord keyword) (hi : Balanced inside) (rest : Text) :
  readClause keyword malformed read (clauseText keyword inside ++ rest) =
    readClause keyword malformed read (clauseText keyword inside)
  := by
  apply readClause_congr
  have alone := clause?_clauseText hk hi []
  rw [List.append_nil] at alone
  rw [clause?_clauseText hk hi rest, alone]

/-- A clause is read in the same way behind a clause with another keyword. -/
theorem readClause_clauseText_append {s : Text} (hk : IsWord keyword) (ho : IsWord other)
    (hs : Balanced s) (apart : ¬other.sameWord keyword) (t : Text) :
  readClause keyword malformed read (clauseText other s ++ ' ' :: t) =
    readClause keyword malformed read t
  := by
  apply readClause_congr
  rw [clause?_clauseText_append hk ho hs apart, clause?_space hk]

end Declaration

end Testbench.Vhdl
