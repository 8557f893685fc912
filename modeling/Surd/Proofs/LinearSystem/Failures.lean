import Mathlib
import Surd.LinearSystem
import Surd.Proofs.Equation.Failures

/-!
# Failures of solving a linear system

Whatever the texts, solving them as a system fails only in ways that are caught. No term has a power in
it, so that all failures to read an equation have a code.
-/

namespace Surd

/-! ## Reading -/

section
variable (cfg : Settings)

theorem Equation.coded_linearTerm (size : Nat) {term : List Char} (h : term ≠ []) :
    FailsOnly Coded (linearTerm cfg size term) := by
  unfold linearTerm
  refine (coded_body h).bind fun parts _ => ?_
  dsimp only
  split
  · split
    · exact .throw rfl
    · exact (coded_coefficient cfg _ term).bind fun _ _ => .pure _
  · exact .throw rfl
  · refine (coded_coefficient cfg _ term).bind fun _ _ => ?_
    split
    · exact .throw rfl
    · exact .pure _

theorem Equation.coded_systemRow (s : List Char) (size : Nat) : FailsOnly Coded (systemRow cfg s size) := by
  unfold systemRow
  refine (coded_terms cfg s).bind fun ts hts => ?_
  exact .bind (.mapM fun t ht => coded_linearTerm cfg size (ne_nil_of_mem_terms cfg hts t ht)) fun _ _ => .pure _

end

/-! ## Elimination -/

theorem Gaussian.caught_div (z w : Gaussian) : FailsOnly Caught (z.div w) := by
  unfold div
  split
  · exact (caught_write z).bind fun _ _ => .throw rfl
  · exact .pure _

namespace LinearSystem

theorem caught_weight (r : Row) : FailsOnly Caught (weight r) := by
  intro e he
  exact caught_ofFraction _ e (map_error_iff.mp he)

theorem caught_choosePivot (first : Row) (rest : List Row) : FailsOnly Caught (choosePivot first rest) := by
  unfold choosePivot
  refine (caught_weight first).bind fun _ _ => ?_
  exact .bind (.mapM fun r _ => caught_weight r) fun _ _ => .pure _

theorem caught_eliminate (n column : Nat) (rows : List Row) : FailsOnly Caught (eliminate column n rows) := by
  induction n generalizing column rows with
  | zero =>
    rw [eliminate]
    · exact .pure _
    · simp
  | succ n ih =>
    cases rows with
    | nil =>
      rw [eliminate]
      · exact .pure _
      · simp
    | cons first rest =>
      rw [eliminate]
      refine (caught_choosePivot first rest).bind fun chosen _ => ?_
      dsimp only
      split
      · exact .throw rfl
      · refine .bind (.mapM fun r _ => (Gaussian.caught_div _ _).bind fun _ _ => .pure _) fun _ _ => ?_
        exact (ih _ _).bind fun _ _ => (Gaussian.caught_div _ _).bind fun _ _ => .pure _

section
variable (cfg : Settings)

theorem caught_readRow (size : Nat) (entries : List Number) : FailsOnly Caught (readRow cfg size entries) := by
  unfold readRow
  split
  · exact .throw rfl
  · exact .bind (.mapM fun x _ => x.caught_toGaussian cfg) fun _ _ => .pure _

theorem caught_solve (matrix : List (List Number)) : FailsOnly Caught (solve cfg matrix) := by
  unfold solve
  dsimp only
  split
  · exact .throw rfl
  · refine .bind (.mapM fun row _ => caught_readRow cfg _ row) fun rows _ => ?_
    exact (caught_eliminate _ 0 rows).bind fun _ _ => .pure _

theorem caught_equationRow (size : Nat) (s : List Char) : FailsOnly Caught (equationRow cfg size s) :=
  .bind (fun e he => caught_of_coded (Equation.coded_systemRow cfg s size e he)) fun _ _ => .pure _

theorem caught_solveEquations (equations : List (List Char)) : FailsOnly Caught (solveEquations cfg equations) := by
  unfold solveEquations
  dsimp only
  split
  · exact .throw rfl
  · exact .bind (.mapM fun s _ => caught_equationRow cfg _ s) fun matrix _ => caught_solve cfg matrix

end

end LinearSystem

end Surd
