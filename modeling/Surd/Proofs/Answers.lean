import Mathlib
import Surd.Calculator
import Surd.Proofs.Display.Failures
import Surd.Proofs.Expr.Failures
import Surd.Proofs.LinearSystem.Failures
import Surd.Proofs.Polynomial.Escapes

/-!
# Every input is answered

Whatever is evaluated or solved as a system, a calculator answers: either with all parts of a result
and no failure, or with the text and the code of a failure and no part of a result. One failure is not
answered, the remainder by zero, which arises while an expression is read.
-/

namespace Surd

/-- A result is complete, or a failure with its text and code is all there is. -/
inductive EvalResult.IsAnswer : EvalResult → Prop
  | value (result approx : String) : IsAnswer { ok := true, result, approx }
  | failure (error errorCode : String) : IsAnswer { ok := false, error, errorCode }

/-- The same of the unknowns of a system. -/
inductive SolveResult.IsSystemAnswer : SolveResult → Prop
  | solution (exact approx : List String) (solutions : List (String × String)) :
      IsSystemAnswer { ok := true, type := "system", exact, approx, solutions }
  | failure (error errorCode : String) : IsSystemAnswer { ok := false, type := "system", error, errorCode }

namespace Calculator

section
variable {cfg : Settings} (hsqrt : ∀ x, FailsOnly Caught (cfg.elementary.sqrt x)) (f : Format)
include hsqrt

theorem caught_solutionForm (x : String × Gaussian) : FailsOnly Caught (solutionForm cfg f x) := by
  have hsolution : FailsOnly Caught (Display.solution cfg f.style x.1.toList x.2) := by
    unfold Display.solution
    exact (Display.caught_exact hsqrt f.style x.2).bind fun _ _ => .pure _
  exact hsolution.bind fun _ _ => .pure _

theorem caught_value (z : Gaussian) : FailsOnly Caught (value cfg f z) :=
  (caught_exactForm cfg f hsqrt z).bind fun _ _ => (caught_decimalForm cfg f hsqrt z).bind fun _ _ => .pure _

theorem caught_evalValue (x : Expr) : FailsOnly Caught (x.eval cfg >>= value cfg f) :=
  (Expr.caught_eval hsqrt x).bind fun z _ => caught_value hsqrt f z

theorem caught_solvedSystem (equations : List (List Char)) : FailsOnly Caught (solvedSystem cfg f equations) := by
  unfold solvedSystem
  refine (LinearSystem.caught_solveEquations cfg equations).bind fun xs _ => ?_
  refine .bind (.mapM fun x _ => caught_solutionForm hsqrt f x) fun _ _ => ?_
  refine .bind (.mapM fun x _ => caught_decimalForm cfg f hsqrt x.2) fun _ _ => ?_
  exact .bind (.mapM fun x _ => caught_exactForm cfg f hsqrt x.2) fun _ _ => .pure _

end

/-! ## Answers -/

section
variable {cfg : Settings} {f : Format}

theorem isAnswer_value {z : Gaussian} {r : EvalResult} (h : value cfg f z = .ok r) : r.IsAnswer := by
  obtain ⟨result, _, h⟩ := bind_ok_iff.mp h
  obtain ⟨approx, _, h⟩ := bind_ok_iff.mp h
  cases h
  exact .value result approx

theorem isAnswer_evaluate {s : List Char} {r : EvalResult} (h : evaluate cfg f s = .ok r) : r.IsAnswer := by
  unfold evaluate at h
  split at h
  · rename_i r' hvalue
    cases h
    obtain ⟨z, _, hz⟩ := bind_ok_iff.mp hvalue
    exact isAnswer_value hz
  · split at h
    · cases h
      exact .failure _ _
    · cases h

theorem isSystemAnswer_solveSystem {equations : List (List Char)} {r : SolveResult}
    (h : solveSystem cfg f equations = .ok r) : r.IsSystemAnswer := by
  unfold solveSystem at h
  split at h
  · rename_i r' hsolved
    cases h
    unfold solvedSystem at hsolved
    obtain ⟨xs, _, hsolved⟩ := bind_ok_iff.mp hsolved
    obtain ⟨exact, _, hsolved⟩ := bind_ok_iff.mp hsolved
    obtain ⟨approx, _, hsolved⟩ := bind_ok_iff.mp hsolved
    obtain ⟨values, _, hsolved⟩ := bind_ok_iff.mp hsolved
    cases hsolved
    exact .solution exact approx _
  · split at h
    · cases h
      exact .failure _ _
    · cases h

/-- What escapes is a failure to read that is not caught. -/
theorem evaluate_eq_error_iff (hsqrt : ∀ x, FailsOnly Caught (cfg.elementary.sqrt x)) {s : List Char} {e : Failure} :
    evaluate cfg f s = .error e ↔ e = .floatDivisionByZero ∧ Expr.read cfg s = .error .floatDivisionByZero := by
  unfold evaluate evaluated Surd.evaluate
  cases hread : Expr.read cfg s with
  | ok x =>
    have hcaught := caught_evalValue hsqrt f x
    simp only [ok_bind]
    cases hvalue : x.eval cfg >>= value cfg f with
    | ok r => simp [pure, Except.pure]
    | error e' =>
      have h : e'.kind.isCaught = true := hcaught e' hvalue
      simp [h, pure, Except.pure]
  | error e' =>
    rcases Expr.read_uncaught cfg s e' hread with h | rfl
    · have hcaught : e'.kind.isCaught = true := h
      have hne : e' ≠ .floatDivisionByZero := by
        rintro rfl
        cases h
      simp [bind, Except.bind, pure, Except.pure, hcaught, hne]
    · have hescapes : Failure.floatDivisionByZero.kind.isCaught = false := rfl
      simp [bind, Except.bind, throw, throwThe, MonadExceptOf.throw, hescapes, eq_comm]

end

/-- A calculator answers: no failure of evaluating a tree and writing its value escapes, and none of
solving a system. A text is answered where it can be read, and where reading it fails with a failure
that is caught. -/
theorem answers (cfg : Settings) (f : Format)
    (hsqrt : ∀ x e, cfg.elementary.sqrt x = .error e → e.kind = .value) :
    (∀ x e, (Expr.eval cfg x >>= value cfg f) = .error e → e.kind.isCaught = true) ∧
    (∀ s, Expr.read cfg s ≠ .error .floatDivisionByZero → ∃ r, evaluate cfg f s = .ok r ∧ r.IsAnswer) ∧
    ∀ equations, ∃ r, solveSystem cfg f equations = .ok r ∧ r.IsSystemAnswer := by
  have hcaught : ∀ x, FailsOnly Caught (cfg.elementary.sqrt x) := by
    intro x e he
    rw [Caught, hsqrt x e he]
    rfl
  refine ⟨caught_evalValue hcaught f, ?_, ?_⟩
  · intro s hread
    cases h : evaluate cfg f s with
    | ok r => exact ⟨r, rfl, isAnswer_evaluate h⟩
    | error e => exact absurd ((evaluate_eq_error_iff hcaught).mp h).2 hread
  · intro equations
    cases h : solveSystem cfg f equations with
    | ok r => exact ⟨r, rfl, isSystemAnswer_solveSystem h⟩
    | error e =>
      have hsolved := caught_solvedSystem hcaught f equations
      unfold solveSystem at h
      split at h
      · cases h
      · rename_i e' hfails
        have : e'.kind.isCaught = true := hsolved e' hfails
        simp [this, pure, Except.pure] at h

/-- The inverse of zero is read, and evaluating it fails in a way that is answered. -/
theorem answers_inverseOfZero :
    Expr.read {} "2 + 1/0".toList ≠ .error .floatDivisionByZero ∧
      ∃ r, evaluate {} { precision := 6 } "2 + 1/0".toList = .ok r ∧ r.IsAnswer := by
  have hread : (Expr.read {} "2 + 1/0".toList).toBool = true := by decide +kernel
  have hne : Expr.read {} "2 + 1/0".toList ≠ .error .floatDivisionByZero := by
    intro h
    rw [h] at hread
    cases hread
  exact ⟨hne, (answers {} { precision := 6 } kind_of_sqrt_error).2.1 _ hne⟩

end Calculator

end Surd
