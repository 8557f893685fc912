import Mathlib
import Surd.Proofs.Display.Failures
import Surd.Proofs.Polynomial.Failures
import Surd.Proofs.Text.Writing

/-!
# What escapes a calculator that solves a polynomial

A calculator passes on two failures: a division by a leading coefficient that vanishes as a double,
and, where another failure is to be shown with its coefficients, the failure to write these.
-/

namespace Surd

/-! ## Showing coefficients -/

/-- The integers that a number is made of can all be written. Doubles can always be. -/
def Number.Writable : Number → Prop
  | .int n => Surd.Writable n
  | .fraction x => Rational.Writable x
  | .double _ | .complexDouble .. => True
  | .gaussian z => Rational.Writable z.re ∧ Rational.Writable z.im

theorem Rational.writesIf_writeParts (x : Rat) : WritesIf (Rational.Writable x) (Rational.writeParts x) :=
  ((writesIf_writeInt x.num).bind fun _ => (writesIf_writeInt x.den).bind fun _ => .pure _).congr
    (by simp [Rational.Writable])

theorem Number.writesIf_writeParts (x : Number) : WritesIf x.Writable x.writeParts := by
  cases x with
  | int n => exact writesIf_writeInt n
  | fraction x => exact Rational.writesIf_writeParts x
  | double x => exact .pure _
  | complexDouble x y => exact .pure _
  | gaussian z =>
    have h := (Rational.writesIf_writeParts z.re).bind fun re => (Rational.writesIf_writeParts z.im).bind fun im =>
      WritesIf.pure ("Complex(".toList ++ re ++ ", ".toList ++ im ++ [')'])
    exact h.congr (by simp [Number.Writable])

theorem writesIf_showCoefficients (cs : List Number) :
    WritesIf (∀ c ∈ cs, c.Writable) (Calculator.showCoefficients cs) :=
  ((WritesIf.mapM Number.writesIf_writeParts cs).bind fun _ => .pure _).congr (by simp)

/-! ## Solving -/

section
variable (cfg : Settings) (f : Format)

theorem Calculator.caught_exactForm (hsqrt : ∀ x, FailsOnly Caught (cfg.elementary.sqrt x)) (z : Gaussian) :
    FailsOnly Caught (exactForm cfg f z) :=
  (Display.caught_exact hsqrt f.style z).bind fun _ _ => .pure _

theorem Calculator.caught_decimalForm (hsqrt : ∀ x, FailsOnly Caught (cfg.elementary.sqrt x)) (z : Gaussian) :
    FailsOnly Caught (decimalForm cfg f z) :=
  (Display.caught_approximate hsqrt f z).bind fun _ _ => .pure _

theorem caught_rootsResult (hsqrt : ∀ x, FailsOnly Caught (cfg.elementary.sqrt x)) (roots : List Gaussian)
    (degree : Int) : FailsOnly Caught (Calculator.rootsResult cfg f roots degree) := by
  unfold Calculator.rootsResult
  refine .bind (.mapM fun z _ => Calculator.caught_exactForm cfg f hsqrt z) fun exact _ => ?_
  exact .bind (.mapM fun z _ => Calculator.caught_decimalForm cfg f hsqrt z) fun approx _ => .pure _

theorem solved_uncaught_iff (hsqrt : ∀ x, FailsOnly Caught (cfg.elementary.sqrt x))
    (hone : cfg.elementary.pow 1 3 = 1) (cs : List Number) (e : Failure) :
    (Calculator.solved cfg f cs = .error e ∧ ¬Caught e) ↔ e = .floatDivisionByZero ∧ LeadVanishes cfg cs := by
  have hroots := caught_rootsResult cfg f hsqrt
  unfold Calculator.solved
  dsimp only
  split
  · rename_i hdegree
    simp only [(Simultaneous.caught_solve cfg cs).escapes_bind_iff, (hroots _ _).escapes_bind_iff]
    constructor
    · intro h
      obtain ⟨s, _, r, _, he, _⟩ := h
      cases he
    · intro h
      obtain ⟨_, h⟩ := h
      have := length_of_leadVanishes cfg h
      omega
  · rw [FailsOnly.escapes_bind_iff_first fun roots _ => hroots roots _]
    exact solvePolynomial_uncaught_iff cfg hsqrt hone cs e

theorem solvePolynomial_error_of_caught {cs : List Number} {e : Failure} (hs : Calculator.solved cfg f cs = .error e)
    (hc : Caught e) : WritesIf (∀ c ∈ cs, c.Writable) (Calculator.solvePolynomial cfg f cs) := by
  have hcaught : e.kind.isCaught = true := hc
  unfold Calculator.solvePolynomial
  simp only [hs, hcaught, if_true]
  exact ((writesIf_showCoefficients cs).bind fun _ => .pure _).congr (and_iff_left trivial)

/-- A calculator that solves a polynomial fails in two ways: it divides by a leading coefficient that
vanishes as a double, or it cannot write the coefficients that led to another failure. -/
theorem solvePolynomial_escapes (hsqrt : ∀ x e, cfg.elementary.sqrt x = .error e → e.kind = .value)
    (hone : cfg.elementary.pow 1 3 = 1) (cs : List Number) (e : Failure) :
    Calculator.solvePolynomial cfg f cs = .error e ↔
      (e = .floatDivisionByZero ∧ LeadVanishes cfg cs) ∨
      (e = .tooLongToWrite ∧ (∃ c ∈ cs, ¬c.Writable) ∧
        ∃ e', Calculator.solved cfg f cs = .error e' ∧ e'.kind.isCaught = true) := by
  have hcaught : ∀ x, FailsOnly Caught (cfg.elementary.sqrt x) := by
    intro x e he
    rw [Caught, hsqrt x e he]
    rfl
  have hsolved := solved_uncaught_iff cfg f hcaught hone cs
  cases hs : Calculator.solved cfg f cs with
  | ok r =>
    simp only [Calculator.solvePolynomial, hs]
    constructor
    · intro h
      cases h
    · intro h
      rcases h with h | ⟨_, _, e', h, _⟩
      · cases hs.symm.trans ((hsolved e).mpr h).1
      · cases h
  | error e₀ =>
    by_cases hc : Caught e₀
    · rw [solvePolynomial_error_of_caught cfg f hs hc e]
      constructor
      · intro h
        obtain ⟨he, hwritable⟩ := h
        exact .inr ⟨he, by simpa using hwritable, e₀, rfl, hc⟩
      · intro h
        rcases h with h | ⟨he, hwritable, _⟩
        · obtain ⟨hfail, hnot⟩ := (hsolved e).mpr h
          cases hs.symm.trans hfail
          exact absurd hc hnot
        · exact ⟨he, by simpa using hwritable⟩
    · obtain ⟨rfl, hvanishes⟩ := (hsolved e₀).mp ⟨hs, hc⟩
      simp only [Calculator.solvePolynomial, hs]
      constructor
      · intro h
        cases h
        exact .inl ⟨rfl, hvanishes⟩
      · intro h
        rcases h with ⟨rfl, _⟩ | ⟨_, _, e', h, hcaught'⟩
        · rfl
        · cases h
          exact absurd hcaught' hc

end

/-! ### A cubic with a tiny leading coefficient -/

theorem kind_of_sqrt_error (x : Binary64) (e : Failure) (h : x.sqrt = .error e) : e.kind = .value := by
  cases x with
  | nan => cases h
  | infinite negative =>
    cases negative with
    | false => cases h
    | true =>
      cases h
      rfl
  | finite negative rank =>
    simp only [Binary64.sqrt] at h
    split at h
    · cases h
    · split at h
      · cases h
        rfl
      · cases h

/-- The machine's functions, with cubes by multiplication. -/
def multiplied : Settings := { elementary := { Elementary.native with pow := fun x _ => x * x * x } }

/-- The coefficients of `x³ / 10²⁰⁰ - 1`. -/
def tinyLead : List Number := [.fraction (1 / 10 ^ 200), .fraction 0, .fraction 0, .fraction (-1)]

theorem solvePolynomial_tinyLead_native :
    Calculator.solvePolynomial {} { precision := 6 } tinyLead = .error .floatDivisionByZero := by
  decide +kernel

theorem leadVanishes_tinyLead : LeadVanishes multiplied tinyLead := by
  have hlead : Binary64.ofFraction (1 / 10 ^ 200) = .ok (Binary64.ofRat (1 / 10 ^ 200)) := by decide +kernel
  have hzero : Binary64.ofFraction 0 = .ok 0 := by decide +kernel
  have hlast : Binary64.ofFraction (-1) = .ok (-1) := by decide +kernel
  have hvanishes : (Cubic.nat 3 * Binary64.ofRat (1 / 10 ^ 200) * Binary64.ofRat (1 / 10 ^ 200)).isZero = true := by
    decide +kernel
  exact ⟨.ofRat (1 / 10 ^ 200), .ofRat 0, .ofRat 0, .ofRat (-1), rfl, by decide +kernel, _, 0, 0, -1, hlead, hzero,
    hzero, hlast, .inl hvanishes⟩

theorem solvePolynomial_tinyLead :
    (∀ x e, multiplied.elementary.sqrt x = .error e → e.kind = .value) ∧ multiplied.elementary.pow 1 3 = 1 ∧
      Calculator.solvePolynomial multiplied { precision := 6 } tinyLead = .error .floatDivisionByZero := by
  have hone : multiplied.elementary.pow 1 3 = 1 := by decide +kernel
  exact ⟨kind_of_sqrt_error, hone, (solvePolynomial_escapes multiplied { precision := 6 } kind_of_sqrt_error hone
    tinyLead .floatDivisionByZero).mpr (.inl ⟨rfl, leadVanishes_tinyLead⟩)⟩

end Surd
