import Mathlib
import Surd.Proofs.Failures

/-!
# Failures of solving a polynomial

Whatever fails on the way from the coefficients to the texts of the roots is caught, except in the
formula for cubics, which divides by doubles: the leading coefficient may vanish as a double
although it is not zero. Writing the coefficients beside a caught failure may fail once more.
-/

namespace Surd

/-! ## Cubics -/

namespace Cubic

/-- The constants that the formula divides by are not zero as doubles. -/
theorem isZero_divisor : ∀ n ∈ [2, 3, 4, 27], (nat n : Binary64).isZero = false := by decide +kernel

variable (cfg : Settings)

/-- One of the two divisors that the first coefficient makes is zero, and is divided by. -/
def Vanishes (a b : Binary64) : Prop :=
  (nat 3 * a * a).isZero = true ∨
    ∃ b₃ a₃, cfg.elementary.power 3 b = .ok b₃ ∧ cfg.elementary.power 3 a = .ok a₃ ∧
      (nat 27 * a₃).isZero = true

theorem caught_cube (x : Binary64) : FailsOnly Caught (cfg.elementary.power 3 x) := by
  unfold Elementary.power
  exact caught_finiteImage (show Caught .powerOutOfRange from rfl) _ _

theorem depress_uncaught_iff (a b c d : Binary64) (e : Failure) :
    (depress (doubles cfg) a b c d = .error e ∧ ¬Caught e) ↔ e = .floatDivisionByZero ∧ Vanishes cfg a b := by
  have hcube := caught_cube cfg
  have hescapes : ¬Caught .floatDivisionByZero := by
    simp [Caught, Failure.kind, Kind.isCaught, Kind.isCoded, Kind.isSolver]
  unfold depress Vanishes
  simp only [doubles]
  by_cases hlead : (nat 3 * a * a).isZero = true
  · have hfirst : Binary64.div (nat 3 * a * c - b * b) (nat 3 * a * a) = .error .floatDivisionByZero :=
      Binary64.div_error_iff.mpr ⟨hlead, rfl⟩
    rw [hfirst, error_bind]
    constructor
    · intro h
      cases h.1
      exact ⟨rfl, .inl hlead⟩
    · intro h
      rw [h.1]
      exact ⟨rfl, hescapes⟩
  · -- where `3a²` is not zero, neither is `3a`, and only the division by `27a³` is left to escape
    have hfirst := caught_div (x := nat 3 * a * c - b * b) (Bool.eq_false_iff.mpr hlead)
    have hshift : (nat 3 * a).isZero = false :=
      Bool.eq_false_iff.mpr fun hzero => hlead (Binary64.isZero_mul_mul hzero)
    simp only [hfirst.escapes_bind_iff, (hcube b).escapes_bind_iff, (hcube a).escapes_bind_iff]
    constructor
    · intro h
      obtain ⟨p, _, b₃, hb, a₃, ha, h⟩ := h
      rw [FailsOnly.escapes_bind_iff_first, Binary64.div_error_iff] at h
      · exact ⟨h.1.2, .inr ⟨b₃, a₃, hb, ha, h.1.1⟩⟩
      · intro q _
        refine (caught_div (isZero_divisor 4 (by decide))).bind fun left _ => (hcube p).bind fun p₃ _ => ?_
        refine (caught_div (isZero_divisor 27 (by decide))).bind fun right _ => ?_
        exact (caught_div hshift).bind fun shift _ => .pure _
    · intro h
      obtain ⟨rfl, hvanishes⟩ := h
      obtain ⟨b₃, a₃, hb, ha, hq⟩ := hvanishes.resolve_left hlead
      cases hp : Binary64.div (nat 3 * a * c - b * b) (nat 3 * a * a) with
      | error e => exact absurd (Binary64.div_error_iff.mp hp).1 hlead
      | ok p =>
        refine ⟨p, rfl, b₃, hb, a₃, ha, bind_error_iff.mpr (.inl ?_), hescapes⟩
        exact Binary64.div_error_iff.mpr ⟨hq, rfl⟩

/-! ### Roots -/

theorem caught_half (x : Binary64) : FailsOnly Caught (x.div (nat 2)) := caught_div (isZero_divisor 2 (by decide))

theorem caught_third (x : Binary64) : FailsOnly Caught (x.div (nat 3)) := caught_div (isZero_divisor 3 (by decide))

theorem caught_multipleRoots (t : Depressed Binary64) (factors : Binary64 → List Binary64) :
    FailsOnly Caught (t.multipleRoots (doubles cfg) factors) := by
  simp only [Depressed.multipleRoots, doubles]
  exact (caught_half _).bind fun _ _ => .pure _

section
variable {cfg} (hsqrt : ∀ x, FailsOnly Caught (cfg.elementary.sqrt x))
include hsqrt

theorem caught_oneRealRoot (t : Depressed Binary64) : FailsOnly Caught (t.oneRealRoot (doubles cfg)) := by
  simp only [Depressed.oneRealRoot, doubles]
  refine (hsqrt _).bind fun s _ => ?_
  refine (caught_half _).bind fun half _ => ?_
  refine (caught_half _).bind fun middle _ => ?_
  refine (hsqrt _).bind fun three _ => ?_
  exact (caught_half _).bind fun im _ => .pure _

theorem caught_threeRealRoots (t : Depressed Binary64) : FailsOnly Caught (t.threeRealRoots (doubles cfg)) := by
  simp only [Depressed.threeRealRoots, doubles]
  refine (hsqrt _).bind fun height _ => ?_
  refine (caught_half _).bind fun half _ => ?_
  refine (caught_third _).bind fun third _ => ?_
  refine (hsqrt _).bind fun r _ => ?_
  refine .mapM fun k _ => ?_
  exact (caught_third _).bind fun part _ => (caught_cosine _ _).bind fun _ _ => .pure _

theorem caught_roots (t : Depressed Binary64) (case : Case) : FailsOnly Caught (t.roots (doubles cfg) case) := by
  cases case <;> rw [Depressed.roots]
  · exact caught_multipleRoots cfg t _
  · exact caught_multipleRoots cfg t _
  · exact caught_oneRealRoot hsqrt t
  · exact caught_threeRealRoots hsqrt t

end

/-- The real parts of the coefficients are in range as doubles, and the first of them vanishes. -/
def LeadVanishes (a b c d : Gaussian) : Prop :=
  ∃ x y z w, Binary64.ofFraction a.re = .ok x ∧ Binary64.ofFraction b.re = .ok y ∧
    Binary64.ofFraction c.re = .ok z ∧ Binary64.ofFraction d.re = .ok w ∧ Vanishes cfg x y

theorem depressReal_uncaught_iff (a b c d : Gaussian) (e : Failure) :
    (depressReal cfg a b c d = .error e ∧ ¬Caught e) ↔ e = .floatDivisionByZero ∧ LeadVanishes cfg a b c d := by
  unfold depressReal
  simp only [(caught_ofFraction _).escapes_bind_iff, depress_uncaught_iff]
  constructor
  · intro h
    obtain ⟨x, hx, y, hy, z, hz, w, hw, he, hvanishes⟩ := h
    exact ⟨he, x, y, z, w, hx, hy, hz, hw, hvanishes⟩
  · intro h
    obtain ⟨he, x, y, z, w, hx, hy, hz, hw, hvanishes⟩ := h
    exact ⟨x, hx, y, hy, z, hz, w, hw, he, hvanishes⟩

theorem solve_uncaught_iff (hsqrt : ∀ x, FailsOnly Caught (cfg.elementary.sqrt x)) (a b c d : Gaussian)
    (e : Failure) :
    (solve cfg a b c d = .error e ∧ ¬Caught e) ↔ e = .floatDivisionByZero ∧ LeadVanishes cfg a b c d := by
  unfold solve
  rw [FailsOnly.escapes_bind_iff_first, depressReal_uncaught_iff]
  intro t _
  exact (caught_roots hsqrt t _).bind fun roots _ => .mapM fun z _ => Gaussian.caught_ofDoubles cfg z.1 z.2

theorem not_leadVanishes_one (hone : cfg.elementary.pow 1 3 = 1) (b c d : Gaussian) :
    ¬LeadVanishes cfg 1 b c d := by
  have hfraction : Binary64.ofFraction (1 : Gaussian).re = .ok 1 := by decide +kernel
  have hcube : cfg.elementary.power 3 1 = .ok 1 := by
    rw [Elementary.power, hone]
    decide +kernel
  have hthree : (nat 3 * 1 * 1 : Binary64).isZero = false := by decide +kernel
  have htwentySeven : (nat 27 * 1 : Binary64).isZero = false := by decide +kernel
  intro h
  obtain ⟨x, y, z, w, hx, _, _, _, hvanishes⟩ := h
  obtain rfl : 1 = x := Except.ok.inj (hfraction.symm.trans hx)
  rcases hvanishes with hzero | ⟨b₃, a₃, _, ha, hzero⟩
  · rw [hthree] at hzero
    cases hzero
  · obtain rfl : 1 = a₃ := Except.ok.inj (hcube.symm.trans ha)
    rw [htwentySeven] at hzero
    cases hzero

end Cubic

/-! ## Formulas of other degrees -/

theorem Linear.caught_solve (a b : Gaussian) : FailsOnly Caught (Linear.solve a b) := by
  unfold Linear.solve
  split
  · split
    · exact .throw rfl
    · exact (Gaussian.caught_write b).bind fun _ _ => .throw rfl
  · exact .pure _

section
variable {cfg : Settings} (hsqrt : ∀ x, FailsOnly Caught (cfg.elementary.sqrt x))
include hsqrt

namespace Quadratic

theorem caught_pair (a b c : Gaussian) : FailsOnly Caught (pair cfg a b c) :=
  (Gaussian.caught_sqrt hsqrt _).bind fun _ _ => .pure _

theorem caught_solve (a b c : Gaussian) : FailsOnly Caught (solve cfg a b c) :=
  (caught_pair hsqrt a b c).bind fun _ _ => .pure _

theorem caught_solveBoth (a b c : Gaussian) : FailsOnly Caught (solveBoth cfg a b c) :=
  (caught_pair hsqrt a b c).bind fun _ _ => .pure _

end Quadratic

theorem Quartic.caught_solve (hone : cfg.elementary.pow 1 3 = 1) (a b c d e : Gaussian) :
    FailsOnly Caught (Quartic.solve cfg a b c d e) := by
  have hcubic : ∀ b c d, FailsOnly Caught (Cubic.solve cfg 1 b c d) := by
    intro b c d e he
    by_contra hcaught
    have h := (Cubic.solve_uncaught_iff cfg hsqrt 1 b c d e).mp ⟨he, hcaught⟩
    exact Cubic.not_leadVanishes_one cfg hone b c d h.2
  unfold Quartic.solve
  refine .bind (.bind (hcubic _ _ _) fun _ _ => .pure _) fun m _ => ?_
  refine (Gaussian.caught_sqrt hsqrt m).bind fun s _ => ?_
  refine (Quadratic.caught_solveBoth hsqrt _ _ _).bind fun ys _ => ?_
  exact (Quadratic.caught_solveBoth hsqrt _ _ _).bind fun zs _ => .pure _

end

/-! ## Iteration -/

namespace Simultaneous

variable (cfg : Settings)

theorem caught_checkCount (n : Nat) : FailsOnly Caught (checkCount cfg n) := by
  unfold checkCount
  split
  · exact .throw rfl
  · split
    · exact .throw rfl
    · exact .pure _

theorem caught_normalizedDoubles (cs : List Number) : FailsOnly Caught (normalizedDoubles cfg cs) := by
  unfold normalizedDoubles
  refine (caught_checkCount cfg _).bind fun _ _ => ?_
  refine .bind (.mapM fun c _ => c.caught_toGaussian cfg) fun values _ => ?_
  split
  · exact .throw rfl
  · exact .mapM fun z _ => (caught_ofFraction _).bind fun _ _ => (caught_ofFraction _).bind fun _ _ => .pure _

theorem caught_finish (step : Estimates → Option (Estimates × Binary64)) (limit : Int) (tolerance : Binary64)
    (start : Estimates) : FailsOnly Caught (finish step limit tolerance start) := by
  unfold finish
  split
  · exact .throw rfl
  · split
    · exact .pure _
    · exact .throw rfl

theorem caught_solve (cs : List Number) : FailsOnly Caught (solve cfg cs) := by
  unfold solve solveWithin run encode
  refine .bind ((caught_normalizedDoubles cfg cs).bind fun _ _ => caught_finish _ _ _ _) fun run _ => ?_
  exact .bind (.mapM fun z _ => Gaussian.caught_ofDoubles cfg _ _) fun _ _ => .pure _

end Simultaneous

/-! ## By degree -/

section
variable (cfg : Settings)

/-- A cubic whose first coefficient is not zero but vanishes as a double. -/
def LeadVanishes (cs : List Number) : Prop :=
  ∃ a b c d, cs.mapM (Number.toGaussian cfg) = .ok [a, b, c, d] ∧ a.isZero = false ∧
    Cubic.LeadVanishes cfg a b c d

theorem caught_nonzero (order : Order) (a : Gaussian) : FailsOnly Caught (nonzero order a) := by
  unfold nonzero
  split
  · exact .throw rfl
  · exact .pure _

theorem caught_wrongCount {α : Type} (order : Order) (cs : List Number) :
    FailsOnly Caught (wrongCount order cs : Except Failure α) := .throw rfl

theorem caught_linearCoefficients (cs : List Number) : FailsOnly Caught (linearCoefficients cfg cs) := by
  have hread := Number.caught_toGaussian cfg
  unfold linearCoefficients
  split
  · exact (hread _).bind fun _ _ => (hread _).bind fun _ _ => .pure _
  · exact caught_wrongCount _ _

theorem caught_quadraticCoefficients (cs : List Number) : FailsOnly Caught (quadraticCoefficients cfg cs) := by
  have hread := Number.caught_toGaussian cfg
  unfold quadraticCoefficients
  split
  · refine (hread _).bind fun a _ => (hread _).bind fun _ _ => (hread _).bind fun _ _ => ?_
    exact (caught_nonzero _ a).bind fun _ _ => .pure _
  · exact caught_wrongCount _ _

theorem caught_cubicCoefficients (cs : List Number) : FailsOnly Caught (cubicCoefficients cfg cs) := by
  have hread := Number.caught_toGaussian cfg
  unfold cubicCoefficients
  split
  · refine (hread _).bind fun a _ => (hread _).bind fun _ _ => (hread _).bind fun _ _ => ?_
    exact (hread _).bind fun _ _ => (caught_nonzero _ a).bind fun _ _ => .pure _
  · exact caught_wrongCount _ _

theorem caught_quarticCoefficients (cs : List Number) : FailsOnly Caught (quarticCoefficients cfg cs) := by
  have hread := Number.caught_toGaussian cfg
  unfold quarticCoefficients
  split
  · refine (hread _).bind fun a _ => (hread _).bind fun _ _ => (hread _).bind fun _ _ => ?_
    refine (hread _).bind fun _ _ => (hread _).bind fun _ _ => ?_
    exact (caught_nonzero _ a).bind fun _ _ => .pure _
  · exact caught_wrongCount _ _

theorem nonzero_eq_ok_iff {order : Order} {a : Gaussian} : nonzero order a = .ok () ↔ a.isZero = false := by
  unfold nonzero
  cases a.isZero <;> simp [throw, throwThe, MonadExceptOf.throw, pure, Except.pure]

theorem cubicCoefficients_eq_ok_iff {cs : List Number} {a b c d : Gaussian} :
    cubicCoefficients cfg cs = .ok (a, b, c, d) ↔
      cs.mapM (Number.toGaussian cfg) = .ok [a, b, c, d] ∧ a.isZero = false := by
  rw [mapM_ok_iff]
  constructor
  · intro h
    unfold cubicCoefficients at h
    split at h
    · obtain ⟨a', ha, h⟩ := bind_ok_iff.mp h
      obtain ⟨b', hb, h⟩ := bind_ok_iff.mp h
      obtain ⟨c', hc, h⟩ := bind_ok_iff.mp h
      obtain ⟨d', hd, h⟩ := bind_ok_iff.mp h
      obtain ⟨_, hzero, h⟩ := bind_ok_iff.mp h
      cases h
      exact ⟨.cons ha (.cons hb (.cons hc (.cons hd .nil))), nonzero_eq_ok_iff.mp hzero⟩
    · cases h
  · intro h
    obtain ⟨h, hzero⟩ := h
    obtain _ | ⟨ha, _ | ⟨hb, _ | ⟨hc, _ | ⟨hd, ⟨⟩⟩⟩⟩⟩ := h
    unfold cubicCoefficients
    refine bind_ok_iff.mpr ⟨a, ha, bind_ok_iff.mpr ⟨b, hb, bind_ok_iff.mpr ⟨c, hc, ?_⟩⟩⟩
    exact bind_ok_iff.mpr ⟨d, hd, bind_ok_iff.mpr ⟨(), nonzero_eq_ok_iff.mpr hzero, rfl⟩⟩

theorem solveCubic_uncaught_iff (hsqrt : ∀ x, FailsOnly Caught (cfg.elementary.sqrt x)) (cs : List Number)
    (e : Failure) :
    (solveCubic cfg cs = .error e ∧ ¬Caught e) ↔ e = .floatDivisionByZero ∧ LeadVanishes cfg cs := by
  unfold solveCubic
  simp only [(caught_cubicCoefficients cfg cs).escapes_bind_iff, Cubic.solve_uncaught_iff cfg hsqrt]
  constructor
  · intro h
    obtain ⟨⟨a, b, c, d⟩, hc, he, hvanishes⟩ := h
    obtain ⟨hvalues, hzero⟩ := (cubicCoefficients_eq_ok_iff cfg).mp hc
    exact ⟨he, a, b, c, d, hvalues, hzero, hvanishes⟩
  · intro h
    obtain ⟨he, a, b, c, d, hvalues, hzero, hvanishes⟩ := h
    exact ⟨⟨a, b, c, d⟩, (cubicCoefficients_eq_ok_iff cfg).mpr ⟨hvalues, hzero⟩, he, hvanishes⟩

theorem length_of_leadVanishes {cs : List Number} (h : LeadVanishes cfg cs) : cs.length = 4 := by
  obtain ⟨a, b, c, d, hvalues, _, _⟩ := h
  exact (mapM_ok_iff.mp hvalues).length_eq

theorem caught_solvePolynomial (hsqrt : ∀ x, FailsOnly Caught (cfg.elementary.sqrt x))
    (hone : cfg.elementary.pow 1 3 = 1) {cs : List Number} (h : cs.length ≠ 4) :
    FailsOnly Caught (solvePolynomial cfg cs) := by
  unfold solvePolynomial
  split
  · exact .throw rfl
  · exact .throw rfl
  · exact (caught_linearCoefficients cfg cs).bind fun _ _ => Linear.caught_solve _ _
  · exact (caught_quadraticCoefficients cfg cs).bind fun _ _ => Quadratic.caught_solve hsqrt _ _ _
  · rename_i hlen
    exact absurd hlen h
  · exact (caught_quarticCoefficients cfg cs).bind fun _ _ => Quartic.caught_solve hsqrt hone _ _ _ _ _
  · unfold solveQuintic
    split
    · exact .throw rfl
    · exact (Simultaneous.caught_solve cfg cs).bind fun _ _ => .pure _

theorem solvePolynomial_uncaught_iff (hsqrt : ∀ x, FailsOnly Caught (cfg.elementary.sqrt x))
    (hone : cfg.elementary.pow 1 3 = 1) (cs : List Number) (e : Failure) :
    (solvePolynomial cfg cs = .error e ∧ ¬Caught e) ↔ e = .floatDivisionByZero ∧ LeadVanishes cfg cs := by
  by_cases hlen : cs.length = 4
  · have hcubic : solvePolynomial cfg cs = solveCubic cfg cs := by
      simp only [solvePolynomial, hlen]
    rw [← solveCubic_uncaught_iff cfg hsqrt, hcubic]
  · constructor
    · intro h
      obtain ⟨he, hcaught⟩ := h
      exact absurd (caught_solvePolynomial cfg hsqrt hone hlen e he) hcaught
    · intro h
      obtain ⟨_, h⟩ := h
      exact absurd (length_of_leadVanishes cfg h) hlen

end

end Surd
