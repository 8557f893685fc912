import Mathlib
import Surd.Polynomial.Simultaneous
import Surd.Proofs.Failures
import Surd.Proofs.Polynomial.Iteration
import Surd.Proofs.Rational.Doubles

/-!
# What a search for all roots reports

Nothing that the search reports depends on what a sweep computes: a sweep gives new estimates, as many as before,
or fails (`Sweeper`). `solveBy_reports`: the roots are the estimates after the reported number of sweeps, and the
search converged iff a sweep within the limit changed less than the tolerance.
-/

namespace Surd.Simultaneous

section
variable {cfg : Settings} (hbound : 1 ≤ cfg.maxDenominator)
include hbound

theorem exists_toGaussian {z : ComplexDouble} (hz : z.isFinite = true) : ∃ w, z.toGaussian cfg = .ok w := by
  unfold ComplexDouble.isFinite at hz
  rw [Bool.and_eq_true] at hz
  obtain ⟨x, hx⟩ := Rational.exists_ofDouble_of_isFinite hbound hz.1
  obtain ⟨y, hy⟩ := Rational.exists_ofDouble_of_isFinite hbound hz.2
  unfold ComplexDouble.toGaussian Gaussian.ofDoubles
  rw [hx, ok_bind, hy]
  exact ⟨_, rfl⟩

theorem encode_of_finite {run : Run Estimates} (hrun : run.estimate.all ComplexDouble.isFinite = true) :
    ∃ roots, run.estimate.mapM (ComplexDouble.toGaussian cfg) = .ok roots ∧ roots.length = run.estimate.length ∧
      encode cfg run = .ok ⟨roots, run.converged, run.iterations⟩ := by
  rw [List.all_eq_true] at hrun
  obtain ⟨roots, hroots, hlength⟩ := mapM_total fun z hz => exists_toGaussian hbound (hrun z hz)
  unfold encode
  rw [hroots]
  exact ⟨roots, rfl, hlength, rfl⟩

end

/-! ## Sweeps -/

/-- A sweep over estimates, of which there are as many after it. -/
structure Sweeper where
  sweep : Estimates → Option (Estimates × Binary64)
  length_sweep : ∀ {zs ws change}, sweep zs = some (ws, change) → ws.length = zs.length

theorem length_step {normalized : List ComplexDouble} {zs ws : Estimates} {change : Binary64}
    (h : step normalized zs = some (ws, change)) : ws.length = zs.length := by
  unfold step Sweep.sweep at h
  dsimp only at h
  split at h
  · cases h
  · cases h
    simp

/-- The sweeps of the search. -/
def Sweeper.ofPolynomial (normalized : List ComplexDouble) : Sweeper := ⟨step normalized, length_step⟩

theorem Sweeper.length_after (sweeper : Sweeper) {zs ws : Estimates} {k : Nat}
    (h : after sweeper.sweep zs k = some ws) : ws.length = zs.length :=
  after_induction (P := fun vs => vs.length = zs.length)
    (fun hlength hstep => (sweeper.length_sweep hstep).trans hlength) rfl h

variable (cfg : Settings)

/-- The search with any sweeps. -/
def solveBy (sweeper : List ComplexDouble → Sweeper) (limit : Int) (tolerance : Binary64)
    (coefficients : List Number) : Except Failure Solution := do
  let normalized ← normalizedDoubles cfg coefficients
  let run ← finish (sweeper normalized).sweep limit tolerance (initialEstimates cfg normalized)
  encode cfg run

theorem solveWithin_eq (limit : Int) (tolerance : Binary64) (coefficients : List Number) :
    solveWithin cfg limit tolerance coefficients = solveBy cfg .ofPolynomial limit tolerance coefficients := by
  unfold solveWithin run solveBy
  cases normalizedDoubles cfg coefficients <;> rfl

/-! ## Coefficients -/

/-- The coefficients pass the checks of the search and have these values. -/
structure Accepted (coefficients : List Number) (values : List Gaussian) : Prop where
  count : checkCount cfg coefficients.length = .ok ()
  values_eq : coefficients.mapM (Number.toGaussian cfg) = .ok values
  lead : (values.headD 0).isZero = false

section
variable {cfg : Settings} {coefficients : List Number} {values : List Gaussian} (h : Accepted cfg coefficients values)
include h

theorem Accepted.normalizedDoubles_eq :
    normalizedDoubles cfg coefficients = (normalize values).mapM ComplexDouble.ofGaussian := by
  unfold normalizedDoubles
  rw [h.count, ok_bind, h.values_eq, ok_bind, h.lead]
  rfl

theorem Accepted.two_le : 2 ≤ coefficients.length := by
  have hcount := h.count
  unfold checkCount at hcount
  split at hcount
  · cases hcount
  · omega

theorem Accepted.length_initialEstimates {normalized : List ComplexDouble}
    (hnormalized : (normalize values).mapM ComplexDouble.ofGaussian = .ok normalized) :
    (initialEstimates cfg normalized).length + 1 = coefficients.length := by
  have hvalues := (mapM_ok_iff.mp h.values_eq).length_eq
  have hdoubles := (mapM_ok_iff.mp hnormalized).length_eq
  have htwo := h.two_le
  unfold normalize at hdoubles
  rw [List.length_map] at hdoubles
  unfold initialEstimates circle
  simp only [List.length_map, List.length_range, List.length_drop]
  omega

end

theorem failsOnly_ofGaussian (z : Gaussian) : FailsOnly (· = .fractionTooLarge) (ComplexDouble.ofGaussian z) := by
  have hpart : ∀ x : Binary64, FailsOnly (· = .fractionTooLarge) x.inRange := by
    intro x
    cases x with
    | infinite _ => exact .throw rfl
    | _ => exact .pure _
  unfold ComplexDouble.ofGaussian
  exact (hpart _).bind fun _ _ => (hpart _).bind fun _ _ => .pure _

/-! ## The search -/

section
variable {next : Estimates → Option (Estimates × Binary64)} {limit : Int} {tolerance : Binary64} {start : Estimates}

theorem finish_of_breaks (h : Breaks next (·.lt tolerance) limit.toNat start) :
    finish next limit tolerance start = .error .coincidingEstimates := by
  unfold finish
  rw [iterate_eq_none_iff.mpr h]
  rfl

theorem finish_of_not_breaks (h : ¬Breaks next (·.lt tolerance) limit.toNat start) :
    ∃ run, Stops next (·.lt tolerance) limit.toNat start run ∧
      finish next limit tolerance start =
        if run.estimate.all ComplexDouble.isFinite then .ok run else .error .diverged := by
  unfold finish
  cases hrun : iterate next (·.lt tolerance) limit.toNat 0 start with
  | none => exact absurd (iterate_eq_none_iff.mp hrun) h
  | some run => exact ⟨run, iterate_stops hrun, rfl⟩

end

/-- The search is one with the sweeps of its polynomial. With any sweeps, and coefficients that pass the checks, it
fails before the first sweep, because a fraction is beyond the range of doubles, or reports what its sweeps did. -/
theorem solveBy_reports {cfg : Settings} (hbound : 1 ≤ cfg.maxDenominator) {coefficients : List Number}
    {values : List Gaussian} (h : Accepted cfg coefficients values) (limit : Int) (tolerance : Binary64) :
    solveWithin cfg limit tolerance coefficients = solveBy cfg .ofPolynomial limit tolerance coefficients ∧
    ∀ sweeper : List ComplexDouble → Sweeper,
      match (normalize values).mapM ComplexDouble.ofGaussian with
      | .error e => e = .fractionTooLarge ∧ solveBy cfg sweeper limit tolerance coefficients = .error e
      | .ok normalized =>
        let sweep := (sweeper normalized).sweep
        let start := initialEstimates cfg normalized
        ((∃ e, solveBy cfg sweeper limit tolerance coefficients = .error e ∧ e.kind = .divisionByZero) ↔
          Breaks sweep (·.lt tolerance) limit.toNat start) ∧
        (¬Breaks sweep (·.lt tolerance) limit.toNat start →
          ∃ run, Stops sweep (·.lt tolerance) limit.toNat start run ∧
            if run.estimate.all ComplexDouble.isFinite then
              ∃ roots, run.estimate.mapM (ComplexDouble.toGaussian cfg) = .ok roots ∧
                roots.length + 1 = coefficients.length ∧
                solveBy cfg sweeper limit tolerance coefficients = .ok ⟨roots, run.converged, run.iterations⟩
            else solveBy cfg sweeper limit tolerance coefficients = .error .diverged) := by
  refine ⟨solveWithin_eq cfg limit tolerance coefficients, fun sweeper => ?_⟩
  unfold solveBy
  rw [h.normalizedDoubles_eq]
  cases hnormalized : (normalize values).mapM ComplexDouble.ofGaussian with
  | error e => exact ⟨FailsOnly.mapM (fun z _ => failsOnly_ofGaussian z) e hnormalized, rfl⟩
  | ok normalized =>
    have hlength := h.length_initialEstimates hnormalized
    dsimp only
    rw [ok_bind]
    by_cases hbreaks : Breaks (sweeper normalized).sweep (·.lt tolerance) limit.toNat (initialEstimates cfg normalized)
    · rw [finish_of_breaks hbreaks]
      exact ⟨iff_of_true ⟨_, rfl, rfl⟩ hbreaks, fun hnot => absurd hbreaks hnot⟩
    · obtain ⟨run, hstops, hfinish⟩ := finish_of_not_breaks hbreaks
      rw [hfinish]
      by_cases hfinite : run.estimate.all ComplexDouble.isFinite = true
      · obtain ⟨roots, hroots, hcount, hencode⟩ := encode_of_finite hbound hfinite
        rw [if_pos hfinite, ok_bind, hencode]
        refine ⟨iff_of_false (by simp) hbreaks, fun _ => ⟨run, hstops, ?_⟩⟩
        rw [if_pos hfinite]
        refine ⟨roots, hroots, ?_, rfl⟩
        rw [hcount, (sweeper normalized).length_after hstops.reached, hlength]
      · rw [if_neg hfinite]
        refine ⟨iff_of_false ?_ hbreaks, fun _ => ⟨run, hstops, ?_⟩⟩
        · intro hex
          obtain ⟨e, he, hkind⟩ := hex
          cases he
          cases hkind
        · rw [if_neg hfinite]
          rfl

/-! ## A sweep that moves everything to zero -/

def Sweeper.toZero : Sweeper where
  sweep := fun zs => some (zs.map fun _ => 0, 0)
  length_sweep := by
    intro zs ws change h
    cases h
    simp

def sampleCoefficients : List Number := [.int 1, .int (-3), .int 2]

theorem accepted_sampleCoefficients : Accepted {} sampleCoefficients [1, ⟨-3, 0⟩, ⟨2, 0⟩] where
  count := rfl
  values_eq := by decide +kernel
  lead := by decide +kernel

theorem solveBy_toZero : Accepted {} sampleCoefficients [1, ⟨-3, 0⟩, ⟨2, 0⟩] ∧
    ∃ roots, solveBy {} (fun _ => .toZero) 3 1 sampleCoefficients = .ok ⟨roots, true, 1⟩ ∧ roots.length = 2 := by
  refine ⟨accepted_sampleCoefficients, ?_⟩
  have hbound : 1 ≤ ({} : Settings).maxDenominator := by decide
  have hreports := (solveBy_reports hbound accepted_sampleCoefficients 3 1).2 fun _ => .toZero
  have hconverts : ((normalize [1, ⟨-3, 0⟩, ⟨2, 0⟩]).mapM ComplexDouble.ofGaussian).isOk = true := by decide +kernel
  cases hnormalized : (normalize [1, ⟨-3, 0⟩, ⟨2, 0⟩]).mapM ComplexDouble.ofGaussian with
  | error e =>
    rw [hnormalized] at hconverts
    cases hconverts
  | ok normalized =>
    rw [hnormalized] at hreports
    dsimp only at hreports
    have hbreaks : ¬Breaks Sweeper.toZero.sweep (·.lt 1) (Int.toNat 3) (initialEstimates {} normalized) := by
      intro hex
      obtain ⟨k, _, ⟨zs, _, hnone⟩, _⟩ := hex
      cases hnone
    have hsettles : SettlesAt Sweeper.toZero.sweep (·.lt 1) (initialEstimates {} normalized) 0 :=
      ⟨_, _, _, rfl, rfl, by decide +kernel⟩
    obtain ⟨run, hstops, hrun⟩ := hreports.2 hbreaks
    have hconverged : run.converged = true := hstops.converged_iff.mpr ⟨0, by decide, hsettles⟩
    obtain ⟨k, hk, _, hfirst⟩ := hstops.first hconverged
    obtain rfl : k = 0 := Nat.eq_zero_of_not_pos fun hpos => hfirst 0 hpos hsettles
    have hreached := hstops.reached
    rw [hk] at hreached
    have hzero : (0 : ComplexDouble).isFinite = true := by decide +kernel
    have hfinite : run.estimate.all ComplexDouble.isFinite = true := by
      rw [← Option.some.inj hreached, List.all_eq_true]
      intro z hz
      obtain ⟨_, _, rfl⟩ := List.mem_map.mp hz
      exact hzero
    rw [if_pos hfinite] at hrun
    obtain ⟨roots, _, hlength, hsolve⟩ := hrun
    rw [hk, hconverged] at hsolve
    exact ⟨roots, hsolve, Nat.succ.inj hlength⟩

end Surd.Simultaneous
