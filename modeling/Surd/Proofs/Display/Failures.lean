import Mathlib
import Surd.Proofs.Failures

/-!
# Failures of displaying a number

The exact and the decimal form of a number fail only in ways that are caught, also where a fraction
is taken for a radical.
-/

namespace Surd

section
variable {cfg : Settings} (hsqrt : ∀ x, FailsOnly Caught (cfg.elementary.sqrt x))
include hsqrt

/-! ## Radicals -/

namespace Radical

theorem caught_withOffset? (divisor : Nat) (tolerance t : Binary64) (p : Int) :
    FailsOnly Caught (withOffset? cfg divisor tolerance t p) := by
  unfold withOffset?
  refine (caught_round _).bind fun k _ => ?_
  split
  · exact .pure _
  · refine (hsqrt _).bind fun root _ => ?_
    split
    · exact .pure _
    · exact .pure _

theorem caught_ofDouble? (v : Binary64) : FailsOnly Caught (ofDouble? cfg v) := by
  unfold ofDouble?
  split
  · exact .throw rfl
  · refine .findSomeM? fun divisor _ => ?_
    unfold withDivisor?
    exact (caught_round _).bind fun nearest _ => .findSomeM? fun p _ => caught_withOffset? hsqrt _ _ _ _

theorem caught_find? (x : Rat) : FailsOnly Caught (find? cfg x) := by
  unfold find?
  split
  · exact .pure _
  · generalize (Binary64.ofFraction x).toOption = v
    cases v with
    | none => exact .pure _
    | some v => exact caught_ofDouble? hsqrt v

end Radical

end

namespace Display

theorem caught_radical (style : Style) (r : Radical) : FailsOnly Caught (radical style r) := by
  have hwrite := caught_writeInt
  unfold radical
  refine (hwrite _).bind fun coefficient _ => (hwrite _).bind fun radicand _ => ?_
  dsimp only
  split
  · split
    · exact .pure _
    · exact (hwrite _).bind fun _ _ => .pure _
  · refine (hwrite _).bind fun offset _ => ?_
    split
    · exact .pure _
    · refine (hwrite _).bind fun divisor _ => ?_
      split
      · exact .pure _
      · exact .pure _

theorem caught_fraction (style : Style) (x : Rat) : FailsOnly Caught (fraction style x) := by
  have hwrite := caught_writeInt
  unfold fraction
  split
  · exact hwrite _
  · split
    · exact (hwrite _).bind fun _ _ => (hwrite _).bind fun _ _ => .pure _
    · exact Rational.caught_write x

section
variable {cfg : Settings} (hsqrt : ∀ x, FailsOnly Caught (cfg.elementary.sqrt x))
include hsqrt

theorem caught_rational (style : Style) (x : Rat) : FailsOnly Caught (rational cfg style x) := by
  unfold rational
  split
  · exact caught_writeInt _
  · refine (Radical.caught_find? hsqrt x).bind fun r _ => ?_
    cases r with
    | none => exact caught_fraction style x
    | some r => exact caught_radical style r

theorem caught_imaginary (style : Style) (y : Rat) : FailsOnly Caught (imaginary cfg style y) := by
  unfold imaginary
  split
  · exact .pure _
  · split
    · exact .pure _
    · refine (Radical.caught_find? hsqrt y).bind fun r _ => ?_
      cases r with
      | none => exact (caught_fraction style y).bind fun _ _ => .pure _
      | some r => exact (caught_radical style r).bind fun _ _ => .pure _

theorem caught_exact (style : Style) (z : Gaussian) : FailsOnly Caught (exact cfg style z) := by
  unfold exact
  split
  · exact caught_rational hsqrt style z.re
  · split
    · exact caught_imaginary hsqrt style z.im
    · refine (caught_rational hsqrt style z.re).bind fun s _ => ?_
      exact (caught_imaginary hsqrt style _).bind fun _ _ => .pure _

theorem caught_approximate (f : Format) (z : Gaussian) : FailsOnly Caught (approximate cfg f z) := by
  unfold approximate
  generalize doubles? z = xy
  cases xy with
  | none => exact caught_exact hsqrt f.style z
  | some xy => exact .pure _

end

end Display

end Surd
