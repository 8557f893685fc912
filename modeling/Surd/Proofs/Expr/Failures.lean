import Mathlib
import Surd.Expr.Read
import Surd.Proofs.Failures

/-!
# Failures of evaluating an expression

Whatever a tree holds, its evaluation fails only in ways that are caught: `Expr.caught_eval`. To read
an input fails in ways that are caught too, except that a remainder by zero is computed, and fails,
while the input is read: `Expr.read_uncaught`.
-/

namespace Surd

theorem caught_sine (f : Elementary) (x : Binary64) : FailsOnly Caught (f.sine x) := by
  cases x with
  | nan => exact .pure _
  | infinite s => exact .throw rfl
  | finite s r => exact .pure _

namespace Rational

section
variable (cfg : Settings)

theorem caught_through {g : Binary64 → Except Failure Binary64} (hg : ∀ x, FailsOnly Caught (g x)) (x : Rat) :
    FailsOnly Caught (through cfg g x) :=
  (caught_ofFraction x).bind fun _ _ => (hg _).bind fun _ _ => caught_ofDouble cfg _

theorem caught_sin (x : Rat) : FailsOnly Caught (sin cfg x) := caught_through cfg (caught_sine cfg.elementary) x

theorem caught_cos (x : Rat) : FailsOnly Caught (cos cfg x) := caught_through cfg (caught_cosine cfg.elementary) x

theorem caught_sinh (x : Rat) : FailsOnly Caught (sinh cfg x) :=
  caught_through cfg (fun y => caught_finiteImage (show Caught .functionOutOfRange from rfl) y _) x

theorem caught_cosh (x : Rat) : FailsOnly Caught (cosh cfg x) :=
  caught_through cfg (fun y => caught_finiteImage (show Caught .functionOutOfRange from rfl) y _) x

end

end Rational

/-! ## Powers and functions -/

namespace Gaussian

theorem caught_inverse (z : Gaussian) : FailsOnly Caught z.inverse := by
  unfold inverse
  dsimp only
  split
  · exact .throw rfl
  · exact .pure _

theorem caught_pow (z : Gaussian) (n : Int) : FailsOnly Caught (z.pow n) := by
  unfold pow
  split
  · exact caught_inverse _
  · exact .pure _

section
variable (cfg : Settings) (z : Gaussian)

theorem caught_sin : FailsOnly Caught (z.sin cfg) := by
  unfold sin
  refine (Rational.caught_sin cfg _).bind fun _ _ => (Rational.caught_cosh cfg _).bind fun _ _ => ?_
  exact (Rational.caught_cos cfg _).bind fun _ _ => (Rational.caught_sinh cfg _).bind fun _ _ => .pure _

theorem caught_cos : FailsOnly Caught (z.cos cfg) := by
  unfold cos
  refine (Rational.caught_cos cfg _).bind fun _ _ => (Rational.caught_cosh cfg _).bind fun _ _ => ?_
  exact (Rational.caught_sin cfg _).bind fun _ _ => (Rational.caught_sinh cfg _).bind fun _ _ => .pure _

end

end Gaussian

section
variable (cfg : Settings)

theorem caught_checked (z : Gaussian) : FailsOnly Caught (checked cfg z) := by
  unfold checked
  split
  · exact .throw rfl
  · exact .pure _

theorem caught_integerPower (base : Gaussian) (n : Int) : FailsOnly Caught (integerPower cfg base n) := by
  unfold integerPower
  split
  · exact (caught_writeInt n).bind fun _ _ => .throw rfl
  · split
    · exact (caught_writeInt n).bind fun _ _ => .throw rfl
    · exact (Gaussian.caught_pow base n).bind fun _ _ => caught_checked cfg _

/-- The angle of a half turn is divided by a number of degrees that is not zero. -/
theorem caught_radians (z : Gaussian) : FailsOnly Caught (radians cfg z) := by
  have hdegrees : (180 : Binary64).isZero = false := by decide +kernel
  unfold radians
  refine (caught_ofFraction _).bind fun _ _ => (caught_ofFraction _).bind fun _ _ => ?_
  exact (caught_div hdegrees).bind fun _ _ => Gaussian.caught_ofDoubles cfg _ _

end

section
variable {cfg : Settings} (hsqrt : ∀ x, FailsOnly Caught (cfg.elementary.sqrt x))
include hsqrt

theorem caught_power (base exponent : Gaussian) : FailsOnly Caught (Surd.power cfg base exponent) := by
  unfold Surd.power
  split
  · exact Gaussian.caught_sqrt hsqrt base
  · split
    · exact caught_integerPower cfg base _
    · exact (Gaussian.caught_write exponent).bind fun _ _ => .throw rfl

namespace Expr

/-! ## Trees -/

theorem caught_apply {arg : Expr} (harg : FailsOnly Caught (arg.eval cfg)) (f : Operation) :
    FailsOnly Caught ((Expr.apply f [arg]).eval cfg) := by
  cases f with
  | sin =>
    rw [eval]
    exact harg.bind fun z _ => Gaussian.caught_sin cfg z
  | cos =>
    rw [eval]
    exact harg.bind fun z _ => Gaussian.caught_cos cfg z
  | exp =>
    rw [eval]
    exact (Rational.caught_ofDouble cfg _).bind fun _ _ => harg.bind fun _ _ => caught_power hsqrt _ _
  | abs =>
    rw [eval]
    exact harg.bind fun _ _ => .bind (Rational.caught_sqrt hsqrt _) fun _ _ => .pure _
  | sinDegrees =>
    rw [eval]
    exact harg.bind fun _ _ => (caught_radians cfg _).bind fun w _ => Gaussian.caught_sin cfg w
  | cosDegrees =>
    rw [eval]
    exact harg.bind fun _ _ => (caught_radians cfg _).bind fun w _ => Gaussian.caught_cos cfg w
  | other name =>
    rw [eval]
    exact .throw rfl

end Expr

end

namespace Expr

mutual

theorem caught_eval {cfg : Settings} (hsqrt : ∀ x, FailsOnly Caught (cfg.elementary.sqrt x)) :
    ∀ x : Expr, FailsOnly Caught (x.eval cfg)
  | .number (.exact q) => by
    rw [eval]
    exact .pure _
  | .number (.rounded x) => by
    rw [eval]
    exact (Rational.caught_ofDouble cfg _).bind fun _ _ => .pure _
  | .constant c => by
    rw [eval]
    exact (Rational.caught_ofDouble cfg _).bind fun _ _ => .pure _
  | .imaginaryUnit => by
    rw [eval]
    exact .pure _
  | .unknown name => by
    rw [eval]
    exact .throw rfl
  | .infinite => by
    rw [eval]
    exact .throw rfl
  | .undefined => by
    rw [eval]
    exact .throw rfl
  | .sum args => by
    rw [eval]
    exact caught_evalSum hsqrt args 0
  | .product args => by
    rw [eval]
    exact caught_evalProduct hsqrt args 1
  | .power base exponent => by
    rw [eval]
    refine (caught_eval hsqrt base).bind fun _ _ => ?_
    exact (caught_eval hsqrt exponent).bind fun _ _ => caught_power hsqrt _ _
  | .apply f [arg] => caught_apply hsqrt (caught_eval hsqrt arg) f
  | .apply f [] => by
    rw [eval]
    · exact .throw rfl
    · simp
  | .apply f (_ :: _ :: _) => by
    rw [eval]
    · exact .throw rfl
    · simp

theorem caught_evalSum {cfg : Settings} (hsqrt : ∀ x, FailsOnly Caught (cfg.elementary.sqrt x)) :
    ∀ (args : List Expr) (total : Gaussian), FailsOnly Caught (evalSum cfg total args)
  | [], total => by
    rw [evalSum]
    exact .pure _
  | x :: rest, total => by
    rw [evalSum]
    exact (caught_eval hsqrt x).bind fun _ _ => (caught_checked cfg _).bind fun _ _ => caught_evalSum hsqrt rest _

theorem caught_evalProduct {cfg : Settings} (hsqrt : ∀ x, FailsOnly Caught (cfg.elementary.sqrt x)) :
    ∀ (args : List Expr) (total : Gaussian), FailsOnly Caught (evalProduct cfg total args)
  | [], total => by
    rw [evalProduct]
    exact .pure _
  | x :: rest, total => by
    rw [evalProduct]
    exact (caught_eval hsqrt x).bind fun _ _ => (caught_checked cfg _).bind fun _ _ => caught_evalProduct hsqrt rest _

end

end Expr

/-! ## Reading -/

theorem Input.caught_prepare (cfg : Settings) (s : List Char) : FailsOnly Caught (Input.prepare cfg s) := by
  unfold Input.prepare
  dsimp only
  split
  · exact .throw rfl
  · split
    · exact .throw rfl
    · split
      · exact .throw rfl
      · split
        · exact .throw rfl
        · exact .pure _

/-- An input that cannot be read fails in a way that is caught, or because of a remainder by zero. -/
theorem Expr.read_uncaught (cfg : Settings) (s : List Char) :
    FailsOnly (fun e => Caught e ∨ e = .floatDivisionByZero) (Expr.read cfg s) := by
  unfold Expr.read
  refine .bind (fun e he => .inl (Input.caught_prepare cfg s e he)) fun plain _ => ?_
  dsimp only
  split
  · exact .pure _
  · exact .pure _
  · exact .throw (.inl rfl)
  · exact .throw (.inl rfl)
  · exact .throw (.inr rfl)
  · exact .throw (.inl rfl)
  · exact .throw (.inl rfl)

end Surd
