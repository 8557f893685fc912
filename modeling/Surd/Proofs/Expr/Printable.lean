import Mathlib
import Surd.Proofs.Display.Printing
import Surd.Proofs.Expr.RoundTrip

/-!
# Values that can be written

By default the value of every node of an expression can be written, if its exact numbers can be: sums,
products and integer powers are checked, and all other operations end with fractions for doubles, or
with products of two of them, which have small denominators and are in the range of doubles (`Coarse`).
-/

namespace Surd

/-! ## Fractions for doubles -/

/-- A fraction like those for doubles. -/
structure Coarse (x : ℚ) : Prop where
  abs_le : |x| ≤ (2 * Binary64.unitCount : Nat)
  den_le : x.den ≤ 10000

theorem writable_of_abs_le {x : ℚ} {k d : Nat} (hx : |x| ≤ k) (hd : x.den ≤ d) (hd' : 1 ≤ k)
    (hlimit : k * d < Nat.pow 10 digitLimit) : Rational.Writable x := by
  have hden : (0 : ℚ) < x.den := Nat.cast_pos.mpr x.den_pos
  have hnum : x.num.natAbs ≤ k * d := by
    rw [Binary64.abs_eq_div, div_le_iff₀ hden] at hx
    have hle : x.num.natAbs ≤ k * x.den := by exact_mod_cast hx
    exact hle.trans (Nat.mul_le_mul_left k hd)
  constructor
  · exact hnum.trans_lt hlimit
  · exact (hd.trans (Nat.le_mul_of_pos_left d hd')).trans_lt hlimit

namespace Coarse

variable {x y : ℚ}

theorem neg (h : Coarse x) : Coarse (-x) := ⟨(abs_neg x).trans_le h.abs_le, h.den_le⟩

theorem writable (h : Coarse x) : Rational.Writable x := by
  refine writable_of_abs_le h.abs_le h.den_le ?_ ?_ <;> decide +kernel

theorem writable_mul (hx : Coarse x) (hy : Coarse y) : Rational.Writable (x * y) := by
  have habs : |x * y| ≤ (2 * Binary64.unitCount * (2 * Binary64.unitCount) : Nat) := by
    rw [abs_mul, Nat.cast_mul]
    exact mul_le_mul hx.abs_le hy.abs_le (abs_nonneg y) (Nat.cast_nonneg _)
  have hden : (x * y).den ≤ 10000 * 10000 :=
    (Nat.le_of_dvd (Nat.mul_pos x.den_pos y.den_pos) (Rat.mul_den_dvd x y)).trans (Nat.mul_le_mul hx.den_le hy.den_le)
  refine writable_of_abs_le habs hden ?_ ?_ <;> decide +kernel

end Coarse

section
variable {f : Elementary}

namespace Rational

theorem coarse_ofDouble {x : Binary64} {q : ℚ} (h : ofDouble { elementary := f } x = .ok q) : Coarse q := by
  cases hx : x.value? with
  | none =>
    have hfinite : ¬x.isFinite = true := fun hfinite => by
      obtain ⟨s, r, rfl⟩ := Binary64.isFinite_iff.mp hfinite
      cases hx
    rw [ofDouble, if_pos (by simpa using hfinite)] at h
    cases h
  | some v =>
    have hvalue : ofDouble { elementary := f } x = _ := ofDouble_eq rfl rfl hx
    rw [hvalue] at h
    have hclosest : Coarse (closestFraction 10000 |v|) := by
      refine ⟨?_, closestFraction_den_le (by decide) (abs_nonneg v)⟩
      have hzero : (0 : ℚ).den ≤ 10000 := by decide
      have hnear := closestFraction_le (by decide) (abs_nonneg v) hzero
      have htri := abs_sub_abs_le_abs_sub (closestFraction 10000 |v|) |v|
      have hrange := Binary64.abs_value_le hx
      rw [zero_sub, abs_neg, abs_abs] at hnear
      rw [abs_abs] at htri
      rw [Nat.cast_mul, Nat.cast_two]
      linarith
    split at h
    · cases h
      exact hclosest.neg
    · cases h
      exact hclosest

theorem coarse_through {g : Binary64 → Except Failure Binary64} {x q : ℚ}
    (h : through { elementary := f } g x = .ok q) : Coarse q := by
  obtain ⟨d, _, h⟩ := bind_ok_iff.mp h
  obtain ⟨y, _, h⟩ := bind_ok_iff.mp h
  exact coarse_ofDouble h

end Rational

/-! ## Operations -/

namespace Gaussian

/-- Both parts can be written. -/
structure Writable (z : Gaussian) : Prop where
  re : Rational.Writable z.re
  im : Rational.Writable z.im

theorem writable_ofRat {x : ℚ} (h : Rational.Writable x) : (ofRat x).Writable :=
  ⟨h, Rational.writable_intCast (n := 0) (by decide)⟩

theorem writable_of_size {z : Gaussian} (h : (z.size : Int) ≤ ({} : Settings).maxBits) : z.Writable := by
  have hsize : z.size ≤ ({} : Settings).maxBits.toNat := by omega
  obtain ⟨hre, him⟩ := max_le_iff.mp hsize
  exact ⟨Rational.writable_of_size hre Settings.default_maxBits, Rational.writable_of_size him Settings.default_maxBits⟩

variable {z w : Gaussian}

theorem writable_abs {q : ℚ} (h : z.abs { elementary := f } = .ok q) : (ofRat q).Writable :=
  writable_ofRat (Rational.coarse_through h).writable

theorem writable_sqrt (h : z.sqrt { elementary := f } = .ok w) : w.Writable := by
  have hzero : Rational.Writable 0 := Rational.writable_intCast (n := 0) (by decide)
  unfold Gaussian.sqrt at h
  split at h
  · split at h
    · obtain ⟨x, hx, h⟩ := bind_ok_iff.mp h
      cases h
      exact ⟨(Rational.coarse_through hx).writable, hzero⟩
    · obtain ⟨y, hy, h⟩ := bind_ok_iff.mp h
      cases h
      exact ⟨hzero, (Rational.coarse_through hy).writable⟩
  · obtain ⟨m, _, h⟩ := bind_ok_iff.mp h
    obtain ⟨x, hx, h⟩ := bind_ok_iff.mp h
    obtain ⟨y, hy, h⟩ := bind_ok_iff.mp h
    cases h
    refine ⟨(Rational.coarse_through hx).writable, ?_⟩
    dsimp only
    split
    · exact (Rational.coarse_through hy).neg.writable
    · exact (Rational.coarse_through hy).writable

theorem writable_sin (h : z.sin { elementary := f } = .ok w) : w.Writable := by
  obtain ⟨sa, hsa, h⟩ := bind_ok_iff.mp h
  obtain ⟨cb, hcb, h⟩ := bind_ok_iff.mp h
  obtain ⟨ca, hca, h⟩ := bind_ok_iff.mp h
  obtain ⟨sb, hsb, h⟩ := bind_ok_iff.mp h
  cases h
  exact ⟨(Rational.coarse_through hsa).writable_mul (Rational.coarse_through hcb),
    (Rational.coarse_through hca).writable_mul (Rational.coarse_through hsb)⟩

theorem writable_cos (h : z.cos { elementary := f } = .ok w) : w.Writable := by
  obtain ⟨ca, hca, h⟩ := bind_ok_iff.mp h
  obtain ⟨cb, hcb, h⟩ := bind_ok_iff.mp h
  obtain ⟨sa, hsa, h⟩ := bind_ok_iff.mp h
  obtain ⟨sb, hsb, h⟩ := bind_ok_iff.mp h
  cases h
  refine ⟨(Rational.coarse_through hca).writable_mul (Rational.coarse_through hcb), ?_⟩
  rw [← neg_mul]
  exact (Rational.coarse_through hsa).neg.writable_mul (Rational.coarse_through hsb)

end Gaussian

end

section
variable {cfg : Settings} {z w : Gaussian}

theorem size_le_of_checked (h : checked cfg z = .ok w) : (w.size : Int) ≤ cfg.maxBits := by
  unfold checked at h
  split at h
  · cases h
  · rename_i hsize
    cases h
    exact not_lt.mp hsize

theorem size_le_of_integerPower {n : Int} (h : integerPower cfg z n = .ok w) : (w.size : Int) ≤ cfg.maxBits := by
  unfold integerPower at h
  split at h
  · obtain ⟨s, _, h⟩ := bind_ok_iff.mp h
    cases h
  · split at h
    · obtain ⟨s, _, h⟩ := bind_ok_iff.mp h
      cases h
    · obtain ⟨v, _, h⟩ := bind_ok_iff.mp h
      exact size_le_of_checked h

/-- A power with an integer exponent is checked, and one with any other exponent is a square root. -/
theorem power_eq_ok {exponent : Gaussian} (h : Surd.power cfg z exponent = .ok w) :
    (exponent = ⟨1/2, 0⟩ ∧ z.sqrt cfg = .ok w) ∨
      (∃ n : Int, exponent = n) ∧ (w.size : Int) ≤ cfg.maxBits := by
  unfold Surd.power at h
  split at h
  · rename_i hhalf
    exact .inl ⟨hhalf, h⟩
  · split at h
    · rename_i hinteger
      simp only [Bool.and_eq_true, Gaussian.isReal, beq_iff_eq] at hinteger
      refine .inr ⟨⟨exponent.re.num, ?_⟩, size_le_of_integerPower h⟩
      exact Gaussian.ext (Rat.coe_int_num_of_den_eq_one hinteger.2).symm hinteger.1
    · obtain ⟨s, _, h⟩ := bind_ok_iff.mp h
      cases h

end

namespace Expr

section
variable {cfg : Settings}

theorem size_le_of_evalSum {args : List Expr} {total z : Gaussian} (htotal : (total.size : Int) ≤ cfg.maxBits)
    (h : evalSum cfg total args = .ok z) : (z.size : Int) ≤ cfg.maxBits := by
  induction args generalizing total with
  | nil =>
    rw [evalSum] at h
    cases h
    exact htotal
  | cons x rest ih =>
    rw [evalSum] at h
    obtain ⟨v, _, h⟩ := bind_ok_iff.mp h
    obtain ⟨next, hnext, h⟩ := bind_ok_iff.mp h
    exact ih (size_le_of_checked hnext) h

theorem size_le_of_evalProduct {args : List Expr} {total z : Gaussian} (htotal : (total.size : Int) ≤ cfg.maxBits)
    (h : evalProduct cfg total args = .ok z) : (z.size : Int) ≤ cfg.maxBits := by
  induction args generalizing total with
  | nil =>
    rw [evalProduct] at h
    cases h
    exact htotal
  | cons x rest ih =>
    rw [evalProduct] at h
    obtain ⟨v, _, h⟩ := bind_ok_iff.mp h
    obtain ⟨next, hnext, h⟩ := bind_ok_iff.mp h
    exact ih (size_le_of_checked hnext) h

end

/-! ## Nodes -/

mutual

/-- The expression and all its parts. -/
def nodes : Expr → List Expr
  | .sum args => .sum args :: nodesOf args
  | .product args => .product args :: nodesOf args
  | .power b e => .power b e :: (b.nodes ++ e.nodes)
  | .apply f args => .apply f args :: nodesOf args
  | x => [x]

def nodesOf : List Expr → List Expr
  | [] => []
  | x :: rest => x.nodes ++ nodesOf rest

end

section
variable (cfg : Settings)

/-- A sum, a product or a power with an integer exponent. -/
def IsChecked : Expr → Prop
  | .sum _ | .product _ => True
  | .power _ exponent | .apply .exp [exponent] => ∃ n : Int, exponent.eval cfg = .ok n
  | _ => False

end

/-- No operation is defined for any other number of arguments. -/
theorem exists_arg_of_eval {cfg : Settings} {g : Operation} {args : List Expr} {z : Gaussian}
    (h : (Expr.apply g args).eval cfg = .ok z) : ∃ arg, args = [arg] := by
  match args with
  | [arg] => exact ⟨arg, rfl⟩
  | [] => rw [eval] at h; cases h; simp
  | _ :: _ :: _ => rw [eval] at h; cases h; simp

section
variable {f : Elementary}

theorem size_le_of_isChecked {x : Expr} (hx : x.IsChecked { elementary := f }) {z : Gaussian}
    (h : x.eval { elementary := f } = .ok z) : (z.size : Int) ≤ ({} : Settings).maxBits := by
  have hpower : ∀ {base exponent : Gaussian} {n : Int}, exponent = n →
      Surd.power { elementary := f } base exponent = .ok z → (z.size : Int) ≤ ({} : Settings).maxBits := by
    intro base exponent n hn hz
    rcases power_eq_ok hz with ⟨hhalf, _⟩ | ⟨_, hsize⟩
    · have hre : (n : ℚ) = 1 / 2 := congrArg Gaussian.re (hn.symm.trans hhalf)
      have hden := congrArg Rat.den hre
      norm_num at hden
    · exact hsize
  have hunit : ((0 : Gaussian).size : Int) ≤ ({ elementary := f : Settings }).maxBits ∧
      ((1 : Gaussian).size : Int) ≤ ({ elementary := f : Settings }).maxBits := by
    change ((0 : Gaussian).size : Int) ≤ 14000 ∧ ((1 : Gaussian).size : Int) ≤ 14000
    decide +kernel
  cases x with
  | sum args =>
    rw [eval] at h
    have hsize := size_le_of_evalSum hunit.1 h
    exact hsize
  | product args =>
    rw [eval] at h
    have hsize := size_le_of_evalProduct hunit.2 h
    exact hsize
  | power b e =>
    obtain ⟨n, hn⟩ := hx
    rw [eval] at h
    obtain ⟨base, _, h⟩ := bind_ok_iff.mp h
    obtain ⟨exponent, hexponent, h⟩ := bind_ok_iff.mp h
    exact hpower (Except.ok.inj (hexponent.symm.trans hn)) h
  | apply g args =>
    obtain ⟨arg, rfl⟩ := exists_arg_of_eval h
    cases g with
    | exp =>
      obtain ⟨n, hn⟩ := hx
      rw [eval] at h
      obtain ⟨base, _, h⟩ := bind_ok_iff.mp h
      obtain ⟨exponent, hexponent, h⟩ := bind_ok_iff.mp h
      exact hpower (Except.ok.inj (hexponent.symm.trans hn)) h
    | _ => exact hx.elim
  | _ => exact hx.elim

theorem writable_of_power {base exponent z : Gaussian}
    (h : Surd.power { elementary := f } base exponent = .ok z) : z.Writable := by
  rcases power_eq_ok h with ⟨_, hsqrt⟩ | ⟨_, hsize⟩
  · exact Gaussian.writable_sqrt hsqrt
  · exact Gaussian.writable_of_size hsize

theorem writable_of_apply {g : Operation} {arg : Expr} {z : Gaussian}
    (h : (Expr.apply g [arg]).eval { elementary := f } = .ok z) : z.Writable := by
  cases g with
  | exp =>
    rw [eval] at h
    obtain ⟨base, _, h⟩ := bind_ok_iff.mp h
    obtain ⟨exponent, _, h⟩ := bind_ok_iff.mp h
    exact writable_of_power h
  | abs =>
    rw [eval] at h
    obtain ⟨w, _, h⟩ := bind_ok_iff.mp h
    obtain ⟨q, hq, h⟩ := bind_ok_iff.mp h
    cases h
    exact Gaussian.writable_abs hq
  | sin =>
    rw [eval] at h
    obtain ⟨w, _, h⟩ := bind_ok_iff.mp h
    exact Gaussian.writable_sin h
  | cos =>
    rw [eval] at h
    obtain ⟨w, _, h⟩ := bind_ok_iff.mp h
    exact Gaussian.writable_cos h
  | sinDegrees =>
    rw [eval] at h
    obtain ⟨w, _, h⟩ := bind_ok_iff.mp h
    obtain ⟨u, _, h⟩ := bind_ok_iff.mp h
    exact Gaussian.writable_sin h
  | cosDegrees =>
    rw [eval] at h
    obtain ⟨w, _, h⟩ := bind_ok_iff.mp h
    obtain ⟨u, _, h⟩ := bind_ok_iff.mp h
    exact Gaussian.writable_cos h
  | other name => rw [eval] at h; cases h

/-- Only an exact number has a value that may be too long. -/
theorem writable_of_eval {x : Expr} (hx : ∀ q, x = exact q → Rational.Writable q) {z : Gaussian}
    (h : x.eval { elementary := f } = .ok z) : z.Writable := by
  cases x with
  | number n =>
    cases n with
    | exact q =>
      rw [eval] at h
      cases h
      exact Gaussian.writable_ofRat (hx q rfl)
    | rounded y =>
      rw [eval] at h
      obtain ⟨q, hq, h⟩ := bind_ok_iff.mp h
      cases h
      exact Gaussian.writable_ofRat (Rational.coarse_ofDouble hq).writable
  | constant c =>
    rw [eval] at h
    obtain ⟨q, hq, h⟩ := bind_ok_iff.mp h
    cases h
    exact Gaussian.writable_ofRat (Rational.coarse_ofDouble hq).writable
  | imaginaryUnit =>
    rw [eval] at h
    cases h
    exact ⟨Rational.writable_intCast (n := 0) (by decide), Rational.writable_intCast (n := 1) (by decide)⟩
  | unknown name => rw [eval] at h; cases h
  | infinite => rw [eval] at h; cases h
  | undefined => rw [eval] at h; cases h
  | sum args => exact Gaussian.writable_of_size (size_le_of_isChecked (x := .sum args) trivial h)
  | product args => exact Gaussian.writable_of_size (size_le_of_isChecked (x := .product args) trivial h)
  | power b e =>
    rw [eval] at h
    obtain ⟨base, _, h⟩ := bind_ok_iff.mp h
    obtain ⟨exponent, _, h⟩ := bind_ok_iff.mp h
    exact writable_of_power h
  | apply g args =>
    obtain ⟨arg, rfl⟩ := exists_arg_of_eval h
    exact writable_of_apply h

/-- By default, if the exact numbers in an expression can be written, then so can the value of every
node: its text is found, its exact form is not too long in any style, and the value of a sum, a product
or an integer power is within the size limit. -/
theorem value_printable (hf : f.SqrtAccurate) {e : Expr} (hleaves : ∀ q, exact q ∈ e.nodes → Rational.Writable q) :
    ∀ x ∈ e.nodes, ∀ z, x.eval { elementary := f } = .ok z →
      (Rational.Writable z.re ∧ Rational.Writable z.im) ∧ (∃ s, z.write = .ok s) ∧
      (∀ style, Display.exact { elementary := f } style z ≠ .error .tooLongToWrite) ∧
      (x.IsChecked { elementary := f } → (z.size : Int) ≤ ({} : Settings).maxBits) := by
  intro x hx z hz
  obtain ⟨hre, him⟩ := writable_of_eval (fun q hq => hleaves q (hq ▸ hx)) hz
  refine ⟨⟨hre, him⟩, (Gaussian.writesIf_write z).exists_ok ⟨hre, him⟩, fun style hlong => ?_,
    fun hchecked => size_le_of_isChecked hchecked hz⟩
  rcases Display.unroundable_exact hf hre him style _ hlong with h | h <;> cases h

end

/-- One half and the square of three. -/
def sampleSum : Expr := .sum [exact (1/2), .power (exact 3) (exact 2)]

theorem value_printable_sampleSum :
    sampleSum.eval { elementary := .native } = .ok (.ofRat (19/2)) ∧ Rational.Writable (19/2) ∧
      ((Gaussian.ofRat (19/2)).size : Int) ≤ ({} : Settings).maxBits := by
  have hvalue : sampleSum.eval { elementary := .native } = .ok (.ofRat (19/2)) := by decide +kernel
  have hleaves : ∀ q, exact q ∈ sampleSum.nodes → Rational.Writable q := by
    have hnodes : sampleSum.nodes = [sampleSum, exact (1/2), .power (exact 3) (exact 2), exact 3, exact 2] := rfl
    have hsmall : ∀ q ∈ [(1/2 : Rat), 3, 2], q.num.natAbs < Nat.pow 10 digitLimit ∧
        (q.den : Int).natAbs < Nat.pow 10 digitLimit := by
      decide +kernel
    intro q hq
    refine hsmall q ?_
    rw [hnodes] at hq
    simpa [sampleSum] using hq
  have hself : sampleSum ∈ sampleSum.nodes := by
    rw [sampleSum, nodes]
    exact List.mem_cons_self ..
  obtain ⟨hwritable, _, _, hsize⟩ :=
    value_printable Elementary.native_sqrtAccurate hleaves sampleSum hself _ hvalue
  exact ⟨hvalue, hwritable.1, hsize trivial⟩

end Expr

end Surd
