import Mathlib
import Surd.Gaussian
import Surd.Proofs.Gaussian.Powers
import Surd.Proofs.Rational.Root

/-!
# Sizes of powers

The size of a number is the number of bits of its largest numerator or denominator. An integer power of
a fraction, of a multiple of the imaginary unit or of a complex integer has at least as many bits, less
one for each factor, as its factors have together: `Gaussian.IsPlain.le_size_zpow`.
-/

namespace Surd

/-! ## Fractions -/

namespace Rational

theorem size_pos (x : Rat) : 1 ≤ size x := le_max_of_le_right (bitLength_pos x.den_nz)

/-- Numerators and denominators are raised to the power one by one. -/
theorem lt_size_pow (x : Rat) (n : Nat) : n * (size x - 1) < size (x ^ n) := by
  have hpos := size_pos x
  have hpow : ∀ m : Nat, size x = bitLength m → n * (size x - 1) < bitLength (m ^ n) := by
    intro m hm
    have hlt : size x - 1 < bitLength m := by omega
    rw [lt_bitLength_iff] at hlt ⊢
    rw [mul_comm, pow_mul]
    exact Nat.pow_le_pow_left hlt n
  have hsize : size (x ^ n) = max (bitLength (x.num.natAbs ^ n)) (bitLength (x.den ^ n)) := by
    rw [size, Rat.num_pow, Rat.den_pow, Int.natAbs_pow]
  rw [hsize]
  rcases max_choice (bitLength x.num.natAbs) (bitLength x.den) with h | h
  · exact lt_max_of_lt_left (hpow _ h)
  · exact lt_max_of_lt_right (hpow _ h)

theorem size_inv {x : Rat} (h : x ≠ 0) : size x⁻¹ = size x := by
  have hnum : x⁻¹.num.natAbs = x.den := by
    rw [Rat.num_inv, Int.natAbs_mul, Int.natAbs_sign_of_ne_zero (Rat.num_ne_zero.mpr h), one_mul, Int.natAbs_natCast]
  rw [size, size, hnum, Rat.den_inv_of_ne_zero h, max_comm]

theorem lt_size_zpow (x : Rat) (n : Int) : n.natAbs * (size x - 1) < size (x ^ n) := by
  by_cases hx : x = 0
  · subst hx
    have hzero : size 0 = 1 := by decide
    rw [hzero, Nat.sub_self, mul_zero]
    exact size_pos _
  · cases n with
    | ofNat m =>
      rw [Int.ofNat_eq_natCast, zpow_natCast, Int.natAbs_natCast]
      exact lt_size_pow x m
    | negSucc m =>
      rw [zpow_negSucc, size_inv (pow_ne_zero _ hx), Int.natAbs_negSucc]
      exact lt_size_pow x _

theorem abs_mul_den (x : Rat) : |x| * x.den = x.num.natAbs := by
  have hden : (x.den : Rat) = |(x.den : Rat)| := (Nat.abs_cast _).symm
  rw [hden, ← abs_mul, Rat.mul_den_eq_num, Nat.cast_natAbs, Int.cast_abs]

/-- An integer that is not zero is as large as its size says. -/
theorem four_pow_le_mul_self {x : Rat} (hden : x.den = 1) (hx : x ≠ 0) : 4 ^ (size x - 1) ≤ x * x := by
  have hnum : 1 ≤ bitLength x.num.natAbs := bitLength_pos (Int.natAbs_ne_zero.mpr (Rat.num_ne_zero.mpr hx))
  have hsize : size x = bitLength x.num.natAbs := by
    rw [size, hden]
    exact max_eq_left hnum
  have hlt : size x - 1 < bitLength x.num.natAbs := by omega
  have habs : |x| = x.num.natAbs := by
    rw [← abs_mul_den, hden, Nat.cast_one, mul_one]
  have hle : (2 : Rat) ^ (size x - 1) ≤ |x| := by
    rw [habs]
    exact_mod_cast lt_bitLength_iff.mp hlt
  calc (4 : Rat) ^ (size x - 1) = 2 ^ (size x - 1) * 2 ^ (size x - 1) := by
        rw [← mul_pow]
        norm_num
    _ ≤ |x| * |x| := mul_self_le_mul_self (by positivity) hle
    _ = x * x := abs_mul_abs_self x

theorem lt_size_of_le_abs {x : Rat} {k : Nat} (h : 2 ^ k ≤ |x|) : k < size x := by
  have hden : (1 : Rat) ≤ x.den := by exact_mod_cast x.den_pos
  have hnum : (2 : Rat) ^ k ≤ x.num.natAbs := by
    calc (2 : Rat) ^ k ≤ |x| := h
      _ ≤ |x| * x.den := le_mul_of_one_le_right (abs_nonneg x) hden
      _ = x.num.natAbs := abs_mul_den x
  exact lt_max_of_lt_left (lt_bitLength_iff.mpr (by exact_mod_cast hnum))

theorem lt_size_of_abs_le {x : Rat} {k : Nat} (hx : x ≠ 0) (h : |x| * 2 ^ k ≤ 1) : k < size x := by
  have hnum : (1 : Rat) ≤ x.num.natAbs := by
    exact_mod_cast Nat.one_le_iff_ne_zero.mpr (Int.natAbs_ne_zero.mpr (Rat.num_ne_zero.mpr hx))
  have hden : |x| * 2 ^ k ≤ |x| * x.den := by
    rw [abs_mul_den]
    exact h.trans hnum
  have hle : (2 : Rat) ^ k ≤ x.den := le_of_mul_le_mul_left hden (abs_pos.mpr hx)
  exact lt_max_of_lt_right (lt_bitLength_iff.mpr (by exact_mod_cast hle))

end Rational

/-! ## Moduli of powers -/

namespace Gaussian

/-- The square of the modulus is multiplicative. -/
def modulusHom : Gaussian →*₀ Rat where
  toFun := modulusSquared
  map_zero' := modulusSquared_eq_zero_iff.mpr rfl
  map_one' := by simp [modulusSquared]
  map_mul' := modulusSquared_mul

theorem modulusSquared_zpow (z : Gaussian) (n : Int) : (z ^ n).modulusSquared = z.modulusSquared ^ n :=
  map_zpow₀ modulusHom z n

/-! ## Sizes of powers -/

theorem size_ofRat (x : Rat) : (ofRat x).size = Rational.size x :=
  max_eq_left (Rational.size_pos x)

theorem re_mul_self_le (z : Gaussian) : z.re * z.re ≤ z.modulusSquared := le_add_of_nonneg_right (mul_self_nonneg _)

theorem im_mul_self_le (z : Gaussian) : z.im * z.im ≤ z.modulusSquared := le_add_of_nonneg_left (mul_self_nonneg _)

theorem le_size_of_modulusSquared {z : Gaussian} {k : Nat} (h : 4 ^ k ≤ z.modulusSquared) : k ≤ z.size := by
  cases k with
  | zero => exact Nat.zero_le _
  | succ k =>
    by_contra hsize
    have hparts : max (Rational.size z.re) (Rational.size z.im) ≤ k := by
      have : z.size = max (Rational.size z.re) (Rational.size z.im) := rfl
      omega
    have hsquare : ∀ x : Rat, Rational.size x ≤ k → x * x < 4 ^ k := by
      intro x hx
      have hlt : |x| < 2 ^ k := not_le.mp fun h => absurd (Rational.lt_size_of_le_abs h) (not_lt.mpr hx)
      calc x * x = |x| * |x| := (abs_mul_abs_self x).symm
        _ < 2 ^ k * 2 ^ k := mul_self_lt_mul_self (abs_nonneg x) hlt
        _ = 4 ^ k := by rw [← mul_pow]; norm_num
    have hre := hsquare z.re ((le_max_left ..).trans hparts)
    have him := hsquare z.im ((le_max_right ..).trans hparts)
    have hpos : (0 : Rat) < 4 ^ k := by positivity
    rw [modulusSquared, pow_succ] at h
    linarith

theorem lt_size_of_modulusSquared {z : Gaussian} {k : Nat} (hz : z ≠ 0) (h : z.modulusSquared * 4 ^ k ≤ 1) :
    k < z.size := by
  have hpart : ∀ x : Rat, x ≠ 0 → x * x ≤ z.modulusSquared → k < Rational.size x := by
    intro x hx hle
    refine Rational.lt_size_of_abs_le hx ?_
    have hsquare : (|x| * 2 ^ k) * (|x| * 2 ^ k) ≤ 1 := by
      calc (|x| * 2 ^ k) * (|x| * 2 ^ k) = x * x * 4 ^ k := by
            rw [mul_mul_mul_comm, abs_mul_abs_self, ← mul_pow]
            norm_num
        _ ≤ z.modulusSquared * 4 ^ k := by gcongr
        _ ≤ 1 := h
    exact (abs_le_of_sq_le_sq' (by linarith) (by norm_num)).2
  by_cases hre : z.re = 0
  · have him : z.im ≠ 0 := fun him => hz (ext hre him)
    exact lt_max_of_lt_right (hpart z.im him z.im_mul_self_le)
  · exact lt_max_of_lt_left (hpart z.re hre z.re_mul_self_le)

/-- Both parts are integers. -/
def IsIntegral (z : Gaussian) : Prop := z.re.den = 1 ∧ z.im.den = 1

theorem IsIntegral.le_modulusSquared {z : Gaussian} (h : z.IsIntegral) (hz : z ≠ 0) :
    4 ^ (z.size - 1) ≤ z.modulusSquared := by
  have hre := z.re_mul_self_le
  have him := z.im_mul_self_le
  have hone : 1 ≤ z.modulusSquared := by
    by_cases hzero : z.re = 0
    · have hne : z.im ≠ 0 := fun him => hz (ext hzero him)
      exact (one_le_pow₀ (by norm_num)).trans ((Rational.four_pow_le_mul_self h.2 hne).trans him)
    · exact (one_le_pow₀ (by norm_num)).trans ((Rational.four_pow_le_mul_self h.1 hzero).trans hre)
  have hall : ∀ x : Rat, x.den = 1 → x * x ≤ z.modulusSquared → 4 ^ (Rational.size x - 1) ≤ z.modulusSquared := by
    intro x hden hle
    by_cases hx : x = 0
    · have hsize : Rational.size x = 1 := by
        rw [hx]
        decide
      rwa [hsize, Nat.sub_self, pow_zero]
    · exact (Rational.four_pow_le_mul_self hden hx).trans hle
  unfold size
  rcases max_choice (Rational.size z.re) (Rational.size z.im) with hmax | hmax
  · rw [hmax]
    exact hall z.re h.1 hre
  · rw [hmax]
    exact hall z.im h.2 him

/-- The power of a complex integer, or of the inverse of one, has many bits in a part that is not zero. -/
theorem IsIntegral.le_size_zpow {z : Gaussian} (h : z.IsIntegral) (n : Int) :
    n.natAbs * (z.size - 1) ≤ (z ^ n).size := by
  by_cases hz : z = 0
  · subst hz
    have hzero : size 0 = 1 := by decide
    rw [hzero, Nat.sub_self, mul_zero]
    exact Nat.zero_le _
  · have hle := h.le_modulusSquared hz
    cases n with
    | ofNat m =>
      refine le_size_of_modulusSquared ?_
      rw [modulusSquared_zpow, Int.ofNat_eq_natCast, zpow_natCast, Int.natAbs_natCast, mul_comm, pow_mul]
      exact pow_le_pow_left₀ (by positivity) hle m
    | negSucc m =>
      refine (lt_size_of_modulusSquared (zpow_ne_zero _ hz) ?_).le
      rw [modulusSquared_zpow, zpow_negSucc, Int.natAbs_negSucc, mul_comm (m + 1), pow_mul]
      have hpos : 0 < z.modulusSquared ^ (m + 1) := by
        exact pow_pos ((by positivity : (0 : Rat) < 4 ^ (z.size - 1)).trans_le hle) _
      rw [inv_mul_le_one₀ hpos]
      exact pow_le_pow_left₀ (by positivity) hle _

theorem size_mul_I (z : Gaussian) : (z * I).size = z.size := by
  have hvalue : z * I = ⟨-z.im, z.re⟩ := by ext <;> simp
  have hneg : Rational.size (-z.im) = Rational.size z.im := by
    rw [Rational.size, Rational.size, Rat.neg_num, Rat.neg_den, Int.natAbs_neg]
  rw [hvalue, size, size, hneg, max_comm]

theorem size_mul_zpow_I (z : Gaussian) (n : Int) : (z * I ^ n).size = z.size := by
  have hI : I ≠ 0 := by decide
  induction n using Int.induction_on with
  | zero => rw [zpow_zero, mul_one]
  | succ n ih => rw [zpow_add_one₀ hI, ← mul_assoc, size_mul_I, ih]
  | pred n ih =>
    rw [← size_mul_I, mul_assoc, ← zpow_add_one₀ hI]
    simpa using ih

/-- A base for which the size of a power is known from below. -/
def IsPlain (z : Gaussian) : Prop := z.im = 0 ∨ z.re = 0 ∨ z.IsIntegral

theorem IsPlain.le_size_zpow {z : Gaussian} (h : z.IsPlain) (n : Int) : n.natAbs * (z.size - 1) ≤ (z ^ n).size := by
  have hreal : ∀ x : Rat, (ofRat x) ^ n = ofRat (x ^ n) := fun x => (map_zpow₀ ofRatHom x n).symm
  rcases h with him | hre | hintegral
  · have hz : z = ofRat z.re := ext rfl him
    rw [hz, hreal, size_ofRat, size_ofRat]
    exact (Rational.lt_size_zpow z.re n).le
  · have hz : z = ofRat z.im * I := by ext <;> simp [hre]
    rw [hz, mul_zpow, size_mul_zpow_I, size_mul_I, hreal, size_ofRat, size_ofRat]
    exact (Rational.lt_size_zpow z.im n).le
  · exact hintegral.le_size_zpow n

end Gaussian

end Surd
