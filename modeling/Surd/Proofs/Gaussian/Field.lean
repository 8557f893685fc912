import Mathlib
import Surd.Gaussian

/-!
# The field of complex numbers with rational parts

The exact operations are those of a field, in which `quotient` divides. A division by a number that is
not zero does not fail: `div_of_ne_zero`.
-/

namespace Surd.Gaussian

@[ext]
theorem ext {z w : Gaussian} (hre : z.re = w.re) (him : z.im = w.im) : z = w := by
  cases z
  cases w
  simp only at hre him
  rw [hre, him]

/-! ## Parts -/

@[simp] theorem ofRat_re (x : Rat) : (ofRat x).re = x := rfl
@[simp] theorem ofRat_im (x : Rat) : (ofRat x).im = 0 := rfl
@[simp] theorem I_re : I.re = 0 := rfl
@[simp] theorem I_im : I.im = 1 := rfl
@[simp] theorem zero_re : (0 : Gaussian).re = 0 := rfl
@[simp] theorem zero_im : (0 : Gaussian).im = 0 := rfl
@[simp] theorem one_re : (1 : Gaussian).re = 1 := rfl
@[simp] theorem one_im : (1 : Gaussian).im = 0 := rfl
@[simp] theorem neg_re (z : Gaussian) : (-z).re = -z.re := rfl
@[simp] theorem neg_im (z : Gaussian) : (-z).im = -z.im := rfl
@[simp] theorem add_re (z w : Gaussian) : (z + w).re = z.re + w.re := rfl
@[simp] theorem add_im (z w : Gaussian) : (z + w).im = z.im + w.im := rfl
@[simp] theorem sub_re (z w : Gaussian) : (z - w).re = z.re - w.re := rfl
@[simp] theorem sub_im (z w : Gaussian) : (z - w).im = z.im - w.im := rfl
@[simp] theorem mul_re (z w : Gaussian) : (z * w).re = z.re * w.re - z.im * w.im := rfl
@[simp] theorem mul_im (z w : Gaussian) : (z * w).im = z.re * w.im + z.im * w.re := rfl
@[simp] theorem conjugate_re (z : Gaussian) : z.conjugate.re = z.re := rfl
@[simp] theorem conjugate_im (z : Gaussian) : z.conjugate.im = -z.im := rfl

/-! ## Zero and moduli -/

theorem isZero_iff {z : Gaussian} : z.isZero = true ↔ z = 0 := by
  rw [isZero, Bool.and_eq_true, beq_iff_eq, beq_iff_eq]
  constructor
  · intro h
    exact ext h.1 h.2
  · intro h
    subst h
    exact ⟨rfl, rfl⟩

theorem isZero_ofRat_iff {a : ℚ} : (ofRat a).isZero = true ↔ a = 0 := by
  rw [isZero_iff]
  constructor
  · exact congrArg re
  · rintro rfl
    rfl

theorem modulusSquared_nonneg (z : Gaussian) : 0 ≤ z.modulusSquared :=
  add_nonneg (mul_self_nonneg z.re) (mul_self_nonneg z.im)

theorem modulusSquared_eq_zero_iff {z : Gaussian} : z.modulusSquared = 0 ↔ z = 0 := by
  constructor
  · intro h
    have hre := mul_self_nonneg z.re
    have him := mul_self_nonneg z.im
    unfold modulusSquared at h
    exact ext (mul_self_eq_zero.mp (by linarith)) (mul_self_eq_zero.mp (by linarith))
  · intro h
    subst h
    simp [modulusSquared]

theorem modulusSquared_mul (z w : Gaussian) : (z * w).modulusSquared = z.modulusSquared * w.modulusSquared := by
  simp only [modulusSquared, mul_re, mul_im]
  ring

/-! ## Operations -/

instance : CommRing Gaussian where
  zero := 0
  one := 1
  natCast n := ofRat n
  intCast n := ofRat n
  nsmul := nsmulRec
  zsmul := zsmulRec
  add_assoc z w u := ext (add_assoc ..) (add_assoc ..)
  zero_add z := ext (zero_add _) (zero_add _)
  add_zero z := ext (add_zero _) (add_zero _)
  add_comm z w := ext (add_comm ..) (add_comm ..)
  neg_add_cancel z := ext (neg_add_cancel _) (neg_add_cancel _)
  sub_eq_add_neg z w := ext (sub_eq_add_neg ..) (sub_eq_add_neg ..)
  mul_assoc z w u := by ext <;> simp only [mul_re, mul_im] <;> ring
  mul_comm z w := by ext <;> simp only [mul_re, mul_im] <;> ring
  left_distrib z w u := by ext <;> simp only [mul_re, mul_im, add_re, add_im] <;> ring
  right_distrib z w u := by ext <;> simp only [mul_re, mul_im, add_re, add_im] <;> ring
  one_mul z := by ext <;> simp
  mul_one z := by ext <;> simp
  zero_mul z := by ext <;> simp
  mul_zero z := by ext <;> simp
  natCast_zero := rfl
  natCast_succ n := by ext <;> simp
  intCast_ofNat n := congrArg ofRat (Int.cast_natCast n)
  intCast_negSucc n := ext (Int.cast_negSucc n) neg_zero.symm

/-- Fractions among the complex numbers. -/
def ofRatHom : ℚ →+* Gaussian where
  toFun := ofRat
  map_zero' := rfl
  map_one' := rfl
  map_add' x y := by ext <;> simp
  map_mul' x y := by ext <;> simp

theorem ofRatHom_apply (x : ℚ) : ofRatHom x = ofRat x := rfl

theorem quotient_mul_cancel (z : Gaussian) {w : Gaussian} (h : w ≠ 0) : z.quotient w * w = z := by
  have hw : w.modulusSquared ≠ 0 := mt modulusSquared_eq_zero_iff.mp h
  unfold quotient
  ext
  · simp only [mul_re]
    field_simp
    unfold modulusSquared
    ring
  · simp only [mul_im]
    field_simp
    unfold modulusSquared
    ring

theorem quotient_zero (z : Gaussian) : z.quotient 0 = 0 := by
  have h : (0 : Gaussian).modulusSquared = 0 := modulusSquared_eq_zero_iff.mpr rfl
  unfold quotient
  ext <;> simp [h]

theorem quotient_eq_mul (z w : Gaussian) : z.quotient w = z * quotient 1 w := by
  unfold quotient
  ext
  · simp only [mul_re, one_re, one_im]
    ring
  · simp only [mul_im, one_re, one_im]
    ring

instance : Field Gaussian where
  inv z := quotient 1 z
  div := quotient
  div_eq_mul_inv := quotient_eq_mul
  exists_pair_ne := ⟨0, 1, by decide⟩
  mul_inv_cancel z h := by rw [mul_comm]; exact quotient_mul_cancel 1 h
  inv_zero := quotient_zero 1
  nnqsmul := _
  nnqsmul_def := fun _ _ => rfl
  qsmul := _
  qsmul_def := fun _ _ => rfl

instance : CharZero Gaussian where
  cast_injective _ _ h := Nat.cast_injective (congrArg re h)

theorem quotient_eq_div (z w : Gaussian) : z.quotient w = z / w := rfl

/-! ## Checked division -/

theorem div_of_ne_zero (z : Gaussian) {w : Gaussian} (h : w ≠ 0) : z.div w = .ok (z / w) :=
  if_neg (mt modulusSquared_eq_zero_iff.mp h)

end Surd.Gaussian
