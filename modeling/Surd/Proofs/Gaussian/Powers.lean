import Mathlib
import Surd.Gaussian
import Surd.Proofs.Gaussian.Field

/-!
# Integer powers

Repeated squaring uses up the bits of the exponent, and `result * base ^ n` stays the same (`powLoop_eq`). So the powers
of a number that is not zero are those of the field (`pow_eq`), the inverse is its inverse (`inverse_eq`), and what is
computed has the laws of a field: `pow_laws`.
-/

namespace Surd.Gaussian

/-! ## Repeated squaring -/

theorem powLoop_eq (result base : Gaussian) (n : Nat) : powLoop result base n = result * base ^ n := by
  induction n using Nat.strong_induction_on generalizing result base with
  | _ n ih =>
    rw [powLoop]
    split
    · rename_i hzero
      rw [hzero, pow_zero, mul_one]
    · rename_i hne
      -- the last bit goes into the result, and the others stay as an exponent of the square
      have hn := Nat.div_add_mod n 2
      rw [ih (n / 2) (by omega), ← pow_two, ← pow_mul]
      split
      · rename_i hodd
        rw [hodd] at hn
        conv => rhs; rw [← hn, pow_succ']
        rw [mul_assoc]
      · rename_i heven
        have heven : n % 2 = 0 := by omega
        conv => rhs; rw [← hn, heven, add_zero]

theorem powNat_eq (z : Gaussian) (n : Nat) : z.powNat n = z ^ n := by
  rw [powNat, powLoop_eq, one_mul]

theorem powNat_eq_prod (z : Gaussian) (n : Nat) : z.powNat n = (List.replicate n z).prod := by
  rw [powNat_eq, List.prod_replicate]

/-! ## Inverses -/

theorem inverse_eq {z : Gaussian} (h : z ≠ 0) : z.inverse = .ok z⁻¹ := by
  have hinv : z⁻¹ = ⟨z.re / z.modulusSquared, -z.im / z.modulusSquared⟩ := by
    change quotient 1 z = _
    unfold quotient
    ext <;> simp
  unfold inverse
  dsimp only
  rw [if_neg (mt modulusSquared_eq_zero_iff.mp h), hinv]
  rfl

theorem inverse_zero : (0 : Gaussian).inverse = .error .inverseOfZero := if_pos (modulusSquared_eq_zero_iff.mpr rfl)

/-! ## Integer exponents -/

theorem pow_eq {z : Gaussian} {n : Int} (h : n < 0 → z ≠ 0) : z.pow n = .ok (z ^ n) := by
  unfold pow
  split
  · rename_i hneg
    obtain ⟨m, rfl⟩ := Int.eq_negSucc_of_lt_zero hneg
    rw [powNat_eq, Int.natAbs_negSucc, inverse_eq (pow_ne_zero _ (h hneg)), zpow_negSucc]
  · rename_i hnonneg
    have hcast : z ^ n.natAbs = z ^ n := by
      rw [← zpow_natCast, Int.natAbs_of_nonneg (not_lt.mp hnonneg)]
    rw [powNat_eq, hcast]
    rfl

theorem zero_pow_of_neg {n : Int} (h : n < 0) : (0 : Gaussian).pow n = .error .inverseOfZero := by
  rw [pow, if_pos h, powNat_eq, zero_pow (Int.natAbs_ne_zero.mpr h.ne), inverse_zero]

theorem pow_eq_error_iff {z : Gaussian} {n : Int} {e : Failure} :
    z.pow n = .error e ↔ e = .inverseOfZero ∧ z = 0 ∧ n < 0 := by
  by_cases h : z = 0 ∧ n < 0
  · obtain ⟨rfl, hn⟩ := h
    rw [zero_pow_of_neg hn, Except.error.injEq, eq_comm]
    exact ⟨fun he => ⟨he, rfl, hn⟩, And.left⟩
  · rw [pow_eq fun hn hz => h ⟨hz, hn⟩]
    constructor
    · intro he
      cases he
    · intro he
      exact absurd he.2 h

/-- An integer power is a product of as many factors, or the inverse of one, and it fails exactly for the inverse of
zero. Powers of a number that is not zero multiply by adding the exponents, and a division by it multiplies by its
inverse and is undone by a multiplication. -/
theorem pow_laws (z : Gaussian) :
    (∀ n : Int, 0 ≤ n → z.pow n = .ok (List.replicate n.natAbs z).prod) ∧
      (∀ n : Int, n < 0 → z.pow n = (List.replicate n.natAbs z).prod.inverse) ∧
      (∀ n : Int, (∃ e, z.pow n = .error e ∧ e.kind = .divisionByZero) ↔ z = 0 ∧ n < 0) ∧
      (∀ (n : Int) (e : Failure), z.pow n = .error e → e.kind = .divisionByZero) ∧
      (z ≠ 0 →
        (∀ m n : Int, ∃ x y, z.pow m = .ok x ∧ z.pow n = .ok y ∧ z.pow (m + n) = .ok (x * y)) ∧
        ∃ v, z.inverse = .ok v ∧ v * z = 1 ∧ ∀ w : Gaussian, w.div z = .ok (w * v) ∧ w * v * z = w) := by
  have hkind : ∀ (n : Int) (e : Failure), z.pow n = .error e → e.kind = .divisionByZero := by
    intro n e he
    obtain ⟨rfl, -⟩ := pow_eq_error_iff.mp he
    rfl
  refine ⟨fun n hn => ?_, fun n hn => ?_, fun n => ⟨?_, fun hfail => ?_⟩, hkind, fun hz => ⟨fun m n => ?_, ?_⟩⟩
  · rw [pow, if_neg hn.not_gt, powNat_eq_prod]
    rfl
  · rw [pow, if_pos hn, powNat_eq_prod]
  · rintro ⟨e, he, -⟩
    exact (pow_eq_error_iff.mp he).2
  · exact ⟨.inverseOfZero, pow_eq_error_iff.mpr ⟨rfl, hfail⟩, rfl⟩
  · refine ⟨z ^ m, z ^ n, pow_eq fun _ => hz, pow_eq fun _ => hz, ?_⟩
    rw [← zpow_add₀ hz]
    exact pow_eq fun _ => hz
  · refine ⟨z⁻¹, inverse_eq hz, inv_mul_cancel₀ hz, fun w => ⟨?_, inv_mul_cancel_right₀ hz w⟩⟩
    rw [← div_eq_mul_inv]
    exact div_of_ne_zero w hz

/-- Bits of the exponents that are set and bits that are not, and a negative exponent. -/
theorem pow_laws_eleven :
    (⟨1, 2⟩ : Gaussian) ≠ 0 ∧ pow ⟨1, 2⟩ 11 = .ok (List.replicate 11 (⟨1, 2⟩ : Gaussian)).prod ∧
      pow ⟨1, 2⟩ (-4) = (List.replicate 4 (⟨1, 2⟩ : Gaussian)).prod.inverse ∧
      pow ⟨1, 2⟩ 7 = .ok (⟨6469, -2642⟩ * ⟨-7 / 625, 24 / 625⟩) ∧ (∃ e, pow 0 (-4) = .error e) ∧
      div ⟨5, 5⟩ ⟨1, 2⟩ = .ok (⟨5, 5⟩ * ⟨1 / 5, -2 / 5⟩) ∧ (⟨5, 5⟩ : Gaussian) * ⟨1 / 5, -2 / 5⟩ * ⟨1, 2⟩ = ⟨5, 5⟩ := by
  have hz : (⟨1, 2⟩ : Gaussian) ≠ 0 := by decide
  obtain ⟨hpos, hneg, -, -, hlaws⟩ := pow_laws ⟨1, 2⟩
  obtain ⟨hadd, v, hv, -, hdiv⟩ := hlaws hz
  obtain ⟨x, y, hx, hy, hxy⟩ := hadd 11 (-4)
  have hx' : pow ⟨1, 2⟩ 11 = .ok ⟨6469, -2642⟩ := by decide +kernel
  have hy' : pow ⟨1, 2⟩ (-4) = .ok ⟨-7 / 625, 24 / 625⟩ := by decide +kernel
  have hv' : inverse ⟨1, 2⟩ = .ok ⟨1 / 5, -2 / 5⟩ := by decide +kernel
  cases hx.symm.trans hx'
  cases hy.symm.trans hy'
  cases hv.symm.trans hv'
  obtain ⟨e, he, -⟩ := ((pow_laws 0).2.2.1 (-4)).mpr ⟨rfl, by decide⟩
  exact ⟨hz, hpos 11 (by decide), hneg (-4) (by decide), hxy, ⟨e, he⟩, hdiv ⟨5, 5⟩⟩

end Surd.Gaussian
