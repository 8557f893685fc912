import Mathlib
import Surd.Binary64.Arithmetic

/-!
# The order of doubles

Comparison is that of places on a scale, so it is transitive and holds of no not-a-number. Magnitudes
are compared by their ranks.
-/

namespace Surd.Binary64

theorem lt_iff {x y : Binary64} : x.lt y = true ↔ ∃ i j, x.place? = some i ∧ y.place? = some j ∧ i < j := by
  unfold lt
  cases x.place? <;> cases y.place? <;> simp

theorem lt_trans {x y z : Binary64} (hxy : x.lt y = true) (hyz : y.lt z = true) : x.lt z = true := by
  obtain ⟨i, j, hi, hj, hij⟩ := lt_iff.mp hxy
  obtain ⟨j', k, hj', hk, hjk⟩ := lt_iff.mp hyz
  obtain rfl : j = j' := Option.some.inj (hj.symm.trans hj')
  exact lt_iff.mpr ⟨i, k, hi, hk, hij.trans hjk⟩

theorem not_lt_self (x : Binary64) : x.lt x = false := by
  unfold lt
  cases x.place? <;> simp

theorem lt_magnitudes (a b : Fin finiteCount) : (finite false a).lt (finite false b) = decide (a.val < b.val) := by
  simp [lt, place?]

theorem isNegative_iff (s : Bool) (k : Fin finiteCount) : (finite s k).isNegative = true ↔ s = true ∧ k.val ≠ 0 := by
  cases s <;> simp [isNegative, lt, place?, zero, signedZero, Nat.pos_iff_ne_zero]

/-! ## Magnitudes -/

theorem isFinite_iff {x : Binary64} : x.isFinite = true ↔ ∃ s r, x = finite s r := by
  cases x <;> simp [isFinite]

theorem isZero_iff {x : Binary64} : x.isZero = true ↔ ∃ s r, x = finite s r ∧ r.val = 0 := by
  cases x <;> simp [isZero]

theorem isFinite_of_isZero {x : Binary64} (h : x.isZero = true) : x.isFinite = true := by
  obtain ⟨s, r, rfl, _⟩ := isZero_iff.mp h
  rfl

theorem finite_of_value? {x : Binary64} {v : Rat} (h : x.value? = some v) : ∃ s r, x = finite s r := by
  cases x with
  | nan => cases h
  | infinite s => cases h
  | finite s r => exact ⟨s, r, rfl⟩

theorem abs_lt_of_isZero {x y : Binary64} (h : y.isZero = true) : x.abs.lt y.abs = false := by
  obtain ⟨s, b, rfl, hb⟩ := isZero_iff.mp h
  cases x with
  | nan => rfl
  | infinite t => simp [abs, lt, place?, hb]
  | finite t a => simp [abs, lt_magnitudes, hb]

theorem lt_abs_of_isZero {x y : Binary64} (hx : x.isZero = true) (hy : y.isFinite = true) (h : y.isZero = false) :
    x.abs.lt y.abs = true := by
  obtain ⟨s, a, rfl, ha⟩ := isZero_iff.mp hx
  obtain ⟨t, b, rfl⟩ := isFinite_iff.mp hy
  have hb : b.val ≠ 0 := by simpa [isZero] using h
  rw [abs, abs, lt_magnitudes, ha]
  exact decide_eq_true (Nat.pos_of_ne_zero hb)

/-! ## Fractions in range -/

theorem ofRat_ne_nan (x : Rat) : ofRat x ≠ nan := by
  unfold ofRat ofMagnitude ofRank
  split <;> simp

theorem ofFraction_of_isFinite {x : Rat} (h : (ofRat x).isFinite = true) : ofFraction x = .ok (ofRat x) := by
  obtain ⟨s, r, hx⟩ := isFinite_iff.mp h
  rw [ofFraction, hx]
  rfl

theorem ofFraction_of_not_isFinite {x : Rat} (h : (ofRat x).isFinite = false) :
    ofFraction x = .error .fractionTooLarge := by
  unfold ofFraction
  cases hx : ofRat x with
  | nan => exact absurd hx (ofRat_ne_nan x)
  | infinite s => rfl
  | finite s r => rw [hx] at h; cases h

end Surd.Binary64
