import Mathlib
import Surd.Binary64.Arithmetic

/-!
# Zeros in the arithmetic of doubles

When a product is zero, and when a quotient fails.
-/

namespace Surd.Binary64

/-! ## Products -/

theorem roundQuotient_zero (d : Nat) : roundQuotient 0 d = 0 := by
  unfold roundQuotient
  rw [Nat.zero_div, Nat.zero_mod, if_pos]
  omega

theorem nearestRank_zero (d : Nat) : nearestRank 0 d = 0 := by
  unfold nearestRank
  simp only [Nat.zero_mul, Nat.zero_div, Nat.log2_zero, Nat.zero_sub, roundQuotient_zero, Nat.add_zero]

theorem isZero_ofMagnitude_zero (negative : Bool) : (ofMagnitude negative 0).isZero = true := by
  have h : nearestRank (0 : Rat).num.natAbs (0 : Rat).den = 0 := nearestRank_zero _
  rw [ofMagnitude, h]
  rfl

theorem magnitude_zero : magnitude 0 = 0 := by decide +kernel

theorem isZero_mul {x y : Binary64} (hx : x.isZero = true) (hy : y.isFinite = true) : (x * y).isZero = true := by
  cases x with
  | nan => cases hx
  | infinite s => cases hx
  | finite s a =>
    cases y with
    | nan => cases hy
    | infinite t => cases hy
    | finite t b =>
      have ha : a.val = 0 := by simpa [isZero] using hx
      change (ofMagnitude (s != t) (magnitude a * magnitude b)).isZero = true
      rw [ha, magnitude_zero, zero_mul]
      exact isZero_ofMagnitude_zero _

theorem isFinite_of_isZero_mul {x y : Binary64} (h : (x * y).isZero = true) : y.isFinite = true := by
  cases y with
  | finite t b => rfl
  | nan => cases x <;> cases h
  | infinite t =>
    cases x with
    | nan => cases h
    | infinite s => cases h
    | finite s a =>
      change (if (finite s a).isZero then nan else infinite (t != s)).isZero = true at h
      split at h <;> cases h

/-- Where `x * y` is zero, so is `x * y * y`. -/
theorem isZero_mul_mul {x y : Binary64} (h : (x * y).isZero = true) : (x * y * y).isZero = true :=
  isZero_mul h (isFinite_of_isZero_mul h)

/-! ## Quotients -/

theorem div_error_iff {x y : Binary64} {e : Failure} :
    x.div y = .error e ↔ y.isZero = true ∧ e = .floatDivisionByZero := by
  unfold div
  by_cases hy : y.isZero = true
  · rw [if_pos hy]
    constructor
    · intro h
      cases h
      exact ⟨hy, rfl⟩
    · intro h
      obtain ⟨_, rfl⟩ := h
      rfl
  · rw [if_neg hy]
    constructor
    · intro h
      cases h
    · intro h
      obtain ⟨h, _⟩ := h
      exact absurd h hy

end Surd.Binary64
