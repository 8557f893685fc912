import Mathlib
import Surd.Rational.Root

/-!
# Integer roots

A step of Newton's method from above stays above the root or at it (`lt_succ_newtonStep_pow`), and the first one that
does not decrease starts at it (`pow_le_of_le_newtonStep`). So the loop is a descent from its start to the root
(`exists_descent`), and `integerRoot` is the integer part of the root: `integerRoot_eq_iff`.
-/

namespace Surd

namespace Rational

theorem bitLength_pos {n : Nat} (h : n ≠ 0) : 1 ≤ bitLength n := by
  rw [bitLength, if_neg h]
  omega

theorem lt_bitLength_iff {k n : Nat} : k < bitLength n ↔ 2 ^ k ≤ n := by
  unfold bitLength
  split
  · rename_i hzero
    simp [hzero]
  · rename_i hne
    rw [Nat.lt_succ_iff, Nat.le_log2 hne]

end Rational

/-! ## Steps -/

def newtonStep (n value x : Nat) : Nat := ((n - 1) * x + value / x ^ (n - 1)) / n

theorem newton_eq_step (n value x : Nat) :
    newton n value x = if newtonStep n value x < x then newton n value (newtonStep n value x) else x := by
  rw [newton]
  rfl

section
variable {n value x : Nat} (hn : n ≠ 0)
include hn

theorem lt_succ_newtonStep_pow (hx : x ≠ 0) : value < (newtonStep n value x + 1) ^ n := by
  obtain ⟨m, rfl⟩ := Nat.exists_eq_succ_of_ne_zero hn
  have hstep := Nat.nthRoot.lt_pow_go_succ_aux (a := value) (n := m) hx
  rwa [Nat.add_comm (value / x ^ m)] at hstep

theorem pow_le_of_le_newtonStep (h : x ≤ newtonStep n value x) : x ^ n ≤ value := by
  obtain ⟨m, rfl⟩ := Nat.exists_eq_succ_of_ne_zero hn
  have hquot : x ≤ value / x ^ m := by
    have hmul := (Nat.le_div_iff_mul_le m.succ_pos).mp h
    rw [Nat.mul_succ, Nat.mul_comm x, Nat.succ_sub_one] at hmul
    omega
  rw [Nat.succ_eq_add_one, Nat.pow_succ']
  exact Nat.mul_le_of_le_div _ _ _ hquot

end

/-! ## Descents -/

/-- The steps from `x` decrease, `k` of them, and the next one does not. No estimate on the way is below the root. -/
structure Descent (n value x k : Nat) : Prop where
  above : ∀ j ≤ k, value < ((newtonStep n value)^[j] x + 1) ^ n
  decreasing : ∀ j < k, (newtonStep n value)^[j + 1] x < (newtonStep n value)^[j] x
  stops : (newtonStep n value)^[k] x ≤ (newtonStep n value)^[k + 1] x

section
variable {n value x k : Nat}

theorem Descent.positive (h : Descent n value x k) (hvalue : value ≠ 0) :
    ∀ j ≤ k, 0 < (newtonStep n value)^[j] x := by
  intro j hj
  have habove := h.above j hj
  apply Nat.pos_of_ne_zero
  intro hzero
  rw [hzero, Nat.zero_add, Nat.one_pow] at habove
  omega

theorem Descent.next (habove : value < (x + 1) ^ n) (hlt : newtonStep n value x < x)
    (h : Descent n value (newtonStep n value x) k) : Descent n value x (k + 1) where
  above := by
    intro j hj
    cases j with
    | zero => exact habove
    | succ j => exact h.above j (Nat.le_of_succ_le_succ hj)
  decreasing := by
    intro j hj
    cases j with
    | zero => exact hlt
    | succ j => exact h.decreasing j (Nat.lt_of_succ_lt_succ hj)
  stops := h.stops

theorem exists_descent (hn : n ≠ 0) (habove : value < (x + 1) ^ n) :
    ∃ k, Descent n value x k ∧ newton n value x = (newtonStep n value)^[k] x := by
  induction x using Nat.strong_induction_on with
  | _ x ih =>
    rw [newton_eq_step]
    by_cases hlt : newtonStep n value x < x
    · rw [if_pos hlt]
      have hx : x ≠ 0 := (Nat.zero_lt_of_lt hlt).ne'
      obtain ⟨k, hdescent, hend⟩ := ih _ hlt (lt_succ_newtonStep_pow hn hx)
      exact ⟨k + 1, hdescent.next habove hlt, hend⟩
    · rw [if_neg hlt]
      refine ⟨0, ⟨?_, ?_, Nat.le_of_not_lt hlt⟩, rfl⟩
      · intro j hj
        rwa [Nat.le_zero.mp hj]
      · intro j hj
        exact absurd hj (Nat.not_lt_zero j)

theorem newton_eq (hn : n ≠ 0) (habove : value < (x + 1) ^ n) : newton n value x = Nat.nthRoot n value := by
  obtain ⟨k, hdescent, hend⟩ := exists_descent hn habove
  have hstops := hdescent.stops
  rw [Function.iterate_succ_apply'] at hstops
  rw [hend]
  exact (Nat.nthRoot_eq_of_le_of_lt (pow_le_of_le_newtonStep hn hstops) (hdescent.above k le_rfl)).symm

end

/-! ## Roots -/

/-- The estimate with which the loop begins. -/
def newtonStart (n value : Nat) : Nat := 2 ^ ((bitLength value + n - 1) / n)

theorem lt_newtonStart {n : Nat} (hn : n ≠ 0) (value : Nat) : value < (newtonStart n value + 1) ^ n := by
  have hbits : value < 2 ^ bitLength value := by
    by_contra hnot
    exact (Rational.lt_bitLength_iff.mpr (not_lt.mp hnot)).false
  have hceil : bitLength value ≤ (bitLength value + n - 1) / n * n := by
    have hdiv := Nat.lt_div_mul_add (Nat.pos_of_ne_zero hn) (a := bitLength value + n - 1)
    omega
  calc value < 2 ^ bitLength value := hbits
    _ ≤ 2 ^ ((bitLength value + n - 1) / n * n) := Nat.pow_le_pow_right two_pos hceil
    _ = (2 ^ ((bitLength value + n - 1) / n)) ^ n := pow_mul ..
    _ ≤ (newtonStart n value + 1) ^ n := Nat.pow_le_pow_left (Nat.le_succ _) n

theorem integerRoot_eq_newton {n value : Nat} (hn : n ≠ 1) (hvalue : 2 ≤ value) :
    integerRoot value n = newton n value (newtonStart n value) := by
  unfold integerRoot
  rw [if_neg (by omega)]
  rfl

theorem integerRoot_eq {n : Nat} (hn : n ≠ 0) (value : Nat) : integerRoot value n = Nat.nthRoot n value := by
  by_cases h : value < 2 ∨ n = 1
  · have hvalue : integerRoot value n = value := if_pos h
    rw [hvalue]
    rcases h with hsmall | rfl
    · interval_cases value
      · exact (Nat.nthRoot_zero_right hn).symm
      · exact Nat.nthRoot_one_right.symm
    · rfl
  · rw [not_or, Nat.not_lt] at h
    rw [integerRoot_eq_newton h.2 h.1]
    exact newton_eq hn (lt_newtonStart hn value)

theorem integerRoot_pow_iff {n : Nat} (hn : n ≠ 0) (value : Nat) :
    integerRoot value n ^ n = value ↔ ∃ m, m ^ n = value := by
  rw [integerRoot_eq hn, ← Nat.exists_pow_eq_iff' hn]

/-- The loop ends: it is a descent, on which no step divides by zero. Its end is the integer part of the root. -/
theorem integerRoot_eq_iff {n : Nat} (hn : 1 ≤ n) (value : Nat) :
    (2 ≤ value → n ≠ 1 → ∃ k, Descent n value (newtonStart n value) k ∧
      (∀ j ≤ k, 0 < (newtonStep n value)^[j] (newtonStart n value)) ∧
      integerRoot value n = (newtonStep n value)^[k] (newtonStart n value)) ∧
    ∀ r, integerRoot value n = r ↔ r ^ n ≤ value ∧ value < (r + 1) ^ n := by
  have hne : n ≠ 0 := Nat.ne_of_gt hn
  constructor
  · intro hvalue hone
    obtain ⟨k, hdescent, hend⟩ := exists_descent hne (lt_newtonStart hne value)
    refine ⟨k, hdescent, hdescent.positive (by omega), ?_⟩
    rw [integerRoot_eq_newton hone hvalue, hend]
  · intro r
    rw [integerRoot_eq hne]
    constructor
    · intro hroot
      rw [← hroot]
      exact ⟨Nat.pow_nthRoot_le (.inl hne), Nat.lt_pow_nthRoot_add_one hne value⟩
    · intro hroot
      exact Nat.nthRoot_eq_of_le_of_lt hroot.1 hroot.2

/-- A cube and the number before it. -/
theorem integerRoot_eq_iff_cube : 1 ≤ 3 ∧ integerRoot (10 ^ 60 - 1) 3 = 10 ^ 20 - 1 ∧ integerRoot (10 ^ 60) 3 = 10 ^ 20 :=
  ⟨by decide, ((integerRoot_eq_iff (by decide) _).2 _).mpr (by decide +kernel),
    ((integerRoot_eq_iff (by decide) _).2 _).mpr (by decide +kernel)⟩

end Surd
