import Mathlib
import Surd.Proofs.LinearSystem.Growth
import Surd.Proofs.LinearSystem.Solution

/-!
# Which systems of equations are solved

Singular is what is found where the determinant is zero, and besides where elimination is blind for the
coefficients of a column; a coefficient beyond the doubles fails in another way. Of numerators and
denominators of at most 2^63 neither comes: `solveEquations_complete`.
-/

namespace Surd.LinearSystem

namespace Augmented

variable {n : Nat}

/-- Fractions as complex numbers. -/
def ofRat (m : Augmented ℚ n) : Augmented Gaussian n := m.map Gaussian.ofRatHom

theorem det_ofRat_eq_zero_iff (m : Augmented ℚ n) : m.ofRat.coefficients.det = 0 ↔ m.coefficients.det = 0 := by
  have hmap : m.ofRat.coefficients.det = Gaussian.ofRatHom m.coefficients.det :=
    (Gaussian.ofRatHom.map_det m.coefficients).symm
  rw [hmap]
  exact map_eq_zero_iff _ Gaussian.ofRatHom.injective

/-- Whether all coefficients are fractions with numerators and denominators of at most `k`. -/
def IsWithin (m : Augmented ℚ n) (k : Nat) : Prop :=
  ∀ i j, (m.coefficients i j).num.natAbs ≤ k ∧ (m.coefficients i j).den ≤ k

theorem within_rows {m : Augmented ℚ n} {k : Nat} (h : m.IsWithin k) : Within k m.ofRat.rows := by
  intro r hr z hz
  obtain ⟨i, rfl⟩ := List.mem_ofFn.mp hr
  obtain ⟨j, rfl⟩ := List.mem_ofFn.mp hz
  exact ⟨m.coefficients i j, rfl, .of_parts (h i j).1 (h i j).2⟩

end Augmented

section
variable {cfg : Settings} {n : Nat} {texts : Fin n → List Char} {m : Augmented ℚ n}

theorem mapM_equationRow
    (hrows : ∀ i, Equation.systemRow cfg (texts i) n = .ok (List.ofFn fun j => .ofRat (m i j))) :
    (List.ofFn texts).mapM (equationRow cfg n) = .ok m.ofRat.entries := by
  refine mapM_ofFn fun i => ?_
  rw [equationRow, hrows]
  exact congrArg Except.ok (List.map_ofFn ..)

theorem solveEquations_eq (hn : n = 2 ∨ n = 3)
    (hrows : ∀ i, Equation.systemRow cfg (texts i) n = .ok (List.ofFn fun j => .ofRat (m i j))) :
    solveEquations cfg (List.ofFn texts) = (eliminate 0 n m.ofRat.rows).map named := by
  have hsupported : (!isSupported n) = false := by
    rcases hn with rfl | rfl <;> rfl
  rw [← m.ofRat.solve_entries cfg hn]
  unfold solveEquations
  dsimp only
  rw [List.length_ofFn, hsupported, mapM_equationRow hrows]
  rfl

end

/-- Equations whose rows are known have a solution found, are called singular, or have a coefficient
that is too large, under these conditions. -/
theorem solveEquations_complete (cfg : Settings) {n : Nat} (hn : n = 2 ∨ n = 3) (texts : Fin n → List Char)
    (m : Augmented ℚ n)
    (hrows : ∀ i, Equation.systemRow cfg (texts i) n = .ok (List.ofFn fun j => .ofRat (m i j))) :
    ((∃ xs, solveEquations cfg (List.ofFn texts) = .ok xs) ↔
      m.coefficients.det ≠ 0 ∧ ¬Meets Overflows m.ofRat.rows ∧ ¬Meets Blind m.ofRat.rows) ∧
    ((∃ column, solveEquations cfg (List.ofFn texts) = .error (.singular column)) ↔
      (m.coefficients.det = 0 ∨ Meets Blind m.ofRat.rows) ∧ ¬Meets Overflows m.ofRat.rows) ∧
    (solveEquations cfg (List.ofFn texts) = .error .fractionTooLarge ↔ Meets Overflows m.ofRat.rows) ∧
    (m.IsWithin (2 ^ 63) → ¬Meets Overflows m.ofRat.rows ∧ ¬Meets Blind m.ofRat.rows) := by
  have hsq := m.ofRat.square_rows
  have houtcome := eliminate_outcome hsq 0
  have hreg : Regular n m.ofRat.rows ↔ m.coefficients.det ≠ 0 :=
    m.ofRat.regular_rows_iff.trans (not_congr m.det_ofRat_eq_zero_iff)
  rw [solveEquations_eq hn hrows]
  refine ⟨?_, ?_, ?_, fun hwithin => ?_⟩
  · rw [← hreg, ← houtcome.ok_iff]
    simp [map_ok_iff]
  · rw [← not_ne_iff, ← hreg, ← houtcome.singular_iff]
    simp only [map_error_iff]
  · rw [map_error_iff, houtcome.tooLarge_iff]
  · exact not_meets_of_within (by omega) hsq le_rfl (Augmented.within_rows hwithin)

/-- Two equations that meet in one point. -/
def crossingEquations : Fin 2 → List Char := !["2/3x + y = 5".toList, "x - y = -1/2".toList]

def crossingMatrix : Augmented ℚ 2 := !![2 / 3, 1, 5; 1, -1, -1 / 2]

theorem solveEquations_crossingEquations :
    (2 = 2 ∨ 2 = 3) ∧
    (∀ i, Equation.systemRow {} (crossingEquations i) 2 = .ok (List.ofFn fun j => .ofRat (crossingMatrix i j))) ∧
    ∃ xs, solveEquations {} (List.ofFn crossingEquations) = .ok xs := by
  have hrows : ∀ i, Equation.systemRow {} (crossingEquations i) 2 = .ok (List.ofFn fun j => .ofRat (crossingMatrix i j)) := by
    decide +kernel
  obtain ⟨hok, _, _, hwithin⟩ := solveEquations_complete {} (.inl rfl) crossingEquations crossingMatrix hrows
  exact ⟨.inl rfl, hrows, hok.mpr ⟨by decide +kernel, hwithin (by unfold Augmented.IsWithin; decide +kernel)⟩⟩

/-- The only coefficient of `x` is zero as a double. -/
def faintEquations : Fin 2 → List Char :=
  !["y = 1".toList, "1/1".toList ++ List.replicate 324 '0' ++ "x + y = 2".toList]

def faintMatrix : Augmented ℚ 2 := !![0, 1, 1; 1 / (Nat.pow 10 324 : Nat), 1, 2]

theorem solveEquations_faintEquations :
    (∀ i, Equation.systemRow {} (faintEquations i) 2 = .ok (List.ofFn fun j => .ofRat (faintMatrix i j))) ∧
    faintMatrix.coefficients.det ≠ 0 ∧ solveEquations {} (List.ofFn faintEquations) = .error (.singular 0) := by
  decide +kernel

end Surd.LinearSystem
