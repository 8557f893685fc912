import Mathlib
import Surd.Proofs.LinearSystem.Equations
import Surd.Proofs.LinearSystem.Range

/-!
# The order of equations

The same equations in another order never have another solution. But a column without real parts is
refused if its first entry is zero, and taken if another one stands first. Where doubles hide nothing
else, the order matters exactly if elimination comes to such a column in one order and not in the other:
`solve_reorder`.
-/

namespace Surd.LinearSystem

/-! ## Two orders -/

theorem eliminate_perm {n c c' : Nat} {rows rows' : List Row} {xs ys : List Gaussian} (hsq : Square n rows)
    (hperm : rows'.Perm rows) (hxs : eliminate c n rows = .ok xs) (hys : eliminate c' n rows' = .ok ys) : xs = ys := by
  obtain ⟨hlen, hunique⟩ := eliminate_sound hsq hxs
  obtain ⟨_, hunique'⟩ := eliminate_sound (hsq.perm hperm) hys
  have hall := (hunique xs hlen).mpr rfl
  exact (hunique' xs hlen).mp fun r hr => hall r (hperm.mem_iff.mp hr)

/-- The same solution, or none because of a pivot that is zero. -/
def Agree (r r' : Except Failure (List (String × Gaussian))) : Prop :=
  (∃ xs, r = .ok xs ∧ r' = .ok xs) ∨ (∃ column, r = .error (.singular column)) ∧ ∃ column, r' = .error (.singular column)

namespace Augmented

variable {n : Nat}

/-- The same equations in another order. -/
def reorder (m : Augmented Gaussian n) (σ : Equiv.Perm (Fin n)) : Augmented Gaussian n := m.submatrix σ id

theorem rows_reorder (m : Augmented Gaussian n) (σ : Equiv.Perm (Fin n)) : (m.reorder σ).rows.Perm m.rows :=
  σ.ofFn_comp_perm m.row

theorem regular_reorder_iff (m : Augmented Gaussian n) (σ : Equiv.Perm (Fin n)) :
    Regular n (m.reorder σ).rows ↔ m.coefficients.det ≠ 0 :=
  (regular_congr (m.rows_reorder σ)).trans m.regular_rows_iff

end Augmented

section
variable (cfg : Settings) {n : Nat} (hn : n = 2 ∨ n = 3) (m : Augmented Gaussian n) (σ : Equiv.Perm (Fin n))
include hn

theorem solution_reorder {xs ys : List (String × Gaussian)} (hxs : solve cfg m.entries = .ok xs)
    (hys : solve cfg (m.reorder σ).entries = .ok ys) : xs = ys := by
  rw [Augmented.solve_entries cfg hn, map_ok_iff] at hxs hys
  obtain ⟨vs, hvs, rfl⟩ := hxs
  obtain ⟨ws, hws, rfl⟩ := hys
  rw [eliminate_perm m.square_rows (m.rows_reorder σ) hvs hws]

/-- Where both runs stay among the doubles, being blind makes the difference. -/
theorem agree_iff (hover : ¬Meets Overflows m.rows) (hover' : ¬Meets Overflows (m.reorder σ).rows) :
    Agree (solve cfg m.entries) (solve cfg (m.reorder σ).entries) ↔
      m.coefficients.det = 0 ∨ (Meets Blind m.rows ↔ Meets Blind (m.reorder σ).rows) := by
  have houtcome := eliminate_outcome m.square_rows 0
  have houtcome' := eliminate_outcome (m.reorder σ).square_rows 0
  have hok := houtcome.ok_iff
  have hok' := houtcome'.ok_iff
  have hsingular := houtcome.singular_iff
  have hsingular' := houtcome'.singular_iff
  rw [m.regular_rows_iff] at hok hsingular
  rw [m.regular_reorder_iff σ] at hok' hsingular'
  -- two solutions are the same one, so only the outcomes are compared
  have hagree : Agree (solve cfg m.entries) (solve cfg (m.reorder σ).entries) ↔
      ((∃ xs, eliminate 0 n m.rows = .ok xs) ∧ ∃ xs, eliminate 0 n (m.reorder σ).rows = .ok xs) ∨
        (∃ column, eliminate 0 n m.rows = .error (.singular column)) ∧
          ∃ column, eliminate 0 n (m.reorder σ).rows = .error (.singular column) := by
    rw [Agree, Augmented.solve_entries cfg hn, Augmented.solve_entries cfg hn]
    simp only [map_ok_iff, map_error_iff]
    refine or_congr_left ⟨?_, ?_⟩
    · rintro ⟨xs, ⟨vs, hvs, _⟩, ws, hws, _⟩
      exact ⟨⟨vs, hvs⟩, ws, hws⟩
    · rintro ⟨⟨vs, hvs⟩, ws, hws⟩
      exact ⟨named vs, ⟨vs, hvs, rfl⟩, ws, hws, by rw [eliminate_perm m.square_rows (m.rows_reorder σ) hvs hws]⟩
  rw [hagree, hok, hok', hsingular, hsingular']
  by_cases hdet : m.coefficients.det = 0
  · simp [hdet, hover, hover']
  · by_cases hblind : Meets Blind m.rows <;> simp [hdet, hover, hover', hblind]

end

/-! ## All orders -/

theorem solve_reorder (cfg : Settings) {n : Nat} (hn : n = 2 ∨ n = 3) (m : Augmented Gaussian n)
    (σ : Equiv.Perm (Fin n)) :
    (∀ xs ys, solve cfg m.entries = .ok xs → solve cfg (m.reorder σ).entries = .ok ys → xs = ys) ∧
    (m.InRange → (m.reorder σ).InRange →
      (Agree (solve cfg m.entries) (solve cfg (m.reorder σ).entries) ↔
        m.coefficients.det = 0 ∨ (Meets Imaginary m.rows ↔ Meets Imaginary (m.reorder σ).rows))) ∧
    (n = 2 → m.IsModerate → m.InRange ∧ (m.reorder σ).InRange) ∧
    ∀ q : Augmented ℚ n, m = q.ofRat → q.IsWithin (2 ^ 63) →
      Agree (solve cfg m.entries) (solve cfg (m.reorder σ).entries) := by
  refine ⟨fun xs ys hxs hys => solution_reorder cfg hn m σ hxs hys, ?_, ?_, ?_⟩
  · intro hrange hrange'
    rw [agree_iff cfg hn m σ hrange.1 hrange'.1, meets_blind_iff, meets_blind_iff, or_iff_right hrange.2,
      or_iff_right hrange'.2]
  · rintro rfl hmoderate
    exact ⟨inRange_of_isModerate hmoderate, inRange_of_isModerate fun i => hmoderate (σ i)⟩
  · rintro q rfl hwithin
    have hrows := Augmented.within_rows hwithin
    have hmeets := not_meets_of_within (by omega) q.ofRat.square_rows le_rfl hrows
    have hmeets' := not_meets_of_within (by omega) (q.ofRat.reorder σ).square_rows le_rfl
      (hrows.perm (q.ofRat.rows_reorder σ))
    rw [agree_iff cfg hn q.ofRat σ hmeets.1 hmeets'.1]
    exact .inr (iff_of_false hmeets.2 hmeets'.2)

/-- The equations `x + i y = 2` and `i x + y = 3`. -/
def balancedMatrix : Augmented Gaussian 2 := !![1, .I, 2; .I, 1, 3]

theorem solve_reorder_balancedMatrix :
    (2 = 2 ∨ 2 = 3) ∧ balancedMatrix.IsModerate ∧
      Agree (solve {} balancedMatrix.entries) (solve {} (balancedMatrix.reorder (Equiv.swap 0 1)).entries) := by
  have hmoderate : balancedMatrix.IsModerate := by
    unfold Augmented.IsModerate
    decide +kernel
  obtain ⟨_, hagree, hrange, _⟩ := solve_reorder {} (.inl rfl) balancedMatrix (Equiv.swap 0 1)
  obtain ⟨hm, hm'⟩ := hrange rfl hmoderate
  refine ⟨.inl rfl, hmoderate, (hagree hm hm').mpr (.inr ?_)⟩
  rw [meets_imaginary_iff (Augmented.square_rows _), meets_imaginary_iff (Augmented.square_rows _)]
  refine iff_of_false ?_ ?_
  · rintro ⟨hfirst, _⟩
    exact absurd hfirst (by decide +kernel)
  · rintro ⟨hfirst, _⟩
    exact absurd hfirst (by decide +kernel)

/-- The equations `y = 2` and `i x = 1`. -/
def turnedMatrix : Augmented Gaussian 2 := !![0, 1, 2; .I, 0, 1]

theorem solve_turnedMatrix :
    turnedMatrix.IsModerate ∧ solve {} turnedMatrix.entries = .error (.singular 0) ∧
      solve {} (turnedMatrix.reorder (Equiv.swap 0 1)).entries = .ok [("x1", ⟨0, -1⟩), ("x2", ⟨2, 0⟩)] ∧
      ¬Agree (solve {} turnedMatrix.entries) (solve {} (turnedMatrix.reorder (Equiv.swap 0 1)).entries) := by
  have hfails : solve {} turnedMatrix.entries = .error (.singular 0) := by decide +kernel
  have hsolves : solve {} (turnedMatrix.reorder (Equiv.swap 0 1)).entries = .ok [("x1", ⟨0, -1⟩), ("x2", ⟨2, 0⟩)] := by
    decide +kernel
  refine ⟨?_, hfails, hsolves, ?_⟩
  · unfold Augmented.IsModerate
    decide +kernel
  · rw [hfails, hsolves]
    simp [Agree]

end Surd.LinearSystem
