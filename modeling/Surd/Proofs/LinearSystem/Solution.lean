import Mathlib
import Surd.Proofs.Equation.Solving
import Surd.Proofs.LinearSystem.Outcome

/-!
# The solution of an augmented matrix

What is found for an augmented matrix solves all its equations, and nothing else does:
`solve_unique`. Where nothing is found, no division is to blame.
-/

namespace Surd.LinearSystem

/-- For each equation the coefficients of its unknowns, then its constant. -/
abbrev Augmented (K : Type) (n : Nat) := Matrix (Fin n) (Fin (n + 1)) K

namespace Augmented

variable {n : Nat}

def Solves {K : Type} [NonUnitalNonAssocSemiring K] (m : Augmented K n) (v : Fin n → K) : Prop :=
  ∀ i, ∑ j : Fin n, m i j.castSucc * v j = m i (Fin.last n)

/-- The coefficients of the unknowns, without the constants. -/
def coefficients {K : Type} (m : Augmented K n) : Matrix (Fin n) (Fin n) K := m.submatrix id Fin.castSucc

/-- The matrix as input of `solve`. -/
def entries (m : Augmented Gaussian n) : List (List Number) :=
  List.ofFn fun i => List.ofFn fun j => .gaussian (m i j)

def row (m : Augmented Gaussian n) (i : Fin n) : Row where
  coefficients := List.ofFn fun j : Fin n => m i j.castSucc
  constant := m i (Fin.last n)

def rows (m : Augmented Gaussian n) : List Row := List.ofFn m.row

/-! ## Rows -/

theorem square_rows (m : Augmented Gaussian n) : Square n m.rows where
  count := List.length_ofFn
  width r hr := by
    obtain ⟨i, rfl⟩ := List.mem_ofFn.mp hr
    exact List.length_ofFn

theorem exists_ofFn {xs : List Gaussian} (h : xs.length = n) : ∃ v : Fin n → Gaussian, xs = List.ofFn v := by
  subst h
  exact ⟨xs.get, (List.ofFn_get xs).symm⟩

theorem zipWith_ofFn (a v : Fin n → Gaussian) :
    (List.ofFn a).zipWith (· * ·) (List.ofFn v) = List.ofFn fun j => a j * v j := by
  refine List.ext_getElem (by simp) fun i h₁ h₂ => ?_
  simp

theorem dot_row (m : Augmented Gaussian n) (i : Fin n) (v : Fin n → Gaussian) :
    dot (m.row i).coefficients (List.ofFn v) = ∑ j : Fin n, m i j.castSucc * v j := by
  rw [row, dot, zipWith_ofFn, List.sum_ofFn]

theorem solves_iff (m : Augmented Gaussian n) (v : Fin n → Gaussian) :
    m.Solves v ↔ ∀ r ∈ m.rows, r.Holds (List.ofFn v) := by
  rw [rows, List.forall_mem_ofFn_iff]
  exact forall_congr' fun i => by rw [Row.Holds, dot_row, row]

/-- Coefficients are regular if their determinant is not zero. -/
theorem regular_rows_iff (m : Augmented Gaussian n) : Regular n m.rows ↔ m.coefficients.det ≠ 0 := by
  have hmul : ∀ v, (∀ r ∈ m.rows, dot r.coefficients (List.ofFn v) = 0) ↔ m.coefficients.mulVec v = 0 := by
    intro v
    rw [rows, List.forall_mem_ofFn_iff, funext_iff]
    exact forall_congr' fun i => by rw [dot_row]; rfl
  rw [ne_eq, ← Matrix.exists_mulVec_eq_zero_iff]
  push Not
  constructor
  · intro hreg v hne hzero
    have hreplicate := hreg _ List.length_ofFn ((hmul v).mpr hzero)
    refine hne (List.ofFn_injective ?_)
    rw [hreplicate]
    exact (List.ofFn_const n 0).symm
  · intro hdet xs hxs hall
    obtain ⟨v, rfl⟩ := exists_ofFn hxs
    by_contra hne
    refine hdet v ?_ ((hmul v).mp hall)
    rintro rfl
    exact hne (List.ofFn_const n 0)

/-! ## Reading a matrix -/

variable (cfg : Settings)

theorem readRow_entries (m : Augmented Gaussian n) (i : Fin n) :
    readRow cfg n (List.ofFn fun j => .gaussian (m i j)) = .ok (m.row i) := by
  have hvalues : (List.ofFn fun j => Number.gaussian (m i j)).mapM (Number.toGaussian cfg) = .ok (List.ofFn (m i)) := by
    have hmap : (List.ofFn fun j => Number.gaussian (m i j)) = (List.ofFn (m i)).map .gaussian := by
      rw [List.map_ofFn]
      rfl
    rw [hmap, mapM_toGaussian_gaussian]
  have htake : (List.ofFn (m i)).take n = List.ofFn fun j : Fin n => m i j.castSucc := by
    refine List.ext_getElem (by simp) fun j h₁ h₂ => ?_
    rw [List.getElem_take, List.getElem_ofFn, List.getElem_ofFn]
    rfl
  have hlast : (List.ofFn (m i)).getD n 0 = m i (Fin.last n) := by
    rw [List.getD_eq_getElem _ _ (by simp), List.getElem_ofFn]
    rfl
  unfold readRow
  rw [if_neg (by simp), hvalues]
  simp only [bind, Except.bind, htake, hlast]
  rfl

theorem mapM_readRow (m : Augmented Gaussian n) : m.entries.mapM (readRow cfg n) = .ok m.rows :=
  mapM_ofFn (m.readRow_entries cfg)

theorem named_ofFn (v : Fin n → Gaussian) :
    named (List.ofFn v) = List.ofFn fun i : Fin n => (s!"x{i.val + 1}", v i) := by
  refine List.ext_getElem (by simp [named]) fun i h₁ h₂ => ?_
  simp [named]

/-- A supported matrix is solved by elimination from its first column on. -/
theorem solve_entries (hn : n = 2 ∨ n = 3) (m : Augmented Gaussian n) :
    solve cfg m.entries = (eliminate 0 n m.rows).map named := by
  have hlen : m.entries.length = n := List.length_ofFn
  have hsupported : (!isSupported n) = false := by
    rcases hn with rfl | rfl <;> rfl
  unfold solve
  dsimp only
  rw [hlen, hsupported, mapM_readRow]
  cases h : eliminate 0 n m.rows <;> simp [bind, Except.bind, h] <;> rfl

end Augmented

/-! ## Solutions -/

/-- A solution that is found is the only one. No failure comes from a division: it is a column in
which a pivot is zero, or a coefficient that is too large to be compared. -/
theorem solve_unique (cfg : Settings) {n : Nat} (hn : n = 2 ∨ n = 3) (m : Augmented Gaussian n) :
    (∀ xs, solve cfg m.entries = .ok xs →
      ∃ v : Fin n → Gaussian, xs = List.ofFn (fun i => (s!"x{i.val + 1}", v i)) ∧ ∀ w, m.Solves w ↔ w = v) ∧
    ∀ e, solve cfg m.entries = .error e → e = .fractionTooLarge ∨ ∃ column, e = .singular column := by
  rw [m.solve_entries cfg hn]
  constructor
  · intro xs h
    obtain ⟨vs, hrun, rfl⟩ := map_ok_iff.mp h
    obtain ⟨hlen, hunique⟩ := eliminate_sound m.square_rows hrun
    obtain ⟨v, rfl⟩ := Augmented.exists_ofFn hlen
    refine ⟨v, Augmented.named_ofFn v, fun w => ?_⟩
    rw [m.solves_iff, hunique _ List.length_ofFn]
    exact List.ofFn_injective.eq_iff
  · intro e h
    have houtcome := eliminate_outcome m.square_rows 0
    rw [map_error_iff.mp h] at houtcome
    cases houtcome with
    | tooLarge => exact .inl rfl
    | blind _ _ column => exact .inr ⟨column, rfl⟩
    | singular _ _ _ column => exact .inr ⟨column, rfl⟩

/-- The equations `y + i z = 1`, `x - y = 2` and `3 x + z = 4 + i`. -/
def sampleMatrix : Augmented Gaussian 3 :=
  !![0, 1, .I, 1;
    1, -1, 0, 2;
    3, 0, 1, 4 + .I]

def sampleSolution : List (String × Gaussian) :=
  [("x1", ⟨8 / 5, 4 / 5⟩), ("x2", ⟨-2 / 5, 4 / 5⟩), ("x3", ⟨-4 / 5, -7 / 5⟩)]

theorem solve_sampleMatrix :
    (3 = 2 ∨ 3 = 3) ∧ solve {} sampleMatrix.entries = .ok sampleSolution ∧
      ∃ v : Fin 3 → Gaussian, sampleSolution = List.ofFn (fun i => (s!"x{i.val + 1}", v i)) ∧
        ∀ w, sampleMatrix.Solves w ↔ w = v := by
  have hsolve : solve {} sampleMatrix.entries = .ok sampleSolution := by decide +kernel
  exact ⟨.inr rfl, hsolve, (solve_unique {} (.inr rfl) sampleMatrix).1 sampleSolution hsolve⟩

end Surd.LinearSystem
