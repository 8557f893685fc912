import Mathlib
import Surd.Proofs.Radical.Search

/-!
# Square-free radicands

The nested loops of trial division end (`trialDivision_splitSquares`), and they have then taken every square out of a
positive integer (`TrialDivision.squarefree`). So a radical that is found has no square left under its root and is no
fraction, and it keeps to the limits, whatever these are and whichever double stands for the fraction:
`Radical.find?_isReduced`.
-/

namespace Surd

/-! ## Trial division -/

/-- The inner loop: as long as the square of the factor divides what is left, it is divided out and the factor goes into
the root. A derivation is a run that ends. -/
inductive Extraction (f : Nat) : Nat → Nat → Nat → Nat → Prop where
  | done {c m : Nat} (h : ¬f * f ∣ m) : Extraction f c m c m
  | take {c m c' m' : Nat} (h : f * f ∣ m) (rest : Extraction f (c * f) (m / (f * f)) c' m') : Extraction f c m c' m'

/-- The outer loop: the factors are gone through until the square of one is larger than what is left. -/
inductive TrialDivision : Nat → Nat → Nat → Nat → Nat → Prop where
  | done {f c m : Nat} (h : m < f * f) : TrialDivision f c m c m
  | next {f c m c₁ m₁ c₂ m₂ : Nat} (h : f * f ≤ m) (inner : Extraction f c m c₁ m₁)
      (rest : TrialDivision (f + 1) c₁ m₁ c₂ m₂) : TrialDivision f c m c₂ m₂

/-- `splitSquares` tests the end of the outer loop also between two divisions, where it changes nothing: what is then
left is smaller than the square of the factor, so the inner loop would end as well, and the outer one after it. -/
theorem trialDivision_splitSquares (c m k : Nat) :
    TrialDivision (k + 2) c m (splitSquares c m k).1 (splitSquares c m k).2 := by
  induction c, m, k using splitSquares.induct with
  | case1 c m k hlt =>
    rw [splitSquares, dif_pos hlt]
    exact .done hlt
  | case2 c m k hle _ hmod _ ih =>
    rw [splitSquares, dif_neg hle, if_pos hmod]
    have hdvd := Nat.dvd_of_mod_eq_zero hmod
    have hpos : 0 < m / ((k + 2) * (k + 2)) := Nat.div_pos (not_lt.mp hle) (by positivity)
    generalize splitSquares (c * (k + 2)) (m / ((k + 2) * (k + 2))) k = found at ih ⊢
    obtain ⟨c', m'⟩ := found
    cases ih with
    | done hlt =>
      refine .next (not_lt.mp hle) (.take hdvd (.done (Nat.not_dvd_of_pos_of_lt hpos hlt))) (.done ?_)
      exact hlt.trans_le (Nat.mul_le_mul (Nat.le_succ _) (Nat.le_succ _))
    | next _ inner rest => exact .next (not_lt.mp hle) (.take hdvd inner) rest
  | case3 c m k hle _ hmod ih =>
    rw [splitSquares, dif_neg hle, if_neg hmod]
    exact .next (not_lt.mp hle) (.done (mt Nat.mod_eq_zero_of_dvd hmod)) ih

/-- The squares of all smaller factors have been taken out. -/
def Sieved (m f : Nat) : Prop := ∀ d, 2 ≤ d → d * d ∣ m → f ≤ d

theorem sieved_two (m : Nat) : Sieved m 2 := fun _ hd _ => hd

/-- A division keeps what has been sieved, and the last one adds the factor. -/
theorem Extraction.sieved {f c m c' m' : Nat} (h : Extraction f c m c' m') (hm : 0 < m) (hsieved : Sieved m f) :
    0 < m' ∧ Sieved m' (f + 1) := by
  induction h with
  | done hdvd =>
    refine ⟨hm, fun d hd hsquare => ?_⟩
    have hle := hsieved d hd hsquare
    have hne : d ≠ f := by
      rintro rfl
      exact hdvd hsquare
    omega
  | take hdvd _ ih =>
    refine ih (Nat.div_pos (Nat.le_of_dvd hm hdvd) (Nat.pos_of_dvd_of_pos hdvd hm)) fun d hd hsquare => ?_
    exact hsieved d hd (hsquare.trans (Nat.div_dvd_of_dvd hdvd))

/-- At the end no larger square fits into what is left. -/
theorem Sieved.squarefree {m f : Nat} (h : Sieved m f) (hm : 0 < m) (hlt : m < f * f) : Squarefree m := by
  intro d hsquare
  rw [Nat.isUnit_iff]
  have hne : d ≠ 0 := by
    rintro rfl
    exact hm.ne' (Nat.eq_zero_of_zero_dvd hsquare)
  by_contra hone
  have hle := h d (by omega) hsquare
  have hfits := (Nat.mul_le_mul hle hle).trans (Nat.le_of_dvd hm hsquare)
  omega

theorem TrialDivision.squarefree {f c m c' m' : Nat} (h : TrialDivision f c m c' m') (hm : 0 < m)
    (hsieved : Sieved m f) : Squarefree m' := by
  induction h with
  | done hlt => exact hsieved.squarefree hm hlt
  | next _ inner _ ih =>
    obtain ⟨hpos, hnext⟩ := inner.sieved hm hsieved
    exact ih hpos hnext

/-! ## The split of an integer -/

/-- An integer is a square times what has no square in it. -/
structure IsSplit (k c m : Nat) : Prop where
  one_le_root : 1 ≤ c
  eq_mul : k = c * c * m
  squarefree : Squarefree m

/-- Trial division of a positive integer ends with its split. -/
theorem exists_squareFree {k : Nat} (hk : 1 ≤ k) :
    ∃ c m : Nat, squareFree k = (c, (m : Int)) ∧ TrialDivision 2 1 k c m ∧ IsSplit k c m := by
  have hrun := trialDivision_splitSquares 1 k 0
  have hsplit := splitSquares_eq 1 k 0
  rw [one_pow, one_mul, pow_two] at hsplit
  refine ⟨_, _, rfl, hrun, ?_, hsplit.symm, hrun.squarefree hk (sieved_two k)⟩
  by_contra hroot
  have hzero : (splitSquares 1 k 0).1 = 0 := by omega
  rw [hzero] at hsplit
  omega

/-- What is under the root of an integer that is no square is more than 1. -/
theorem IsSplit.two_le {k c m : Nat} (h : IsSplit k c m) (hk : 1 ≤ k) (hsquare : ¬IsSquare k) : 2 ≤ m := by
  have hzero : m ≠ 0 := by
    rintro rfl
    have := h.eq_mul
    omega
  have hone : m ≠ 1 := by
    rintro rfl
    exact hsquare ⟨c, by rw [h.eq_mul, mul_one]⟩
  omega

/-! ## What is found -/

namespace Radical

variable {cfg : Settings}

/-- No square is left under the root, the radical is no fraction, and it keeps to the limits. -/
structure IsReduced (cfg : Settings) (r : Radical) : Prop where
  squarefree : Squarefree r.radicand
  two_le_radicand : 2 ≤ r.radicand
  coefficient_ne : r.coefficient ≠ 0
  one_le_divisor : 1 ≤ r.divisor
  divisor_le : r.divisor ≤ cfg.maxRadicalDivisor
  not_square : ¬IsSquare (r.coefficient ^ 2 * r.radicand)
  square_le : r.coefficient ^ 2 * r.radicand ≤ cfg.maxRadicand

theorem isReduced_of_withOffset? {divisor : Nat} {tolerance t : Binary64} {p : Int} {r : Radical}
    (hpos : 1 ≤ divisor) (hle : divisor ≤ cfg.maxRadicalDivisor)
    (h : withOffset? cfg divisor tolerance t p = .ok (some r)) : r.IsReduced cfg := by
  obtain ⟨-, hfound⟩ := withOffset?_eq_some h
  obtain ⟨k, _, -, htwo, -, hsquare, -, -, rfl⟩ := withOffset?_parts h
  obtain ⟨n, rfl⟩ := Int.eq_ofNat_of_zero_le (show 0 ≤ k by omega)
  obtain ⟨c, m, hparts, -, hsplit⟩ := exists_squareFree (show 1 ≤ n by omega)
  have hirrational : ¬IsSquare n := by
    rintro ⟨s, rfl⟩
    exact hsquare ⟨s, Nat.cast_mul s s⟩
  exact {
    squarefree := by
      rw [hparts]
      exact Int.squarefree_natCast.mpr hsplit.squarefree
    two_le_radicand := by
      rw [hparts]
      exact Int.ofNat_le.mpr (hsplit.two_le (by omega) hirrational)
    coefficient_ne := hfound.coefficient_ne
    one_le_divisor := Nat.one_le_cast.mpr hpos
    divisor_le := hle
    not_square := hfound.not_square
    square_le := hfound.le_max }

theorem isReduced_of_ofDouble? {v : Binary64} {r : Radical} (h : ofDouble? cfg v = .ok (some r)) : r.IsReduced cfg := by
  obtain ⟨d, n, p, hd, -, -, h⟩ := ofDouble?_eq_some h
  exact isReduced_of_withOffset? d.succ_pos (by omega) h

/-- Trial division of a positive integer ends with a square and what has no square in it. A radical that is found for a
double, and so one that is found for a fraction, is reduced and keeps to the limits. -/
theorem find?_isReduced :
    (∀ k : Nat, 1 ≤ k → ∃ c m : Nat, squareFree k = (c, (m : Int)) ∧ TrialDivision 2 1 k c m ∧ IsSplit k c m) ∧
      ∀ (cfg : Settings) (r : Radical), (∀ v : Binary64, ofDouble? cfg v = .ok (some r) → r.IsReduced cfg) ∧
        ∀ x : ℚ, find? cfg x = .ok (some r) → r.IsReduced cfg := by
  refine ⟨fun k hk => exists_squareFree hk, fun cfg r => ⟨fun v h => isReduced_of_ofDouble? h, fun x h => ?_⟩⟩
  obtain ⟨-, v, -, h⟩ := find?_ofDouble? h
  exact isReduced_of_ofDouble? h

/-- Two divisors, and no larger radicand than that of `2 √3`. -/
def narrow : Settings := { maxRadicand := 12, maxRadicalDivisor := 2 }

/-- An integer that 9 divides twice, and a fraction for `(1 - 2 √3) / 2`. -/
theorem find?_isReduced_narrow :
    1 ≤ 7128 ∧ TrialDivision 2 1 7128 18 22 ∧ IsSplit 7128 18 22 ∧
      find? narrow (-10279 / 8343) = .ok (some ⟨1, -2, 3, 2⟩) ∧ IsReduced narrow ⟨1, -2, 3, 2⟩ := by
  have hfound : find? narrow (-10279 / 8343) = .ok (some ⟨1, -2, 3, 2⟩) := by decide +kernel
  have hsplit : squareFree 7128 = (18, 22) := by decide +kernel
  obtain ⟨c, m, hparts, hrun, hsplits⟩ := find?_isReduced.1 7128 (by decide)
  obtain ⟨rfl, hm⟩ := Prod.mk.inj (hsplit.symm.trans hparts)
  obtain rfl : 22 = m := by exact_mod_cast hm
  exact ⟨by decide, hrun, hsplits, hfound, (find?_isReduced.2 narrow _).2 _ hfound⟩

end Radical

end Surd
