import Mathlib
import Surd.Polynomial.Simultaneous
import Surd.Proofs.Gaussian.Field
import Surd.Proofs.Polynomial.Circle

/-!
# Estimates that a sweep leaves where they are

A sweep with exact arithmetic fails iff two estimates coincide. It moves no estimate iff all of them are zeros of
the polynomial, and estimates that do not coincide are then all its roots: `sweep_settled_iff`.
-/

namespace Surd.Sweep

open Polynomial (X C)

section
variable {K : Type} [Field K]

/-- The division and the test for zero of a sweep are those of the field. -/
structure IsExact (div : K → K → K) (isZero : K → Bool) : Prop where
  div_eq : ∀ z w, w ≠ 0 → div z w = z / w
  isZero_iff : ∀ z, isZero z = true ↔ z = 0

/-! ## Polynomials -/

/-- The polynomial with these coefficients, from the highest power down. -/
noncomputable def polynomial : List K → Polynomial K
  | [] => 0
  | c :: cs => C c * X ^ cs.length + polynomial cs

theorem eval_polynomial (z : K) : ∀ cs : List K, (polynomial cs).eval z = horner cs z
  | [] => by simp [polynomial]
  | c :: cs => by simp [polynomial, horner_cons, eval_polynomial z cs]

theorem degree_polynomial_lt : ∀ cs : List K, (polynomial cs).degree < cs.length
  | [] => by simp [polynomial]
  | c :: cs => by
    have hfirst : (C c * X ^ cs.length : Polynomial K).degree < (cs.length + 1 : Nat) :=
      (Polynomial.degree_C_mul_X_pow_le _ _).trans_lt (by exact_mod_cast Nat.lt_succ_self _)
    have hrest : (polynomial cs).degree < (cs.length + 1 : Nat) :=
      (degree_polynomial_lt cs).trans (by exact_mod_cast Nat.lt_succ_self _)
    exact (Polynomial.degree_add_le _ _).trans_lt (max_lt hfirst hrest)

theorem polynomial_monic (cs : List K) : (polynomial (1 :: cs)).Monic := by
  simp only [polynomial, map_one, one_mul]
  exact Polynomial.monic_X_pow_add (degree_polynomial_lt cs)

theorem natDegree_polynomial (cs : List K) : (polynomial (1 :: cs)).natDegree = cs.length := by
  have hdegree : (polynomial cs).degree < (X ^ cs.length : Polynomial K).degree := by
    rw [Polynomial.degree_X_pow]
    exact degree_polynomial_lt cs
  simp only [polynomial, map_one, one_mul]
  rw [Polynomial.natDegree_eq_of_degree_eq (Polynomial.degree_add_eq_left_of_degree_lt hdegree),
    Polynomial.natDegree_X_pow]

/-- As many different zeros as the degree says are all the roots. -/
theorem roots_eq_of_zeros {cs zs : List K} (hlength : cs.length = zs.length) (hnodup : zs.Nodup)
    (hzeros : ∀ z ∈ zs, horner (1 :: cs) z = 0) : (polynomial (1 :: cs)).roots = zs := by
  have hmonic := polynomial_monic cs
  have hsub : (zs : Multiset K) ≤ (polynomial (1 :: cs)).roots := by
    apply (Multiset.le_iff_subset (Multiset.coe_nodup.mpr hnodup)).mpr
    intro z hz
    apply (Polynomial.mem_roots hmonic.ne_zero).mpr
    rw [Polynomial.IsRoot.def, eval_polynomial]
    exact hzeros z hz
  have hcard : (polynomial (1 :: cs)).roots.card ≤ (zs : Multiset K).card := by
    rw [Multiset.coe_card, ← hlength, ← natDegree_polynomial]
    exact Polynomial.card_roots' _
  exact (Multiset.eq_of_le_of_card_le hsub hcard).symm

theorem zeros_of_roots {cs zs : List K} (hroots : (polynomial (1 :: cs)).roots = zs) :
    ∀ z ∈ zs, horner (1 :: cs) z = 0 := by
  intro z hz
  have hmem : z ∈ (polynomial (1 :: cs)).roots := by simpa [hroots] using hz
  rw [← eval_polynomial]
  exact Polynomial.isRoot_of_mem_roots hmem

/-- The full multiset of roots factors the polynomial, and only that one does. -/
theorem roots_eq_iff_factors {cs zs : List K} (hlength : cs.length = zs.length) :
    (polynomial (1 :: cs)).roots = zs ↔ polynomial (1 :: cs) = (zs.map fun z => X - C z).prod := by
  constructor
  · intro hroots
    have hcard : (polynomial (1 :: cs)).roots.card = (polynomial (1 :: cs)).natDegree := by
      rw [hroots, natDegree_polynomial, hlength, Multiset.coe_card]
    have hprod := Polynomial.prod_multiset_X_sub_C_of_monic_of_roots_card_eq (polynomial_monic cs) hcard
    rw [hroots, Multiset.map_coe, Multiset.prod_coe] at hprod
    exact hprod.symm
  · intro hfactors
    have hroots := Polynomial.roots_multiset_prod_X_sub_C (zs : Multiset K)
    rwa [Multiset.map_coe, Multiset.prod_coe, ← hfactors] at hroots

/-! ## Separations -/

theorem separation_eq_prod (zs : List K) (i : Nat) (z : K) :
    separation zs i z = (zs.zipIdx.map fun (w, j) => if i = j then 1 else z - w).prod := by
  rw [separation, List.prod_eq_foldl]

theorem separation_eq_zero_iff {zs : List K} {i : Nat} {z : K} :
    separation zs i z = 0 ↔ ∃ j, i ≠ j ∧ zs[j]? = some z := by
  rw [separation_eq_prod, List.prod_eq_zero_iff, List.mem_map]
  constructor
  · intro h
    obtain ⟨⟨w, j⟩, hmem, hfactor⟩ := h
    rw [List.mem_zipIdx_iff_getElem?] at hmem
    dsimp only at hmem hfactor
    by_cases hij : i = j
    · simp [hij] at hfactor
    · rw [if_neg hij, sub_eq_zero] at hfactor
      exact ⟨j, hij, by rw [hfactor, hmem]⟩
  · intro h
    obtain ⟨j, hij, hj⟩ := h
    exact ⟨(z, j), List.mem_zipIdx_iff_getElem?.mpr hj, by simp [hij]⟩

/-- Some separation is zero iff two estimates coincide. -/
theorem exists_separation_eq_zero_iff {zs : List K} :
    (∃ p ∈ zs.zipIdx, separation zs p.2 p.1 = 0) ↔ ¬zs.Nodup := by
  rw [List.nodup_iff_getElem?_ne_getElem?]
  constructor
  · intro h hnodup
    obtain ⟨⟨z, i⟩, hmem, hzero⟩ := h
    rw [List.mem_zipIdx_iff_getElem?] at hmem
    obtain ⟨j, hij, hj⟩ := separation_eq_zero_iff.mp hzero
    have hi_lt := (List.getElem?_eq_some_iff.mp hmem).1
    have hj_lt := (List.getElem?_eq_some_iff.mp hj).1
    rcases Nat.lt_or_gt_of_ne hij with hlt | hgt
    · exact hnodup i j hlt hj_lt (hmem.trans hj.symm)
    · exact hnodup j i hgt hi_lt (hj.trans hmem.symm)
  · intro h
    push Not at h
    obtain ⟨i, j, hij, hj_lt, heq⟩ := h
    have hj : zs[j]? = some zs[j] := List.getElem?_eq_getElem hj_lt
    refine ⟨(zs[j], i), List.mem_zipIdx_iff_getElem?.mpr (heq.trans hj), ?_⟩
    exact separation_eq_zero_iff.mpr ⟨j, Nat.ne_of_lt hij, hj⟩

/-! ## Sweeps -/

theorem zipWith_zipIdx {α β γ : Type} (f : α → β → γ) (g : α × Nat → β) (l : List α) :
    l.zipWith f (l.zipIdx.map g) = l.zipIdx.map fun p => f p.1 (g p) := by
  apply List.ext_getElem
  · simp
  · intro i _ _
    simp

theorem separation_ne_zero {zs : List K} (hnodup : zs.Nodup) : ∀ p ∈ zs.zipIdx, separation zs p.2 p.1 ≠ 0 := by
  intro p hp hzero
  exact exists_separation_eq_zero_iff.mp ⟨p, hp, hzero⟩ hnodup

section
variable {div : K → K → K} {isZero : K → Bool} (h : IsExact div isZero) (cs : List K) {zs : List K}
include h

theorem sweep_eq_none_iff : sweep div isZero cs zs = none ↔ ¬zs.Nodup := by
  rw [← exists_separation_eq_zero_iff]
  unfold sweep
  simp [h.isZero_iff]

/-- Every estimate moves by the value of the polynomial over its separation. -/
theorem sweep_of_nodup (hnodup : zs.Nodup) :
    sweep div isZero cs zs = some (zs.zipIdx.map fun p => p.1 - horner cs p.1 / separation zs p.2 p.1) := by
  have hany : (zs.zipIdx.map fun p => separation zs p.2 p.1).any isZero = false := by
    simp only [List.any_map, List.any_eq_false]
    intro p hp
    simpa [h.isZero_iff] using separation_ne_zero hnodup p hp
  unfold sweep
  dsimp only
  rw [hany, zipWith_zipIdx]
  simp only [Bool.false_eq_true, if_false, Option.some.injEq]
  apply List.map_congr_left
  intro p hp
  rw [h.div_eq _ _ (separation_ne_zero hnodup p hp)]

theorem sweep_eq_self_iff (hnodup : zs.Nodup) :
    sweep div isZero cs zs = some zs ↔ ∀ z ∈ zs, horner cs z = 0 := by
  have hmoved := List.map_inj_left (l := zs.zipIdx)
    (f := fun p => p.1 - horner cs p.1 / separation zs p.2 p.1) (g := Prod.fst)
  rw [List.zipIdx_map_fst] at hmoved
  rw [sweep_of_nodup h cs hnodup, Option.some.injEq, hmoved]
  constructor
  · intro hstays z hz
    obtain ⟨i, hi⟩ := List.mem_iff_getElem?.mp hz
    have hmem : (z, i) ∈ zs.zipIdx := List.mem_zipIdx_iff_getElem?.mpr hi
    simpa [separation_ne_zero hnodup _ hmem] using hstays _ hmem
  · intro hzeros p hp
    have hmem : p.1 ∈ zs := List.fst_mem_of_mem_zipIdx hp
    simp [hzeros _ hmem]

end

/-- With as many estimates as the degree of a monic polynomial says, a sweep fails iff two of them coincide, and
otherwise moves none iff they are all the roots. -/
theorem sweep_settled_iff {div : K → K → K} {isZero : K → Bool} (h : IsExact div isZero) {cs zs : List K}
    (hlength : cs.length = zs.length) :
    (sweep div isZero (1 :: cs) zs = none ↔ ¬zs.Nodup) ∧
      (zs.Nodup →
        (sweep div isZero (1 :: cs) zs = some zs ↔ polynomial (1 :: cs) = (zs.map fun z => X - C z).prod) ∧
        (sweep div isZero (1 :: cs) zs = some zs ↔ (polynomial (1 :: cs)).roots = zs)) := by
  refine ⟨sweep_eq_none_iff h (1 :: cs), fun hnodup => ?_⟩
  have hroots : sweep div isZero (1 :: cs) zs = some zs ↔ (polynomial (1 :: cs)).roots = zs := by
    rw [sweep_eq_self_iff h (1 :: cs) hnodup]
    exact ⟨roots_eq_of_zeros hlength hnodup, zeros_of_roots⟩
  exact ⟨hroots.trans (roots_eq_iff_factors hlength), hroots⟩

end

/-! ## Complex numbers with rational parts -/

theorem isExact_gaussian : IsExact Gaussian.quotient Gaussian.isZero where
  div_eq z w _ := Gaussian.quotient_eq_div z w
  isZero_iff _ := Gaussian.isZero_iff

/-- The two roots of `x² + 1`. -/
theorem sweep_settled_units :
    IsExact Gaussian.quotient Gaussian.isZero ∧ [Gaussian.I, -Gaussian.I].Nodup ∧
      sweep Gaussian.quotient Gaussian.isZero [1, 0, 1] [Gaussian.I, -Gaussian.I] = some [Gaussian.I, -Gaussian.I] ∧
      polynomial [1, 0, 1] = (X - C Gaussian.I) * (X - C (-Gaussian.I)) ∧
      sweep Gaussian.quotient Gaussian.isZero [1, 0, 1] [Gaussian.I, Gaussian.I] = none := by
  have hnodup : [Gaussian.I, -Gaussian.I].Nodup := by decide +kernel
  have hstays : sweep Gaussian.quotient Gaussian.isZero [1, 0, 1] [Gaussian.I, -Gaussian.I] =
      some [Gaussian.I, -Gaussian.I] := by decide +kernel
  have hdifferent : [(0 : Gaussian), 1].length = [Gaussian.I, -Gaussian.I].length := rfl
  have hequal : [(0 : Gaussian), 1].length = [Gaussian.I, Gaussian.I].length := rfl
  have hfactors := ((sweep_settled_iff isExact_gaussian hdifferent).2 hnodup).1.mp hstays
  have hcoincide := (sweep_settled_iff isExact_gaussian hequal).1
  refine ⟨isExact_gaussian, hnodup, hstays, ?_, hcoincide.mpr (by decide +kernel)⟩
  simpa using hfactors

end Surd.Sweep
