import Mathlib
import Surd.Proofs.Rational.Root
import Surd.Proofs.Rational.SquareRoot

/-!
# Square roots in two ways

The square root of a double fails for a negative one, while a root of order two is that of the magnitude.
So the two ways of taking an exact square root agree for a number whose double is not negative, and for no
other number: `sqrtExact_agrees_iff`.
-/

namespace Surd

namespace Binary64

/-! ## Signs of doubles -/

theorem isNegative_iff_value {x : Binary64} {v : ℚ} (h : x.value? = some v) : x.isNegative = true ↔ v < 0 := by
  obtain ⟨s, k, rfl⟩ := finite_of_value? h
  have hnonneg := magnitude_nonneg k
  rw [isNegative_iff, ← Option.some.inj h]
  cases s with
  | false => simp [hnonneg]
  | true =>
    by_cases hk : k.val = 0
    · simp [hk, magnitude_zero]
    · simp [hk, magnitude_pos hk]

theorem sqrt_of_isNegative {x : Binary64} (hx : x.isFinite = true) (h : x.isNegative = true) :
    sqrt x = .error .squareRootOfNegative := by
  obtain ⟨s, k, rfl⟩ := isFinite_iff.mp hx
  obtain ⟨rfl, hk⟩ := (isNegative_iff s k).mp h
  have hzero : ¬(finite true k).isZero = true := mt beq_iff_eq.mp hk
  exact (if_neg hzero).trans (if_pos rfl)

/-- The double for a negative fraction is negative, or a zero. -/
theorem isZero_of_not_isNegative {x : ℚ} (hx : x < 0) (hfinite : (ofRat x).isFinite = true)
    (h : (ofRat x).isNegative = false) : (ofRat x).isZero = true := by
  rw [ofRat_eq, decide_eq_true (Rat.num_neg.mpr hx)] at hfinite h ⊢
  by_cases hrank : rankOf x < finiteCount
  · rw [ofRank_eq hrank] at h ⊢
    by_contra hzero
    have hneg := (isNegative_iff true ⟨rankOf x, hrank⟩).mpr ⟨rfl, mt beq_iff_eq.mpr hzero⟩
    rw [hneg] at h
    cases h
  · rw [ofRank, dif_neg hrank] at hfinite
    cases hfinite

end Binary64

/-! ## Powers with the exponent one half -/

/-- Square roots are the nearest doubles, and powers with the exponent one half of numbers that are not
negative are finite and not negative either. -/
structure Elementary.HalfPowers (f : Elementary) : Prop where
  sqrt_eq : f.sqrt = Binary64.sqrt
  pow_half : ∀ (x : Binary64) (v : ℚ), x.value? = some v → 0 ≤ v →
    ∃ r, (f.pow x (Binary64.ofRat (1 / 2))).value? = some r ∧ 0 ≤ r

theorem Elementary.power_of_value {f : Elementary} {exponent x : Binary64} {r : ℚ}
    (h : (f.pow x exponent).value? = some r) : f.power exponent x = .ok (f.pow x exponent) := by
  obtain ⟨s, k, hk⟩ := Binary64.finite_of_value? h
  unfold power
  rw [hk]
  cases x <;> rfl

theorem Elementary.HalfPowers.sqrtNonneg {f : Elementary} (hf : f.HalfPowers) : f.SqrtNonneg where
  nonneg x v hx hv := by
    rw [hf.sqrt_eq]
    exact native_sqrtAccurate.sqrtNonneg.nonneg x v hx hv

namespace Rational

/-- Both find a root, as exact as the other one and the same where it is exact, or neither has a value. -/
def Agree : Except Failure (Bool × ℚ) → Except Failure (Bool × ℚ) → Prop
  | .ok (exact, r), .ok (exact', r') => exact = exact' ∧ (exact = true → r = r')
  | .error e, .error f => e.kind = .value ∧ f.kind = .value
  | _, _ => False

theorem sqrtExact_eq (cfg : Settings) {x : ℚ} (h : ¬∃ r : ℚ, r ^ 2 = x) :
    sqrtExact cfg x = (do let y ← sqrt cfg x; pure (false, y)) := by
  unfold sqrtExact
  rw [(isPerfectSquare_eq_ok_iff x false).mpr (iff_of_false Bool.false_ne_true h), ok_bind,
    if_neg Bool.false_ne_true]

theorem rootExact_two_eq (cfg : Settings) {x : ℚ} (h : ¬∃ r : ℚ, r ^ 2 = x) :
    rootExact cfg x 2 = (do let y ← through cfg (doubleRoot cfg 2) x; pure (false, y)) := by
  have htest := (isPerfectPower_eq_ok_iff x two_ne_zero false).mpr (iff_of_false Bool.false_ne_true h)
  have htwo : ((2 : Nat) : Int) = 2 := rfl
  rw [htwo] at htest
  unfold rootExact
  rw [htest, ok_bind, if_neg Bool.false_ne_true]

section
variable {cfg : Settings} (hbound : 1 ≤ cfg.maxDenominator)
include hbound

theorem exists_ofDouble_of_nonneg {y : Binary64} {v : ℚ} (hy : y.value? = some v) (hv : 0 ≤ v) :
    ∃ q, ofDouble cfg y = .ok q ∧ 0 ≤ q := by
  rcases ofDouble_cases cfg hy hv with ⟨q, hq, hq0, _⟩ | ⟨_, hlt⟩
  · exact ⟨q, hq, hq0⟩
  · omega

variable (hf : cfg.elementary.HalfPowers) {x : ℚ} (hx : (Binary64.ofRat x).isFinite = true)
include hf hx

omit hbound in
/-- The root of order two is that of the magnitude. -/
theorem through_doubleRoot_two : through cfg (doubleRoot cfg 2) x =
    ofDouble cfg (cfg.elementary.pow (Binary64.ofRat x).abs (Binary64.ofRat (1 / 2))) := by
  obtain ⟨v, hv, _⟩ := Binary64.value_ofRat_rounds hx
  obtain ⟨r, hr, _⟩ := hf.pow_half _ _ (Binary64.value?_abs hv) (abs_nonneg v)
  have htwo : ((2 : Int) : ℚ) = 2 := rfl
  have hhalf : Binary64.div 1 (Binary64.ofRat 2) = .ok (Binary64.ofRat (1 / 2)) := by decide +kernel
  unfold through doubleRoot
  rw [Binary64.ofFraction_of_isFinite hx, ok_bind, htwo, hhalf, ok_bind, Elementary.power_of_value hr, ok_bind,
    if_neg (by simp)]
  rfl

theorem exists_through_doubleRoot_two : ∃ q, through cfg (doubleRoot cfg 2) x = .ok q ∧ 0 ≤ q := by
  obtain ⟨v, hv, _⟩ := Binary64.value_ofRat_rounds hx
  obtain ⟨r, hr, hr0⟩ := hf.pow_half _ _ (Binary64.value?_abs hv) (abs_nonneg v)
  rw [through_doubleRoot_two hf hx]
  exact exists_ofDouble_of_nonneg hbound hr hr0

/-- A number whose double is not negative has a square root, one whose double is negative has none. -/
theorem sqrt_cases : (Binary64.ofRat x).isNegative = false ∧ (∃ q, sqrt cfg x = .ok q) ∨
    (Binary64.ofRat x).isNegative = true ∧ sqrt cfg x = .error .squareRootOfNegative := by
  unfold sqrt through
  rw [Binary64.ofFraction_of_isFinite hx, ok_bind]
  obtain ⟨v, hv, _⟩ := Binary64.value_ofRat_rounds hx
  cases hneg : (Binary64.ofRat x).isNegative with
  | true =>
    rw [hf.sqrt_eq, Binary64.sqrt_of_isNegative hx hneg]
    exact .inr ⟨rfl, rfl⟩
  | false =>
    have hv0 : 0 ≤ v := by
      rw [Bool.eq_false_iff, ne_eq, Binary64.isNegative_iff_value hv] at hneg
      exact not_lt.mp hneg
    obtain ⟨y, r, hy, hr, hr0⟩ := hf.sqrtNonneg.nonneg _ v hv hv0
    obtain ⟨q, hq, _⟩ := exists_ofDouble_of_nonneg hbound hr hr0
    rw [hy, ok_bind]
    exact .inl ⟨rfl, q, hq⟩

omit hbound in
theorem sqrt_eq_zero_of_neg (hneg : x < 0) (h : (Binary64.ofRat x).isNegative = false) : sqrt cfg x = .ok 0 := by
  have hzero := Binary64.isZero_of_not_isNegative hneg hx h
  have hroot : Binary64.sqrt (Binary64.ofRat x) = .ok (Binary64.ofRat x) := by
    obtain ⟨s, k, hk, _⟩ := Binary64.isZero_iff.mp hzero
    rw [hk] at hzero ⊢
    exact if_pos hzero
  unfold sqrt through
  rw [Binary64.ofFraction_of_isFinite hx, ok_bind, hf.sqrt_eq, hroot, ok_bind, ofDouble_of_isZero cfg hzero]

/-- The two square roots agree exactly for numbers with a double that is not negative. Of a negative number the
root of order two is taken all the same; the other one fails, or is zero where the double is a zero. -/
theorem sqrtExact_agrees_iff :
    (Agree (sqrtExact cfg x) (rootExact cfg x 2) ↔ (Binary64.ofRat x).isNegative = false) ∧
      (x < 0 → (∃ r, rootExact cfg x 2 = .ok (false, r) ∧ 0 ≤ r) ∧
        sqrtExact cfg x =
          if (Binary64.ofRat x).isNegative then .error .squareRootOfNegative else .ok (false, 0)) := by
  by_cases hsquare : ∃ r : ℚ, r ^ 2 = x
  · have hdecides := rootExact_decides cfg x (n := 2) one_le_two
    obtain ⟨r, hr⟩ := hsquare
    have hnonneg : 0 ≤ x := hr ▸ sq_nonneg r
    obtain ⟨p, hp, hproot⟩ := hdecides.1.found ⟨r, hr⟩
    obtain ⟨q, hq, hqroot⟩ := hdecides.2.found ⟨r, hr⟩
    have heq : q = p := by
      refine (sq_eq_sq₀ (hqroot.nonneg even_two) (hproot.nonneg even_two)).mp ?_
      rw [hqroot.pow_eq, hproot.pow_eq]
    have hsign : (Binary64.ofRat x).isNegative = false := by
      obtain ⟨v, hv, hv0⟩ := Binary64.value_ofRat_nonneg hnonneg hx
      rw [Bool.eq_false_iff, ne_eq, Binary64.isNegative_iff_value hv]
      exact hv0.not_gt
    rw [hsign, hq, show rootExact cfg x 2 = .ok (true, p) from hp]
    exact ⟨iff_of_true ⟨rfl, fun _ => heq⟩ rfl, fun hneg => absurd hneg hnonneg.not_gt⟩
  · obtain ⟨r, hr, hr0⟩ := exists_through_doubleRoot_two hbound hf hx
    rw [sqrtExact_eq cfg hsquare, rootExact_two_eq cfg hsquare, hr, ok_bind]
    rcases sqrt_cases hbound hf hx with ⟨hsign, q, hq⟩ | ⟨hsign, herror⟩
    · rw [hsign, hq, ok_bind]
      refine ⟨iff_of_true ⟨rfl, nofun⟩ rfl, fun hneg => ⟨⟨r, rfl, hr0⟩, ?_⟩⟩
      rw [sqrt_eq_zero_of_neg hf hx hneg hsign] at hq
      cases hq
      rfl
    · rw [hsign, herror]
      exact ⟨iff_of_false id nofun, fun _ => ⟨⟨r, rfl, hr0⟩, rfl⟩⟩

end

/-- A library in which powers with the exponent one half are the square roots. -/
def rootPowers : Elementary :=
  { Elementary.native with
    pow := fun x exponent =>
      if exponent = Binary64.ofRat (1 / 2) then
        match Binary64.sqrt x with
        | .ok y => y
        | .error _ => .nan
      else Elementary.native.pow x exponent }

theorem halfPowers_rootPowers : rootPowers.HalfPowers where
  sqrt_eq := rfl
  pow_half x v hx hv := by
    obtain ⟨y, r, hy, hr, hr0⟩ := Elementary.native_sqrtAccurate.sqrtNonneg.nonneg x v hx hv
    have hroot : Binary64.sqrt x = .ok y := hy
    have hpow : rootPowers.pow x (Binary64.ofRat (1 / 2)) = y := by
      simp [rootPowers, hroot]
    exact ⟨r, hpow ▸ hr, hr0⟩

theorem sqrtExact_agrees_two :
    rootPowers.HalfPowers ∧ 1 ≤ ({ elementary := rootPowers } : Settings).maxDenominator ∧
      (Binary64.ofRat 2).isFinite = true ∧
      Agree (sqrtExact { elementary := rootPowers } 2) (rootExact { elementary := rootPowers } 2 2) := by
  have hbound : 1 ≤ ({ elementary := rootPowers } : Settings).maxDenominator := by decide
  have hfinite : (Binary64.ofRat 2).isFinite = true := by decide +kernel
  have hsign : (Binary64.ofRat 2).isNegative = false := by decide +kernel
  exact ⟨halfPowers_rootPowers, hbound, hfinite,
    (sqrtExact_agrees_iff hbound halfPowers_rootPowers hfinite).1.mpr hsign⟩

/-- Of -9/4 one square root fails, and the other one is that of 9/4. -/
theorem sqrtExact_disagrees :
    (Binary64.ofRat (-9 / 4)).isFinite = true ∧
      sqrtExact { elementary := rootPowers } (-9 / 4) = .error .squareRootOfNegative ∧
      rootExact { elementary := rootPowers } (-9 / 4) 2 = .ok (false, 3 / 2) ∧
      ¬Agree (sqrtExact { elementary := rootPowers } (-9 / 4))
        (rootExact { elementary := rootPowers } (-9 / 4) 2) := by
  have hfinite : (Binary64.ofRat (-9 / 4)).isFinite = true := by decide +kernel
  have hsquare : ¬∃ r : ℚ, r ^ 2 = -9 / 4 := by
    intro ⟨r, hr⟩
    linarith [sq_nonneg r]
  have hsqrt : sqrtExact { elementary := rootPowers } (-9 / 4) = .error .squareRootOfNegative := by decide +kernel
  have hdouble : ofDouble { elementary := rootPowers }
      (rootPowers.pow (Binary64.ofRat (-9 / 4)).abs (Binary64.ofRat (1 / 2))) = .ok (3 / 2) := by decide +kernel
  have hroot : rootExact { elementary := rootPowers } (-9 / 4) 2 = .ok (false, 3 / 2) := by
    rw [rootExact_two_eq _ hsquare, through_doubleRoot_two halfPowers_rootPowers hfinite, hdouble]
    rfl
  refine ⟨hfinite, hsqrt, hroot, ?_⟩
  rw [hsqrt, hroot]
  exact id

end Rational

end Surd
