import Mathlib
import Surd.Rational.Functions
import Surd.Proofs.Binary64.SquareRoot
import Surd.Proofs.Rational.Doubles

/-!
# Square roots of fractions

The double for the root of a square is so near the root that the fraction for it is the root, if that is
not too large and has a denominator within the bound: `sqrt_mul_self`. Small roots are taken for zero:
`sqrt_eq_zero_iff`. Where the square roots of doubles are only known not to be negative, so are those of
fractions: `sqrt_outcome`.
-/

namespace Surd

namespace Rational

/-! ## Roots of squares -/

/-- A square's double is off by at most 2^-53 of it. -/
theorem value_mul_self {s : ℚ} (hs : 0 ≤ s) (hle : s ≤ 10 ^ 7) (hden : s.den ≤ 10000) :
    ∃ v, (Binary64.ofRat (s * s)).value? = some v ∧ |v - s * s| ≤ s * s / 2 ^ 53 := by
  by_cases hzero : s = 0
  · subst hzero
    refine ⟨0, by decide +kernel, by norm_num⟩
  · have hpos : 0 < s := lt_of_le_of_ne hs (Ne.symm hzero)
    have hleast : 1 / 10000 ≤ s := by
      have hgap := one_le_abs_sub_mul hzero
      have hden' : (s.den : ℚ) ≤ 10000 := by exact_mod_cast hden
      rw [sub_zero, abs_of_pos hpos, Rat.den_zero, Nat.cast_one, mul_one] at hgap
      rw [div_le_iff₀ (by norm_num)]
      exact hgap.trans (mul_le_mul_of_nonneg_left hden' hs)
    have hlimit : (10 : ℚ) ^ 14 ≤ Binary64.normalCount := by
      have hnat : 10 ^ 14 ≤ Binary64.normalCount :=
        le_trans (by norm_num) (Binary64.two_pow_le_normalCount (k := 47) (by decide))
      exact_mod_cast hnat
    apply Binary64.value_ofRat
    · calc (Binary64.normalCount : ℚ)⁻¹ ≤ (10 ^ 14)⁻¹ := inv_anti₀ (by norm_num) hlimit
        _ ≤ 1 / 10000 * (1 / 10000) := by norm_num
        _ ≤ s * s := mul_le_mul hleast hleast (by norm_num) hs
    · calc s * s ≤ 10 ^ 7 * 10 ^ 7 := mul_le_mul hle hle hs (by norm_num)
        _ = 10 ^ 14 := by norm_num
        _ ≤ Binary64.normalCount := hlimit

/-- Where a number is off by a part of a square, its root is off by the same part of the root. -/
theorem abs_sqrt_sub_le {v s e : ℝ} (hv : 0 ≤ v) (hs : 0 ≤ s) (h : |v - s * s| ≤ s * s * e) : |√v - s| ≤ s * e := by
  rcases hs.eq_or_lt with rfl | hpos
  · have hzero : v = 0 := by simpa using h
    simp [hzero]
  · have hroot := Real.sqrt_nonneg v
    have hprod : |√v - s| * (√v + s) = |v - s * s| := by
      rw [← abs_of_nonneg (add_nonneg hroot hs), ← abs_mul]
      congr 1
      linear_combination Real.mul_self_sqrt hv
    refine le_of_mul_le_mul_right ?_ hpos
    calc |√v - s| * s ≤ |√v - s| * (√v + s) := mul_le_mul_of_nonneg_left (by linarith) (abs_nonneg _)
      _ = |v - s * s| := hprod
      _ ≤ s * s * e := h
      _ = s * e * s := by ring

variable {f : Elementary}

theorem sqrt_mul_self (hf : f.SqrtAccurate) {s : ℚ} (hs : 0 ≤ s) (hle : s ≤ 10 ^ 7) (hden : s.den ≤ 10000) :
    sqrt { elementary := f } (s * s) = .ok s := by
  obtain ⟨v, hv, hsquare⟩ := value_mul_self hs hle hden
  have hv0 : 0 ≤ v := by
    have hself := mul_self_nonneg s
    rw [abs_le] at hsquare
    linarith
  obtain ⟨y, r, hy, hr, hroot⟩ := hf.near _ v hv hv0
  have hnear : |r - s| ≤ s / 2 ^ 51 := by
    have hsquare' : |(v : ℝ) - s * s| ≤ s * s * (1 / 2 ^ 53) := by
      rw [mul_one_div]
      exact_mod_cast hsquare
    have hexact := abs_sqrt_sub_le (by exact_mod_cast hv0) (by exact_mod_cast hs) hsquare'
    have hs' : (0 : ℝ) ≤ s := by exact_mod_cast hs
    have hreal : |(r : ℝ) - s| ≤ s / 2 ^ 51 := by
      rw [abs_le] at hroot hexact ⊢
      constructor <;> linarith
    exact_mod_cast hreal
  have hr0 : 0 ≤ r := by
    rw [abs_le] at hnear
    linarith
  -- two fractions within the bound are more than twice as far apart
  have hclosest : closestFraction 10000 r = s := by
    refine closestFraction_eq (by decide) hr0 hden ?_
    calc |s - r| = |r - s| := abs_sub_comm s r
      _ ≤ 10 ^ 7 / 2 ^ 51 := hnear.trans (div_le_div_of_nonneg_right hle (by norm_num))
      _ < 1 / (2 * ((10000 : Nat) : ℚ) ^ 2) := by norm_num
  have hdouble : ofDouble { elementary := f } y = _ := ofDouble_eq rfl rfl hr
  rw [if_neg hr0.not_gt, abs_of_nonneg hr0, hclosest] at hdouble
  have hfraction := Binary64.ofFraction_of_isFinite (Binary64.isFinite_iff.mpr (Binary64.finite_of_value? hv))
  unfold sqrt through
  rw [hfraction]
  simp only [bind, Except.bind, hy, hdouble]

/-! ## Roots that are taken for zero -/

/-- Half of the least positive fraction within the bound is where a root begins not to be zero. -/
theorem magnitude_rootRank_le_iff {k : Nat} (hk : k ≠ 0) :
    Binary64.magnitude (Binary64.rootRank k) ≤ 1 / 20000 ↔ k < Binary64.rankOf ((1 / 20000) ^ 2) := by
  have hfirst : 1 / 20000 < Binary64.magnitude (Binary64.rootRank (Binary64.rankOf ((1 / 20000) ^ 2))) := by
    decide +kernel
  have hlast : Binary64.magnitude (Binary64.rootRank (Binary64.rankOf ((1 / 20000) ^ 2) - 1)) ≤ 1 / 20000 := by
    decide +kernel
  have hne : Binary64.rankOf ((1 / 20000) ^ 2) ≠ 0 := by decide +kernel
  generalize Binary64.rankOf ((1 / 20000) ^ 2) = limit at *
  constructor
  · intro h
    by_contra hge
    have hmono := Binary64.magnitude_mono (Binary64.rootRank_mono hne (not_lt.mp hge))
    linarith
  · intro h
    exact (Binary64.magnitude_mono (Binary64.rootRank_mono hk (Nat.le_sub_one_of_lt h))).trans hlast

theorem sqrt_eq_zero_iff {x : ℚ} (hx : 0 ≤ x) :
    sqrt {} x = .ok 0 ↔ (Binary64.ofRat x).lt (Binary64.ofRat ((1 / 20000) ^ 2)) = true := by
  have hlimit : Binary64.rankOf ((1 / 20000) ^ 2) < finiteCount := by decide +kernel
  have hpos : 0 < Binary64.rankOf ((1 / 20000) ^ 2) := by decide +kernel
  have hofRat : Binary64.ofRat x = .ofRank false (Binary64.rankOf x) := by
    rw [Binary64.ofRat_eq, decide_eq_false (Rat.num_nonneg.mpr hx).not_gt]
  rw [Binary64.lt_ofRat_iff hx (by norm_num) hlimit]
  unfold sqrt through
  -- a number beyond the range of doubles has no root, and is not below the limit either
  by_cases hfinite : Binary64.rankOf x < finiteCount
  · have hdouble : Binary64.ofFraction x = .ok (.finite false ⟨Binary64.rankOf x, hfinite⟩) := by
      rw [Binary64.ofFraction, hofRat, Binary64.ofRank_eq hfinite]
      rfl
    have hsqrt : ∀ y, ({} : Settings).elementary.sqrt y = Binary64.sqrt y := fun _ => rfl
    rw [hdouble, ok_bind, hsqrt]
    by_cases hzero : Binary64.rankOf x = 0
    · have hisZero : (Binary64.finite false ⟨Binary64.rankOf x, hfinite⟩).isZero = true := beq_iff_eq.mpr hzero
      have hroot : Binary64.sqrt (.finite false ⟨Binary64.rankOf x, hfinite⟩) =
          .ok (.finite false ⟨Binary64.rankOf x, hfinite⟩) := if_pos hisZero
      rw [hroot, ok_bind, ofDouble_of_isZero _ hisZero]
      exact iff_of_true rfl (hzero.trans_lt hpos)
    · have hrank := Binary64.rootRank_lt (k := ⟨Binary64.rankOf x, hfinite⟩) hzero
      have hnonneg := Binary64.magnitude_nonneg (Binary64.rootRank (Binary64.rankOf x))
      rw [Binary64.sqrt_finite hzero, ok_bind, ofDouble_eq rfl rfl (Binary64.value?_ofRank hrank),
        if_neg hnonneg.not_gt, abs_of_nonneg hnonneg, Except.ok.injEq, closestFraction_eq_zero_iff hnonneg, magnitude_rootRank_le_iff hzero]
  · have hdouble : (Binary64.ofRat x).isFinite = false := by
      rw [hofRat, Binary64.ofRank, dif_neg hfinite]
      rfl
    rw [Binary64.ofFraction_of_not_isFinite hdouble]
    refine iff_of_false ?_ (by omega)
    intro h
    cases h

theorem lt_of_sqrt_eq_zero {x : ℚ} (hx : 0 ≤ x) (h : sqrt {} x = .ok 0) : x < (1 / 20000) ^ 2 := by
  have hlimit : Binary64.rankOf ((1 / 20000) ^ 2) < finiteCount := by decide +kernel
  rw [sqrt_eq_zero_iff hx, Binary64.lt_ofRat_iff hx (by norm_num) hlimit] at h
  by_contra hge
  have hmono := Binary64.rankOf_mono (abs_le_abs_of_nonneg (by norm_num) (not_lt.mp hge))
  exact absurd h hmono.not_gt

end Rational

/-! ## Roots by any square root of doubles -/

/-- The square root of a double that is not negative is one as well. -/
structure Elementary.SqrtNonneg (f : Elementary) : Prop where
  nonneg : ∀ (x : Binary64) (v : ℚ), x.value? = some v → 0 ≤ v →
    ∃ (y : Binary64) (r : ℚ), f.sqrt x = .ok y ∧ y.value? = some r ∧ 0 ≤ r

theorem Elementary.SqrtAccurate.sqrtNonneg {f : Elementary} (hf : f.SqrtAccurate) : f.SqrtNonneg where
  nonneg x v hx hv := by
    obtain ⟨y, r, hy, hr, hnear⟩ := hf.near x v hx hv
    have hroot := Real.sqrt_nonneg (v : ℝ)
    rw [abs_le] at hnear
    have hnonneg : (0 : ℝ) ≤ r := by linarith
    exact ⟨y, r, hy, hr, by exact_mod_cast hnonneg⟩

/-- What a square root can lead to: a number with a property, or a failure, of the conversion to a double
where something is not in range, or of the conversion back where no denominator is allowed. -/
inductive SqrtOutcome {α : Type} (cfg : Settings) (inRange : Prop) (P : α → Prop) : Except Failure α → Prop
  | root {a : α} (hrange : inRange) (h : P a) : SqrtOutcome cfg inRange P (.ok a)
  | tooLarge (hrange : ¬inRange) : SqrtOutcome cfg inRange P (.error .fractionTooLarge)
  | unbounded (hrange : inRange) (hbound : cfg.maxDenominator < 1) : SqrtOutcome cfg inRange P (.error .denominatorBound)

theorem SqrtOutcome.bind {α β : Type} {cfg : Settings} {inRange : Prop} {P : α → Prop} {Q : β → Prop}
    {x : Except Failure α} {f : α → Except Failure β} (h : SqrtOutcome cfg inRange P x)
    (hf : inRange → ∀ a, P a → SqrtOutcome cfg inRange Q (f a)) : SqrtOutcome cfg inRange Q (x >>= f) := by
  cases h with
  | root hrange h => exact hf hrange _ h
  | tooLarge hrange => exact .tooLarge hrange
  | unbounded hrange hbound => exact .unbounded hrange hbound

theorem SqrtOutcome.of_inRange {α : Type} {cfg : Settings} {inRange inRange' : Prop} {P : α → Prop} {x : Except Failure α}
    (h : SqrtOutcome cfg inRange P x) (hrange : inRange) (hrange' : inRange') : SqrtOutcome cfg inRange' P x := by
  rwa [← propext (iff_of_true hrange hrange')]

theorem Rational.sqrt_outcome {cfg : Settings} (hf : cfg.elementary.SqrtNonneg) {x : ℚ} (hx : 0 ≤ x) :
    SqrtOutcome cfg ((Binary64.ofRat x).isFinite = true) (fun q => 0 ≤ q ∧ q ≤ Binary64.largest + 1) (sqrt cfg x) := by
  unfold sqrt through
  by_cases hfinite : (Binary64.ofRat x).isFinite = true
  · obtain ⟨v, hv, hv0⟩ := Binary64.value_ofRat_nonneg hx hfinite
    obtain ⟨y, r, hy, hr, hr0⟩ := hf.nonneg _ v hv hv0
    have hle := (le_abs_self r).trans (Binary64.value_le_largest hr)
    rw [Binary64.ofFraction_of_isFinite hfinite, ok_bind, hy, ok_bind]
    rcases ofDouble_cases cfg hr hr0 with ⟨q, hq, hq0, hnear⟩ | ⟨herror, hbound⟩
    · rw [hq]
      exact .root hfinite ⟨hq0, by linarith⟩
    · rw [herror]
      exact .unbounded hfinite hbound
  · rw [Binary64.ofFraction_of_not_isFinite (Bool.not_eq_true _ ▸ hfinite)]
    exact .tooLarge hfinite

end Surd
