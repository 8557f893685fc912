import Mathlib
import Surd.Proofs.Binary64.Arithmetic
import Surd.Proofs.Binary64.Conversion
import Surd.Proofs.Binary64.Nearest
import Surd.Proofs.Computation
import Surd.Proofs.Rational.Approximation

/-!
# Fractions for doubles by default

A common fraction that a double is taken for is the closest fraction within the bound anyway. So by
default the fraction for a double is the closest one of its magnitude, with its sign (`ofDouble_eq`), and
no fraction within the bound is closer to the double: `ofDouble_closest`.
-/

namespace Surd

/-! ## Common fractions -/

theorem commonFractions_range :
    ∀ q ∈ commonFractions, (Binary64.normalCount : ℚ)⁻¹ ≤ q ∧ q ≤ 1 ∧ q.den ≤ 10000 := by
  decide +kernel

theorem tolerance_eq : (1e-10 : Binary64) = Binary64.ofRat (1 / 10 ^ 10) := by decide +kernel

theorem commonFraction?_spec {tolerance x : Binary64} {q : ℚ} (h : commonFraction? tolerance x = some q) :
    q ∈ commonFractions ∧ (x - Binary64.ofRat q).abs.lt tolerance = true := by
  obtain ⟨⟨y, q⟩, hfind, rfl⟩ := Option.map_eq_some_iff.mp h
  obtain ⟨q, hq, heq⟩ := List.mem_map.mp (List.mem_of_find?_eq_some hfind)
  cases heq
  have hlt := List.find?_some hfind
  exact ⟨hq, hlt⟩

theorem commonFraction?_near {x : Binary64} {v q : ℚ} (hx : x.value? = some v)
    (h : commonFraction? 1e-10 x = some q) : q ∈ commonFractions ∧ |q - v| < 2 / 10 ^ 10 := by
  obtain ⟨hq, hlt⟩ := commonFraction?_spec h
  obtain ⟨hlow, hone, _⟩ := commonFractions_range q hq
  obtain ⟨r, hr, hoff⟩ := Binary64.value_ofRat hlow (hone.trans (by exact_mod_cast Binary64.normalCount_pos))
  rw [tolerance_eq] at hlt
  have hnear := Binary64.abs_sub_lt_of_lt hx hr (by norm_num) hlt
  refine ⟨hq, ?_⟩
  calc |q - v| ≤ |q - r| + |r - v| := abs_sub_le _ _ _
    _ = |r - q| + |v - r| := by rw [abs_sub_comm q r, abs_sub_comm r v]
    _ < 1 / 2 ^ 53 + 1 / 10 ^ 10 := by linarith
    _ ≤ 2 / 10 ^ 10 := by norm_num

/-! ## The fraction for a double -/

theorem closestFraction_zero : closestFraction 10000 0 = 0 := if_pos (by decide)

theorem closestFraction_half : closestFraction 10000 (1 / 20000) = 0 := by decide +kernel

/-- Zero is the closest fraction up to half of the least positive one. -/
theorem closestFraction_eq_zero_iff {x : ℚ} (hx : 0 ≤ x) : closestFraction 10000 x = 0 ↔ x ≤ 1 / 20000 := by
  constructor
  · intro h
    have hle := closestFraction_le (by decide) hx (y := 1 / 10000) (by norm_num : (1 / 10000 : ℚ).den ≤ 10000)
    rw [h, zero_sub, abs_neg, abs_of_nonneg hx] at hle
    rcases le_total x (1 / 10000) with hsmall | hlarge
    · rw [abs_of_nonneg (sub_nonneg.mpr hsmall)] at hle
      linarith
    · rw [abs_of_nonpos (sub_nonpos.mpr hlarge)] at hle
      linarith
  · intro h
    rcases h.eq_or_lt with rfl | hlt
    · exact closestFraction_half
    · by_contra hne
      have hle := closestFraction_le (by decide) hx (y := 0) (by decide : (0 : ℚ).den ≤ 10000)
      rw [zero_sub, abs_neg, abs_of_nonneg hx] at hle
      -- another fraction is at least the least positive one away from zero
      have hgap := one_le_abs_sub_mul hne
      have hden : ((closestFraction 10000 x).den : ℚ) ≤ 10000 := by
        exact_mod_cast closestFraction_den_le (by decide) hx
      rw [sub_zero, Rat.den_zero, Nat.cast_one, mul_one] at hgap
      have habs := abs_nonneg (closestFraction 10000 x)
      have htri := abs_sub_abs_le_abs_sub (closestFraction 10000 x) x
      rw [abs_of_nonneg hx] at htri
      nlinarith

namespace Rational

/-- The fraction for a magnitude is less than one away from it or a common one, whatever the settings. -/
theorem ofMagnitude_cases (cfg : Settings) {x : Binary64} {v : ℚ} (hx : x.value? = some v) (hv : 0 ≤ v) :
    (∃ q, ofMagnitude cfg x = .ok q ∧ 0 ≤ q ∧ q ≤ v + 1) ∨
      ofMagnitude cfg x = .error .denominatorBound ∧ cfg.maxDenominator < 1 := by
  unfold ofMagnitude
  cases hcommon : commonFraction? cfg.fractionTolerance x with
  | some q =>
    obtain ⟨hlow, hone, _⟩ := commonFractions_range q (commonFraction?_spec hcommon).1
    have hnonneg : (0 : ℚ) ≤ (Binary64.normalCount : ℚ)⁻¹ := inv_nonneg.mpr (Nat.cast_nonneg _)
    exact .inl ⟨q, rfl, hnonneg.trans hlow, by linarith⟩
  | none =>
    dsimp only
    by_cases hbound : cfg.maxDenominator < 1
    · rw [if_pos hbound]
      exact .inr ⟨rfl, hbound⟩
    · rw [if_neg hbound, hx, Option.getD_some]
      have hpos : 1 ≤ cfg.maxDenominator.toNat := by omega
      -- zero and the integer part are within any bound, and the closest fraction is as close as they are
      have hzero := closestFraction_le hpos hv (y := 0) hpos
      have hfloor := closestFraction_le hpos hv (y := (⌊v⌋ : ℚ)) (by rwa [Rat.den_intCast])
      have hlow := Int.floor_le v
      have hhigh := Int.lt_floor_add_one v
      rw [zero_sub, abs_neg, abs_of_nonneg hv] at hzero
      rw [abs_sub_comm (⌊v⌋ : ℚ), abs_of_nonneg (sub_nonneg.mpr hlow)] at hfloor
      rw [abs_le] at hzero hfloor
      exact .inl ⟨_, rfl, by linarith, by linarith⟩

theorem ofDouble_of_isZero (cfg : Settings) {x : Binary64} (h : x.isZero = true) : ofDouble cfg x = .ok 0 := by
  cases x with
  | finite s k =>
    rw [ofDouble, if_neg (by simp [Binary64.isFinite]), if_pos h]
    rfl
  | _ => cases h

theorem ofDouble_cases (cfg : Settings) {x : Binary64} {v : ℚ} (hx : x.value? = some v) (hv : 0 ≤ v) :
    (∃ q, ofDouble cfg x = .ok q ∧ 0 ≤ q ∧ q ≤ v + 1) ∨
      ofDouble cfg x = .error .denominatorBound ∧ cfg.maxDenominator < 1 := by
  have hmagnitude := ofMagnitude_cases cfg (Binary64.value?_abs hx) (abs_nonneg v)
  rw [abs_of_nonneg hv] at hmagnitude
  have hfinite : x.isFinite = true := Binary64.isFinite_iff.mpr (Binary64.finite_of_value? hx)
  unfold ofDouble
  rw [hfinite, Bool.not_true, if_neg Bool.false_ne_true]
  by_cases hzero : x.isZero = true
  · rw [if_pos hzero]
    exact .inl ⟨0, rfl, le_rfl, by linarith⟩
  · have hsign : ¬x.isNegative = true := by
      obtain ⟨s, k, rfl⟩ := Binary64.finite_of_value? hx
      rw [Binary64.isNegative_iff]
      rintro ⟨rfl, hk⟩
      have hpos := Binary64.magnitude_pos hk
      have hvalue : -Binary64.magnitude k = v := Option.some.inj hx
      linarith
    rw [if_neg hzero]
    rcases hmagnitude with ⟨q, hq, hrange⟩ | ⟨herror, hbound⟩
    · rw [hq, ok_bind, if_neg hsign]
      exact .inl ⟨q, rfl, hrange⟩
    · rw [herror]
      exact .inr ⟨rfl, hbound⟩

theorem exists_ofDouble_of_isFinite {cfg : Settings} (hbound : 1 ≤ cfg.maxDenominator) {x : Binary64}
    (hx : x.isFinite = true) : ∃ q, ofDouble cfg x = .ok q := by
  obtain ⟨s, k, rfl⟩ := Binary64.isFinite_iff.mp hx
  unfold ofDouble
  rw [hx]
  by_cases hzero : (Binary64.finite s k).isZero = true
  · simp [hzero, pure, Except.pure]
  · rcases ofMagnitude_cases cfg (Binary64.value?_abs (x := .finite s k) rfl) (abs_nonneg _) with ⟨q, hq, _⟩ | ⟨_, hlt⟩
    · simp [hzero, hq, ok_bind, pure, Except.pure]
    · omega

variable {cfg : Settings} (htolerance : cfg.fractionTolerance = 1e-10) (hbound : cfg.maxDenominator = 10000)
include htolerance hbound

theorem ofMagnitude_eq {x : Binary64} {v : ℚ} (hx : x.value? = some v) (hv : 0 ≤ v) :
    ofMagnitude cfg x = .ok (closestFraction 10000 v) := by
  unfold ofMagnitude
  rw [htolerance, hbound]
  cases hcommon : commonFraction? 1e-10 x with
  | none =>
    rw [hx]
    rfl
  | some q =>
    obtain ⟨hq, hnear⟩ := commonFraction?_near hx hcommon
    have hclosest : closestFraction 10000 v = q :=
      closestFraction_eq (by decide) hv (commonFractions_range q hq).2.2 (hnear.trans (by norm_num))
    rw [hclosest]
    rfl

theorem ofDouble_eq {x : Binary64} {v : ℚ} (hx : x.value? = some v) :
    ofDouble cfg x = .ok (if v < 0 then -closestFraction 10000 |v| else closestFraction 10000 |v|) := by
  obtain ⟨s, k, rfl⟩ := Binary64.finite_of_value? hx
  have hv : (if s then -Binary64.magnitude k else Binary64.magnitude k) = v := Option.some.inj hx
  have hnonneg := Binary64.magnitude_nonneg k
  have habs : |v| = Binary64.magnitude k := (Option.some.inj (Binary64.value?_abs hx)).symm
  rw [habs]
  by_cases hzero : k.val = 0
  · have hv0 : v = 0 := by
      rw [hzero, Binary64.magnitude_zero] at habs
      exact abs_eq_zero.mp habs
    rw [hzero, Binary64.magnitude_zero, closestFraction_zero, hv0, neg_zero, ite_self]
    exact ofDouble_of_isZero cfg (beq_iff_eq.mpr hzero)
  · have hmagnitude := ofMagnitude_eq htolerance hbound (x := .finite false k) rfl hnonneg
    have hpos := Binary64.magnitude_pos hzero
    have hisZero : ¬(Binary64.finite s k).isZero = true := mt beq_iff_eq.mp hzero
    have hsign : (Binary64.finite s k).isNegative = true ↔ v < 0 := by
      rw [Binary64.isNegative_iff, ← hv]
      cases s
      · simp [hnonneg.not_gt]
      · simp [hpos, hzero]
    rw [ofDouble, if_neg (by simp [Binary64.isFinite]), if_neg hisZero, Binary64.abs, hmagnitude]
    simp only [bind, Except.bind, pure, Except.pure, hsign]
    rfl

theorem exists_ofDouble {x : Binary64} {v : ℚ} (hx : x.value? = some v) :
    ∃ r, ofDouble cfg x = .ok r ∧ r.den ≤ 10000 ∧ ∀ y : ℚ, y.den ≤ 10000 → |r - v| ≤ |y - v| := by
  have hnonneg := abs_nonneg v
  have hpos : 0 < 10000 := by decide
  have hden := closestFraction_den_le hpos hnonneg
  refine ⟨_, ofDouble_eq htolerance hbound hx, ?_⟩
  by_cases hneg : v < 0
  · rw [if_pos hneg]
    refine ⟨by rwa [Rat.neg_den], fun y hy => ?_⟩
    have hclosest := closestFraction_le hpos hnonneg (y := -y) (by rwa [Rat.neg_den])
    rw [abs_of_neg hneg, neg_sub_neg, abs_sub_comm v] at hclosest
    rwa [abs_of_neg hneg, ← abs_neg, neg_sub, sub_neg_eq_add, add_comm, ← sub_neg_eq_add]
  · rw [if_neg hneg]
    refine ⟨hden, fun y hy => ?_⟩
    have hclosest := closestFraction_le hpos hnonneg hy
    rwa [abs_of_nonneg (not_lt.mp hneg)] at hclosest ⊢

/-- No fraction within the bound is closer than the fraction for a double, which is the closest fraction of
its magnitude also where a common fraction is taken. -/
theorem ofDouble_closest {x : Binary64} {v : ℚ} (hx : x.value? = some v) :
    ∃ r, ofDouble cfg x = .ok r ∧ r.den ≤ 10000 ∧
      (∀ (p : ℤ) (q : ℕ), 1 ≤ q → q ≤ 10000 → |r - v| ≤ |(p : ℚ) / q - v|) ∧
      r = (if v < 0 then -closestFraction 10000 |v| else closestFraction 10000 |v|) ∧
      ∀ c, commonFraction? cfg.fractionTolerance x.abs = some c → c = closestFraction 10000 |v| := by
  obtain ⟨r, hr, hden, hcloser⟩ := exists_ofDouble htolerance hbound hx
  refine ⟨r, hr, hden, ?_, Except.ok.inj (hr.symm.trans (ofDouble_eq htolerance hbound hx)), ?_⟩
  · intro p q hpos hle
    apply hcloser
    rw [← Rat.mkRat_eq_div]
    exact (Convergents.den_mkRat_le p hpos).trans hle
  · intro c hc
    rw [htolerance] at hc
    obtain ⟨hmem, hnear⟩ := commonFraction?_near (Binary64.value?_abs hx) hc
    exact (closestFraction_eq (by decide) (abs_nonneg v) (commonFractions_range c hmem).2.2
      (hnear.trans (by norm_num))).symm

/-! ## Fractions that are found again -/

/-- Two fractions within the bound that are both this near to a double are one. -/
theorem ofDouble_eq_of_near {x : Binary64} {v w : ℚ} (hx : x.value? = some v) (hden : w.den ≤ 10000)
    (hnear : |w - v| < 1 / (2 * 10 ^ 8)) : ofDouble cfg x = .ok w := by
  obtain ⟨r, hr, hrden, hcloser⟩ := exists_ofDouble htolerance hbound hx
  rw [hr, Except.ok.injEq]
  by_contra hne
  have hgap := one_le_abs_sub_mul hne
  have hdist : |r - w| < 1 / 10 ^ 8 := by
    have hclose := hcloser w hden
    have htri := abs_sub_le r v w
    rw [abs_sub_comm v w] at htri
    linarith
  have hprod : (r.den * w.den : ℚ) ≤ 10 ^ 8 := by
    have hle := Nat.mul_le_mul hrden hden
    exact_mod_cast hle
  have hscaled := mul_le_mul_of_nonneg_left hprod (abs_nonneg (r - w))
  linarith

theorem ofDouble_ofRat {w : ℚ} (hden : w.den ≤ 10000) (hrange : |w| < 10 ^ 7) :
    ofDouble cfg (Binary64.ofRat w) = .ok w := by
  have hfinite := Binary64.isFinite_ofRat (Binary64.le_normalCount (hrange.le.trans (by norm_num)))
  obtain ⟨v, hv, hrounds⟩ := Binary64.value_ofRat_rounds hfinite
  refine ofDouble_eq_of_near htolerance hbound hv hden ?_
  have hnear := hrounds.abs_sub_le
  have hsmall := Binary64.inv_unitCount_le
  rw [abs_sub_comm]
  calc |v - w| ≤ |w| / 2 ^ 53 + (Binary64.unitCount : ℚ)⁻¹ := hnear
    _ ≤ 10 ^ 7 / 2 ^ 53 + 1 / 2 ^ 100 := by gcongr
    _ < 1 / (2 * 10 ^ 8) := by norm_num

end Rational

/-- A double near `-1/3`, for which a common fraction is taken. -/
theorem Rational.ofDouble_closest_third :
    ∃ v r, (Binary64.ofRat (-1 / 3)).value? = some v ∧ Rational.ofDouble {} (Binary64.ofRat (-1 / 3)) = .ok r ∧
      r.den ≤ 10000 ∧ (∀ (p : ℤ) (q : ℕ), 1 ≤ q → q ≤ 10000 → |r - v| ≤ |(p : ℚ) / q - v|) ∧
      commonFraction? 1e-10 (Binary64.ofRat (-1 / 3)).abs = some (1 / 3) ∧ r = -1 / 3 := by
  have hvalue : (Binary64.ofRat (-1 / 3)).value? = some (-6004799503160661 / 18014398509481984) := by decide +kernel
  have hcommon : commonFraction? 1e-10 (Binary64.ofRat (-1 / 3)).abs = some (1 / 3) := by decide +kernel
  obtain ⟨r, hr, hden, hcloser, heq, hall⟩ := @Rational.ofDouble_closest {} rfl rfl _ _ hvalue
  have hneg : (-6004799503160661 / 18014398509481984 : ℚ) < 0 := by norm_num
  rw [if_pos hneg, ← hall _ hcommon] at heq
  exact ⟨_, r, hvalue, hr, hden, hcloser, hcommon, heq.trans (by norm_num)⟩

end Surd
