import Mathlib
import Surd.Proofs.Binary64.Arithmetic
import Surd.Proofs.Binary64.Conversion

/-!
# Operations on doubles and the exact ones

A result is the nearest double to the exact one: it is off by at most 2^-53 of the exact result and one
unit, also where it is below the normal range (`Rounds`), and no double is nearer (`value_ofRat_nearest`).
-/

namespace Surd

/-! ## Rounding to integers -/

theorem roundQuotient_near (n : Nat) {d : Nat} (hd : 0 < d) :
    |(d * roundQuotient n d : ℤ) - n| ≤ n % d ∧ |(d * roundQuotient n d : ℤ) - n| ≤ d - n % d := by
  have hdiv : (d : ℤ) * (n / d) + n % d = n := Int.mul_ediv_add_emod ..
  have hmod : (n : ℤ) % d < d := Int.emod_lt_of_pos _ (by exact_mod_cast hd)
  have hnonneg : 0 ≤ (n : ℤ) % d := Int.emod_nonneg _ (by omega)
  have hcast : ((n % d : Nat) : ℤ) = n % d := Int.natCast_mod ..
  unfold roundQuotient
  dsimp only
  split
  · rw [Int.natCast_ediv]
    constructor <;> rw [abs_le] <;> constructor <;> omega
  · rw [Nat.cast_add, Nat.cast_one, Int.natCast_ediv, mul_add, mul_one]
    constructor <;> rw [abs_le] <;> constructor <;> omega

theorem abs_roundEven_sub_le (x : ℚ) : |roundEven x - x| ≤ 1 / 2 := by
  have hden : (0 : ℚ) < x.den := Nat.cast_pos.mpr x.den_pos
  have hnear : ∀ y, y = |x| → |(roundQuotient x.num.natAbs x.den : ℚ) - y| ≤ 1 / 2 := by
    rintro y rfl
    obtain ⟨hlow, hhigh⟩ := roundQuotient_bounds x.num.natAbs x.den_pos
    rw [Binary64.abs_eq_div x]
    generalize x.num.natAbs = n at *
    qify at hlow hhigh
    rw [abs_le]
    constructor
    · rw [neg_le, neg_sub, sub_le_iff_le_add, div_le_iff₀ hden]
      linarith
    · rw [sub_le_iff_le_add, ← sub_le_iff_le_add', le_div_iff₀ hden]
      linarith
  unfold roundEven
  dsimp only
  split
  · rename_i hneg
    have hx := hnear (-x) (abs_of_neg (Rat.num_neg.mp hneg)).symm
    rw [abs_sub_comm] at hx
    push_cast
    rwa [neg_sub_left, abs_neg, add_comm, ← sub_neg_eq_add, abs_sub_comm]
  · rename_i hnonneg
    exact_mod_cast hnear x (abs_of_nonneg (Rat.num_nonneg.mp (not_lt.mp hnonneg))).symm

namespace Binary64

/-! ## The order of magnitudes -/

theorem unitsOf_succ (rank : Nat) : unitsOf (rank + 1) = unitsOf rank + 2 ^ scaleOf rank := by
  obtain ⟨q, hq, hlt, hscale⟩ : ∃ q, rank = scaleOf rank * blockSize + q ∧ q < 2 * blockSize ∧
      (scaleOf rank = 0 ∨ blockSize ≤ q) := by
    have hpos : 0 < blockSize := by decide
    have hdiv := Nat.div_add_mod' rank blockSize
    have hmod := Nat.mod_lt rank hpos
    unfold scaleOf
    cases hblock : rank / blockSize with
    | zero =>
      rw [hblock] at hdiv
      exact ⟨rank % blockSize, by omega, by omega, .inl rfl⟩
    | succ b =>
      rw [hblock, Nat.add_mul, Nat.one_mul] at hdiv
      exact ⟨blockSize + rank % blockSize, by rw [Nat.add_sub_cancel]; omega, by omega, .inr (by omega)⟩
  have hthis : unitsOf rank = q * 2 ^ scaleOf rank := by
    rw [← unitsOf_add hlt.le hscale, ← hq]
  have hnext : unitsOf (rank + 1) = (q + 1) * 2 ^ scaleOf rank := by
    rw [← unitsOf_add (q := q + 1) hlt (hscale.imp_right Nat.le_succ_of_le), ← Nat.add_assoc, ← hq]
  rw [hnext, hthis, Nat.add_mul, Nat.one_mul]

theorem unitsOf_strictMono : StrictMono unitsOf := by
  refine strictMono_nat_of_lt_succ fun rank => ?_
  rw [unitsOf_succ]
  exact Nat.lt_add_of_pos_right (Nat.two_pow_pos _)

theorem magnitude_mono {i j : Nat} (h : i ≤ j) : magnitude i ≤ magnitude j := by
  rw [magnitude_eq, magnitude_eq]
  exact div_le_div_of_nonneg_right (Nat.cast_le.mpr (unitsOf_strictMono.monotone h)) (Nat.cast_nonneg _)

/-! ## The nearest magnitude -/

/-- In units: of the ranks on both sides of a quotient the nearer one is taken, and all others are beyond these. -/
theorem abs_unitsOf_nearestRank_le (n : Nat) {d : Nat} (hd : 0 < d) (rank : Nat) :
    |(d * unitsOf (nearestRank n d) : ℤ) - (n * unitCount : Nat)| ≤
      |(d * unitsOf rank : ℤ) - (n * unitCount : Nat)| := by
  obtain ⟨scale, hscale, hunits⟩ := unitsOf_nearestRank n hd
  have hstep := OnScale.step_pos hd scale
  obtain ⟨hbelow, habove⟩ := roundQuotient_near (n * unitCount) hstep
  have hdiv : ((d * 2 ^ scale : Nat) : ℤ) * ((n * unitCount : Nat) / (d * 2 ^ scale : Nat)) +
      (n * unitCount : Nat) % (d * 2 ^ scale : Nat) = (n * unitCount : Nat) := Int.mul_ediv_add_emod ..
  -- the ranks on both sides of the quotient
  have hlow : scale = 0 ∨ blockSize ≤ n * unitCount / (d * 2 ^ scale) :=
    hscale.low.imp_right (Nat.le_div_iff_mul_le hstep).mpr
  have hhigh : n * unitCount / (d * 2 ^ scale) < 2 * blockSize := (Nat.div_lt_iff_lt_mul hstep).mpr hscale.high
  have hfirst := unitsOf_add hhigh.le hlow
  have hsecond := unitsOf_add (q := n * unitCount / (d * 2 ^ scale) + 1) hhigh (hlow.imp_right Nat.le_succ_of_le)
  rw [← Nat.add_assoc] at hsecond
  have hround : (d * unitsOf (nearestRank n d) : ℤ) =
      (d * 2 ^ scale : Nat) * roundQuotient (n * unitCount) (d * 2 ^ scale) := by
    rw [hunits]
    push_cast
    ring
  rw [hround]
  generalize scale * blockSize + n * unitCount / (d * 2 ^ scale) = first at hfirst hsecond
  have hd' : (0 : ℤ) ≤ d := Int.natCast_nonneg d
  rcases Nat.lt_or_ge first rank with hlt | hge
  · refine habove.trans (le_trans ?_ (le_abs_self _))
    have hle : ((n * unitCount / (d * 2 ^ scale) + 1) * 2 ^ scale : ℤ) ≤ unitsOf rank := by
      have h := unitsOf_strictMono.monotone hlt
      rw [Nat.succ_eq_add_one, hsecond] at h
      exact_mod_cast h
    have hmul := mul_le_mul_of_nonneg_left hle hd'
    push_cast at hdiv hmul ⊢
    linarith
  · refine hbelow.trans (le_trans ?_ (neg_le_abs _))
    have hle : (unitsOf rank : ℤ) ≤ n * unitCount / (d * 2 ^ scale) * 2 ^ scale := by
      have h := unitsOf_strictMono.monotone hge
      rw [hfirst] at h
      exact_mod_cast h
    have hmul := mul_le_mul_of_nonneg_left hle hd'
    push_cast at hdiv hmul ⊢
    linarith

theorem magnitude_sub_eq (n : Nat) {d : Nat} (hd : 0 < d) (rank : Nat) :
    magnitude rank - (n : ℚ) / d = ((d * unitsOf rank : ℤ) - (n * unitCount : Nat) : ℤ) / (d * unitCount) := by
  have hcount : (unitCount : ℚ) ≠ 0 := Nat.cast_ne_zero.mpr unitCount_pos.ne'
  have hd' : (d : ℚ) ≠ 0 := Nat.cast_ne_zero.mpr hd.ne'
  rw [magnitude_eq]
  generalize unitCount = P at *
  push_cast
  field_simp

/-- No magnitude is nearer than the one a quotient is rounded to. -/
theorem abs_magnitude_nearestRank_le (n : Nat) {d : Nat} (hd : 0 < d) (rank : Nat) :
    |magnitude (nearestRank n d) - (n : ℚ) / d| ≤ |magnitude rank - (n : ℚ) / d| := by
  rw [magnitude_sub_eq n hd, magnitude_sub_eq n hd, abs_div, abs_div]
  refine div_le_div_of_nonneg_right ?_ (abs_nonneg _)
  exact_mod_cast abs_unitsOf_nearestRank_le n hd rank

/-- A value is as near to the exact one as a rounded result. -/
structure Rounds (a v : ℚ) : Prop where
  abs_sub_le : |v - a| ≤ |a| / 2 ^ 53 + (unitCount : ℚ)⁻¹

theorem rounds_nearestRank (n : Nat) {d : Nat} (hd : 0 < d) : Rounds ((n : ℚ) / d) (magnitude (nearestRank n d)) := by
  have hquot : 0 ≤ (n : ℚ) / d := by positivity
  have hrel : 0 ≤ (n : ℚ) / d / 2 ^ 53 := by positivity
  have hcount : (0 : ℚ) < unitCount := Nat.cast_pos.mpr unitCount_pos
  constructor
  rw [abs_of_nonneg hquot]
  by_cases hnormal : d ≤ n * normalCount
  · have hnear := abs_magnitude_nearestRank_sub_le hd hnormal
    have hunit : (0 : ℚ) ≤ (unitCount : ℚ)⁻¹ := (inv_pos.mpr hcount).le
    linarith
  · -- below the normal range the ranks are one unit apart
    obtain ⟨scale, hscale, hunits⟩ := unitsOf_nearestRank n hd
    have hzero : scale = 0 := by
      refine hscale.low.resolve_right fun hlow => hnormal ?_
      refine Nat.le_of_mul_le_mul_right ?_ (show 0 < blockSize by decide)
      calc d * blockSize ≤ d * 2 ^ scale * blockSize :=
            Nat.mul_le_mul_right _ (Nat.le_mul_of_pos_right d (Nat.two_pow_pos scale))
        _ = blockSize * (d * 2 ^ scale) := Nat.mul_comm ..
        _ ≤ n * unitCount := hlow
        _ = n * normalCount * blockSize := by rw [mul_assoc, unitCount_eq]
    rw [hzero, pow_zero, Nat.mul_one, Nat.mul_one] at hunits
    obtain ⟨hbelow, habove⟩ := roundQuotient_bounds (n * unitCount) hd
    have hunit : |magnitude (nearestRank n d) - (n : ℚ) / d| ≤ (unitCount : ℚ)⁻¹ := by
      rw [magnitude_eq, hunits]
      generalize roundQuotient (n * unitCount) d = q at *
      generalize unitCount = P at *
      qify at hbelow habove hd
      have hoff : (q : ℚ) / P - n / d = (q * d - n * P) / (d * P) := by field_simp
      rw [hoff, abs_div, abs_of_pos (mul_pos hd hcount), div_le_iff₀ (mul_pos hd hcount), abs_le]
      have hinv : (P : ℚ)⁻¹ * (d * P) = d := by field_simp
      rw [hinv]
      constructor <;> linarith
    linarith

/-! ## Results -/

theorem value?_ofMagnitude {negative : Bool} {x : Rat} (h : (ofMagnitude negative x).isFinite = true) :
    (ofMagnitude negative x).value? = some (if negative then -magnitude (rankOf x) else magnitude (rankOf x)) := by
  have hdef : ofMagnitude negative x = ofRank negative (rankOf x) := rfl
  rw [hdef] at h ⊢
  by_cases hlt : rankOf x < finiteCount
  · rw [ofRank_eq hlt]
    rfl
  · rw [ofRank, dif_neg hlt] at h
    cases h

theorem value_ofRat_nonneg {x : ℚ} (hx : 0 ≤ x) (h : (ofRat x).isFinite = true) :
    ∃ v, (ofRat x).value? = some v ∧ 0 ≤ v := by
  have hofRat : ofRat x = ofMagnitude false x := by rw [ofRat, decide_eq_false (Rat.num_nonneg.mpr hx).not_gt]
  rw [hofRat] at h ⊢
  have hvalue := value?_ofMagnitude h
  rw [if_neg Bool.false_ne_true] at hvalue
  exact ⟨magnitude (rankOf x), hvalue, magnitude_nonneg _⟩

theorem rounds_rankOf (x : ℚ) : Rounds |x| (magnitude (rankOf x)) := by
  rw [rankOf, abs_eq_div x]
  exact rounds_nearestRank _ x.den_pos

theorem Rounds.neg {a v : ℚ} (h : Rounds a v) : Rounds (-a) (-v) := by
  constructor
  rw [abs_neg, neg_sub_neg, abs_sub_comm]
  exact h.abs_sub_le

/-- The value of a finite product or quotient of magnitudes, with its sign. -/
theorem value_ofMagnitude {negative : Bool} {x : ℚ} (hx : 0 ≤ x) (h : (ofMagnitude negative x).isFinite = true) :
    ∃ v, (ofMagnitude negative x).value? = some v ∧ Rounds (if negative then -x else x) v := by
  have hnear := rounds_rankOf x
  rw [abs_of_nonneg hx] at hnear
  refine ⟨_, value?_ofMagnitude h, ?_⟩
  cases negative with
  | false => simpa only [Bool.false_eq_true, if_false] using hnear
  | true => simpa only [if_true] using hnear.neg

theorem value_ofRat_rounds {x : ℚ} (h : (ofRat x).isFinite = true) : ∃ v, (ofRat x).value? = some v ∧ Rounds x v := by
  have hnear := rounds_rankOf x
  refine ⟨_, value?_ofMagnitude h, ?_⟩
  by_cases hneg : x.num < 0
  · rw [abs_of_neg (Rat.num_neg.mp hneg)] at hnear
    have hminus := hnear.neg
    rw [neg_neg] at hminus
    simpa only [hneg, decide_true, if_true] using hminus
  · rw [abs_of_nonneg (Rat.num_nonneg.mp (not_lt.mp hneg))] at hnear
    simpa only [hneg, decide_false, Bool.false_eq_true, if_false] using hnear

/-- No double is nearer to a fraction than the one for it. -/
theorem value_ofRat_nearest {x v w : ℚ} {y : Binary64} (hv : (ofRat x).value? = some v) (hw : y.value? = some w) :
    |v - x| ≤ |w - x| := by
  have hmagnitude := value?_abs hw
  obtain ⟨t, k, rfl⟩ := finite_of_value? hw
  have hfinite : (ofRat x).isFinite = true := isFinite_iff.mpr (finite_of_value? hv)
  have hvalue := (value?_ofMagnitude hfinite).symm.trans hv
  have hnearest := abs_magnitude_nearestRank_le x.num.natAbs x.den_pos k
  rw [← abs_eq_div] at hnearest
  have habs : |v - x| = |magnitude (rankOf x) - (|x|)| := by
    rw [← Option.some.inj hvalue]
    by_cases hneg : x.num < 0
    · simp only [hneg, decide_true, if_true]
      rw [abs_of_neg (Rat.num_neg.mp hneg), ← abs_neg]
      congr 1
      ring
    · simp only [hneg, decide_false, Bool.false_eq_true, if_false]
      rw [abs_of_nonneg (Rat.num_nonneg.mp (not_lt.mp hneg))]
  have hother : magnitude k = |w| := Option.some.inj hmagnitude
  rw [habs]
  refine hnearest.trans ?_
  rw [hother]
  exact abs_abs_sub_abs_le w x

section
variable {x y : Binary64} {a b : ℚ} (hx : x.value? = some a) (hy : y.value? = some b)
include hx hy

theorem value_sub (h : |a - b| ≤ normalCount) : ∃ v, (x - y).value? = some v ∧ Rounds (a - b) v := by
  by_cases hne : a = b
  · obtain ⟨s, i, rfl⟩ := finite_of_value? hx
    obtain ⟨t, j, rfl⟩ := finite_of_value? hy
    have hneg : (finite (!t) j).value? = some (-b) := by
      cases t <;> simp [value?] at hy ⊢ <;> linarith
    have hzero : (finite s i - finite t j).value? = some 0 := by
      change (if (finite s i).value?.getD 0 + (finite (!t) j).value?.getD 0 = 0 then signedZero (s && !t)
        else ofRat ((finite s i).value?.getD 0 + (finite (!t) j).value?.getD 0)).value? = _
      rw [hx, hneg, Option.getD_some, Option.getD_some, if_pos (by rw [hne, add_neg_cancel])]
      cases s <;> cases t <;> simp [signedZero, value?, magnitude_zero]
    refine ⟨0, hzero, ⟨?_⟩⟩
    rw [hne, sub_self, sub_zero, abs_zero, zero_div, zero_add]
    exact inv_nonneg.mpr (Nat.cast_nonneg _)
  · rw [sub_eq_ofRat hx hy hne]
    exact value_ofRat_rounds (isFinite_ofRat h)

theorem mul_eq : ∃ negative, x * y = ofMagnitude negative |a * b| ∧ a * b = if negative then -|a * b| else |a * b| := by
  obtain ⟨s, i, rfl⟩ := finite_of_value? hx
  obtain ⟨t, j, rfl⟩ := finite_of_value? hy
  have hi := magnitude_nonneg i
  have hj := magnitude_nonneg j
  have hprod : |a * b| = magnitude i * magnitude j := by
    rw [← Option.some.inj hx, ← Option.some.inj hy, abs_mul]
    cases s <;> cases t <;> simp [abs_of_nonneg hi, abs_of_nonneg hj]
  refine ⟨s != t, ?_, ?_⟩
  · rw [hprod]
    rfl
  · rw [hprod, ← Option.some.inj hx, ← Option.some.inj hy]
    cases s <;> cases t <;> simp

theorem isFinite_mul (h : |a * b| ≤ normalCount) : (x * y).isFinite = true := by
  obtain ⟨negative, hmul, _⟩ := mul_eq hx hy
  rw [hmul]
  exact isFinite_iff.mpr ⟨negative, _, ofRank_eq (rankOf_lt ((abs_abs _).trans_le h))⟩

theorem value_mul (h : (x * y).isFinite = true) : ∃ v, (x * y).value? = some v ∧ Rounds (a * b) v := by
  obtain ⟨negative, hmul, hvalue⟩ := mul_eq hx hy
  rw [hmul] at h ⊢
  obtain ⟨v, hv, hnear⟩ := value_ofMagnitude (abs_nonneg _) h
  exact ⟨v, hv, by rw [hvalue]; exact hnear⟩

end

theorem isFinite_mul_of_le {x y x' y' : Binary64} {a b a' b' : ℚ} (hx : x.value? = some a) (hy : y.value? = some b)
    (hx' : x'.value? = some a') (hy' : y'.value? = some b') (hle : |a * b| ≤ |a' * b'|)
    (h : (x' * y').isFinite = true) : (x * y).isFinite = true := by
  obtain ⟨negative, hmul, _⟩ := mul_eq hx hy
  obtain ⟨negative', hmul', _⟩ := mul_eq hx' hy'
  have hrank : rankOf |a * b| ≤ rankOf |a' * b'| := rankOf_mono (by rwa [abs_abs, abs_abs])
  have hlt : rankOf |a' * b'| < finiteCount := by
    by_contra hnot
    have hdef : ofMagnitude negative' |a' * b'| = ofRank negative' (rankOf |a' * b'|) := rfl
    rw [hmul', hdef, ofRank, dif_neg hnot] at h
    cases h
  rw [hmul]
  exact isFinite_iff.mpr ⟨negative, _, ofRank_eq (hrank.trans_lt hlt)⟩

/-! ## Range -/

/-- The largest magnitude. -/
def largest : Rat := magnitude (finiteCount - 1)

theorem value_le_largest {y : Binary64} {w : ℚ} (h : y.value? = some w) : |w| ≤ largest := by
  have hmagnitude := value?_abs h
  obtain ⟨t, k, rfl⟩ := finite_of_value? h
  have hother : magnitude k = |w| := Option.some.inj hmagnitude
  rw [← hother]
  exact magnitude_mono (Nat.le_sub_one_of_lt k.isLt)

theorem isFinite_ofRat_mono {x y : ℚ} (h : |x| ≤ |y|) (hy : (ofRat y).isFinite = true) : (ofRat x).isFinite = true := by
  have hlt : rankOf y < finiteCount := by
    by_contra hnot
    rw [ofRat_eq, ofRank, dif_neg hnot] at hy
    cases hy
  rw [ofRat_eq, ofRank_eq ((rankOf_mono h).trans_lt hlt)]
  rfl

theorem isFinite_ofRat_of_le {x : ℚ} (h : |x| ≤ largest) : (ofRat x).isFinite = true :=
  isFinite_ofRat_mono (h.trans (le_abs_self _)) (by decide +kernel : (ofRat largest).isFinite = true)

theorem abs_le_of_isFinite_ofRat {x : ℚ} (h : (ofRat x).isFinite = true) : |x| ≤ 2 * largest := by
  by_contra hnot
  have hnonneg : 0 ≤ 2 * largest := mul_nonneg two_pos.le (magnitude_nonneg _)
  have hfinite := isFinite_ofRat_mono (x := 2 * largest) ((abs_of_nonneg hnonneg).trans_le (not_le.mp hnot).le) h
  exact absurd hfinite (by decide +kernel)

/-- A fraction next to the value of a double is in range. -/
theorem isFinite_ofRat_near {y : Binary64} {w x : ℚ} (hw : y.value? = some w) (h : |x - w| ≤ 16) :
    (ofRat x).isFinite = true := by
  have hlimit : (ofRat (largest + 16)).isFinite = true := by decide +kernel
  have hw' := value_le_largest hw
  have htri := abs_sub_abs_le_abs_sub x w
  refine isFinite_ofRat_mono (le_trans ?_ (le_abs_self _)) hlimit
  linarith

/-! ## Integers -/

theorem round_of_value {x : Binary64} {v : ℚ} (h : x.value? = some v) : x.round = .ok (roundEven v) := by
  obtain ⟨s, k, rfl⟩ := finite_of_value? h
  change Except.ok (roundEven ((finite s k).value?.getD 0)) = _
  rw [h, Option.getD_some]

theorem value_of_round {x : Binary64} {n : Int} (h : x.round = .ok n) : ∃ v, x.value? = some v ∧ n = roundEven v := by
  cases x with
  | nan => cases h
  | infinite s => cases h
  | finite s k => exact ⟨_, rfl, (Except.ok.inj h).symm⟩

end Binary64

end Surd
