import Mathlib
import Surd.Binary64.Rounding

/-!
# How near the nearest double is

The rank that a fraction is rounded to is a scale, by which all ranks of a block are apart, and a
number of units on it. So rounding is monotone (`nearestRank_mono`), and in the normal range it is off
by at most 2^-53 of the fraction (`abs_magnitude_nearestRank_sub_le`).
-/

namespace Surd

/-! ## Rounding a quotient -/

theorem roundQuotient_bounds (n : Nat) {d : Nat} (hd : 0 < d) :
    2 * n ≤ d * (2 * roundQuotient n d + 1) ∧ d * (2 * roundQuotient n d) ≤ 2 * n + d := by
  have hdiv := Nat.div_add_mod n d
  have hmod := Nat.mod_lt n hd
  unfold roundQuotient
  dsimp only
  split
  · rw [mul_add, mul_left_comm]
    omega
  · rw [mul_add, mul_left_comm, mul_add]
    omega

theorem le_roundQuotient (n d : Nat) : n / d ≤ roundQuotient n d := by
  unfold roundQuotient
  dsimp only
  split <;> omega

theorem roundQuotient_le (n d : Nat) : roundQuotient n d ≤ n / d + 1 := by
  unfold roundQuotient
  dsimp only
  split <;> omega

/-- A rest that is no larger part of its divisor than another one is rounded down where that one is. -/
theorem roundsDown_of_le {d d' r r' : Nat} (hd : 0 < d) (hd' : 0 < d') (hrest : r * d' ≤ r' * d) {even : Prop}
    (h : 2 * r' < d' ∨ 2 * r' = d' ∧ even) : 2 * r < d ∨ 2 * r = d ∧ even := by
  have hdouble : 2 * r * d' ≤ 2 * r' * d := by
    rw [Nat.mul_assoc, Nat.mul_assoc]
    exact Nat.mul_le_mul_left 2 hrest
  rcases h with hlt | ⟨htie, heven⟩
  · refine .inl (Nat.lt_of_mul_lt_mul_right (a := d') ?_)
    calc 2 * r * d' ≤ 2 * r' * d := hdouble
      _ < d' * d := Nat.mul_lt_mul_of_pos_right hlt hd
      _ = d * d' := Nat.mul_comm d' d
  · have hle : 2 * r ≤ d := by
      refine Nat.le_of_mul_le_mul_right ?_ hd'
      rw [htie, Nat.mul_comm d'] at hdouble
      exact hdouble
    exact hle.lt_or_eq.imp_right fun heq => ⟨heq, heven⟩

theorem roundQuotient_mono {n d n' d' : Nat} (hd : 0 < d) (hd' : 0 < d') (h : n * d' ≤ n' * d) :
    roundQuotient n d ≤ roundQuotient n' d' := by
  have hquot : n / d ≤ n' / d' := by
    rw [Nat.le_div_iff_mul_le hd']
    refine Nat.le_of_mul_le_mul_right ?_ hd
    calc n / d * d' * d = n / d * d * d' := by ring
      _ ≤ n * d' := Nat.mul_le_mul_right d' (Nat.div_mul_le_self n d)
      _ ≤ n' * d := h
  rcases hquot.lt_or_eq with hlt | heq
  · have := roundQuotient_le n d
    have := le_roundQuotient n' d'
    omega
  · -- the whole parts agree, so the rests decide
    have hrest : n % d * d' ≤ n' % d' * d := by
      have hn := Nat.div_add_mod n d
      have hn' := Nat.div_add_mod n' d'
      have hcross : (d * (n / d) + n % d) * d' ≤ (d' * (n' / d') + n' % d') * d := by rw [hn, hn']; exact h
      rw [heq] at hcross
      nlinarith
    unfold roundQuotient
    dsimp only
    rw [heq]
    by_cases hdown : 2 * (n' % d') < d' ∨ 2 * (n' % d') = d' ∧ n' / d' % 2 = 0
    · simp only [if_pos hdown, if_pos (roundsDown_of_le hd hd' hrest hdown), le_refl]
    · simp only [if_neg hdown]
      split <;> omega

namespace Binary64

/-! ## Ranks -/

theorem blockSize_eq : blockSize = 2 ^ 52 := rfl

/-- The units of a rank that is given by a scale and a number of steps on it. -/
theorem unitsOf_add {scale q : Nat} (hq : q ≤ 2 * blockSize) (hscale : scale = 0 ∨ blockSize ≤ q) :
    unitsOf (scale * blockSize + q) = q * 2 ^ scale := by
  have hpos : 0 < blockSize := by decide
  have hdiv : (scale * blockSize + q) / blockSize = scale + q / blockSize := by
    rw [Nat.add_comm, Nat.add_mul_div_right _ _ hpos, Nat.add_comm]
  unfold unitsOf scaleOf
  rw [hdiv]
  rcases hq.lt_or_eq with hlt | heq
  · have hone : q / blockSize < 2 := (Nat.div_lt_iff_lt_mul hpos).mpr hlt
    have hsame : scale + q / blockSize - 1 = scale := by
      rcases hscale with rfl | hle
      · omega
      · have : 1 ≤ q / blockSize := (Nat.one_le_div_iff hpos).mpr hle
        omega
    rw [hsame, Nat.add_sub_cancel_left]
    rfl
  · -- twice the block size is the first rank of the next scale
    subst heq
    have htwo : 2 * blockSize / blockSize = 2 := Nat.mul_div_cancel _ hpos
    have hnext : scale * blockSize + 2 * blockSize - (scale + 1) * blockSize = blockSize := by
      rw [Nat.add_mul, Nat.one_mul]
      omega
    rw [htwo, show scale + 2 - 1 = scale + 1 by omega, hnext]
    change blockSize * 2 ^ (scale + 1) = _
    ring

/-- How many units there are in one. -/
def unitCount : Nat := Nat.pow 2 1074

theorem two_pow_le_unitCount {k : Nat} (h : k ≤ 1074) : 2 ^ k ≤ unitCount := by
  unfold unitCount
  generalize 1074 = total at *
  exact Nat.pow_le_pow_right (by decide) h

theorem unitCount_pos : 0 < unitCount := two_pow_le_unitCount (Nat.zero_le 1074)

/-- How many of the least normal magnitudes there are in one. -/
def normalCount : Nat := Nat.pow 2 1022

theorem two_pow_le_normalCount {k : Nat} (h : k ≤ 1022) : 2 ^ k ≤ normalCount := by
  unfold normalCount
  generalize 1022 = total at *
  exact Nat.pow_le_pow_right (by decide) h

theorem normalCount_pos : 0 < normalCount := two_pow_le_normalCount (Nat.zero_le 1022)

theorem unitCount_eq : unitCount = normalCount * blockSize := by decide +kernel

theorem magnitude_eq (rank : Nat) : magnitude rank = (unitsOf rank : ℚ) / unitCount := by
  have hpow : ∀ k, Nat.pow 2 k = 2 ^ k := fun _ => rfl
  unfold magnitude unitsOf unitCount
  dsimp only
  generalize scaleOf rank = scale
  generalize rank - scale * blockSize = significand
  simp only [hpow]
  generalize 1074 = total
  by_cases hle : total ≤ scale
  · obtain ⟨k, rfl⟩ := Nat.exists_eq_add_of_le hle
    rw [if_pos hle, Nat.add_sub_cancel_left, pow_add]
    push_cast
    field_simp
  · obtain ⟨k, rfl⟩ := Nat.exists_eq_add_of_le (Nat.le_of_not_le hle)
    rw [if_neg hle, Rat.mkRat_eq_div, Nat.add_sub_cancel_left, pow_add]
    push_cast
    field_simp

theorem magnitude_nonneg (rank : Nat) : 0 ≤ magnitude rank := by
  rw [magnitude_eq]
  positivity

theorem unitsOf_le (rank : Nat) : unitsOf rank ≤ 2 ^ 53 * 2 ^ scaleOf rank := by
  have hpos : 0 < blockSize := by decide
  have hlt := Nat.lt_div_mul_add hpos (a := rank)
  have hle : rank / blockSize * blockSize ≤ (scaleOf rank + 1) * blockSize :=
    Nat.mul_le_mul_right _ (by unfold scaleOf; omega)
  rw [Nat.add_mul, Nat.one_mul] at hle
  have hblockSize := blockSize_eq
  exact Nat.mul_le_mul_right _ (by omega)

theorem unitsOf_pos {rank : Nat} (h : rank ≠ 0) : 0 < unitsOf rank := by
  have hle := Nat.div_mul_le_self rank blockSize
  refine Nat.mul_pos (Nat.sub_pos_of_lt ?_) (Nat.pow_pos (by decide))
  unfold scaleOf
  cases hblock : rank / blockSize with
  | zero => omega
  | succ b =>
    rw [hblock, Nat.add_mul, Nat.one_mul] at hle
    have hpos : 0 < blockSize := by decide
    rw [Nat.add_sub_cancel]
    omega

theorem magnitude_pos {rank : Nat} (h : rank ≠ 0) : 0 < magnitude rank := by
  rw [magnitude_eq]
  exact div_pos (Nat.cast_pos.mpr (unitsOf_pos h)) (Nat.cast_pos.mpr unitCount_pos)

/-! ## The nearest rank -/

/-- A quotient lies among the magnitudes that are `2 ^ scale` units apart. -/
structure OnScale (units d scale : Nat) : Prop where
  low : scale = 0 ∨ blockSize * (d * 2 ^ scale) ≤ units
  high : units < 2 * blockSize * (d * 2 ^ scale)

theorem onScale_log2 (units : Nat) {d : Nat} (hd : 0 < d) : OnScale units d ((units / d).log2 - 52) where
  low := by
    by_cases hscale : (units / d).log2 - 52 = 0
    · exact .inl hscale
    · right
      have hne : units / d ≠ 0 := by
        intro hzero
        rw [hzero] at hscale
        exact hscale rfl
      have hlog := (Nat.le_log2 hne).mp le_rfl
      obtain ⟨k, hk⟩ : ∃ k, (units / d).log2 = 52 + k := ⟨(units / d).log2 - 52, by omega⟩
      rw [hk, Nat.add_sub_cancel_left, blockSize_eq]
      rw [hk, pow_add] at hlog
      calc 2 ^ 52 * (d * 2 ^ k) = 2 ^ 52 * 2 ^ k * d := by ring
        _ ≤ units / d * d := Nat.mul_le_mul_right d hlog
        _ ≤ units := Nat.div_mul_le_self units d
  high := by
    have hlog : units / d < 2 ^ ((units / d).log2 + 1) := Nat.lt_log2_self
    have hle : (units / d).log2 + 1 ≤ 53 + ((units / d).log2 - 52) := by omega
    have hlt : units / d < 2 ^ (53 + ((units / d).log2 - 52)) := hlog.trans_le (Nat.pow_le_pow_right (by decide) hle)
    rw [Nat.div_lt_iff_lt_mul hd, pow_add] at hlt
    calc units < 2 ^ 53 * 2 ^ ((units / d).log2 - 52) * d := hlt
      _ = 2 * blockSize * (d * 2 ^ ((units / d).log2 - 52)) := by rw [blockSize_eq]; ring

theorem nearestRank_eq (n d : Nat) :
    nearestRank n d = ((n * unitCount / d).log2 - 52) * blockSize +
      roundQuotient (n * unitCount) (d * 2 ^ ((n * unitCount / d).log2 - 52)) := by
  unfold nearestRank unitCount
  generalize Nat.pow 2 1074 = unit
  rfl

namespace OnScale

theorem step_pos {d : Nat} (hd : 0 < d) (scale : Nat) : 0 < d * 2 ^ scale :=
  Nat.mul_pos hd (Nat.two_pow_pos scale)

variable {units d scale : Nat} (h : OnScale units d scale) (hd : 0 < d)
include h hd

theorem le_round : scale = 0 ∨ blockSize ≤ roundQuotient units (d * 2 ^ scale) := by
  refine h.low.imp_right fun hlow => ?_
  exact ((Nat.le_div_iff_mul_le (step_pos hd scale)).mpr hlow).trans (le_roundQuotient _ _)

theorem round_le : roundQuotient units (d * 2 ^ scale) ≤ 2 * blockSize := by
  have hlt := (Nat.div_lt_iff_lt_mul (step_pos hd scale)).mpr h.high
  exact (roundQuotient_le _ _).trans hlt

theorem rank_mono {units' d' scale' : Nat} (h' : OnScale units' d' scale') (hd' : 0 < d')
    (hle : units * d' ≤ units' * d) :
    scale * blockSize + roundQuotient units (d * 2 ^ scale) ≤
      scale' * blockSize + roundQuotient units' (d' * 2 ^ scale') := by
  rcases lt_trichotomy scale scale' with hlt | rfl | hgt
  · have hle' := (h'.le_round hd').resolve_left (by omega)
    have hnext := Nat.mul_le_mul_right blockSize (show scale + 1 ≤ scale' from hlt)
    have := h.round_le hd
    rw [Nat.add_mul, Nat.one_mul] at hnext
    omega
  · refine Nat.add_le_add_left (roundQuotient_mono (step_pos hd scale) (step_pos hd' scale) ?_) _
    calc units * (d' * 2 ^ scale) = units * d' * 2 ^ scale := by ring
      _ ≤ units' * d * 2 ^ scale := Nat.mul_le_mul_right _ hle
      _ = units' * (d * 2 ^ scale) := by ring
  · -- a coarser scale belongs to a larger quotient
    exfalso
    obtain ⟨k, rfl⟩ : ∃ k, scale = scale' + 1 + k := Nat.exists_eq_add_of_le hgt
    have hlow := h.low.resolve_left (by omega)
    have hstep : 2 * 2 ^ scale' ≤ 2 ^ (scale' + 1 + k) := by
      rw [← pow_succ']
      exact Nat.pow_le_pow_right (by decide) (by omega)
    have hlt : units' * d < units * d' := by
      calc units' * d < 2 * blockSize * (d' * 2 ^ scale') * d := Nat.mul_lt_mul_of_pos_right h'.high hd
        _ = blockSize * (d * (2 * 2 ^ scale')) * d' := by ring
        _ ≤ blockSize * (d * 2 ^ (scale' + 1 + k)) * d' := by gcongr
        _ ≤ units * d' := Nat.mul_le_mul_right d' hlow
    omega

end OnScale

theorem nearestRank_mono {n d n' d' : Nat} (hd : 0 < d) (hd' : 0 < d') (h : n * d' ≤ n' * d) :
    nearestRank n d ≤ nearestRank n' d' := by
  rw [nearestRank_eq, nearestRank_eq]
  refine (onScale_log2 _ hd).rank_mono hd (onScale_log2 _ hd') hd' ?_
  calc n * unitCount * d' = n * d' * unitCount := by ring
    _ ≤ n' * d * unitCount := Nat.mul_le_mul_right _ h
    _ = n' * unitCount * d := by ring

theorem unitsOf_nearestRank (n : Nat) {d : Nat} (hd : 0 < d) :
    ∃ scale, OnScale (n * unitCount) d scale ∧
      unitsOf (nearestRank n d) = roundQuotient (n * unitCount) (d * 2 ^ scale) * 2 ^ scale := by
  have hscale := onScale_log2 (n * unitCount) hd
  refine ⟨_, hscale, ?_⟩
  rw [nearestRank_eq]
  exact unitsOf_add (hscale.round_le hd) (hscale.le_round hd)

/-- In the normal range a magnitude is off by at most 2^-53 of the quotient that it is rounded from. -/
theorem abs_magnitude_nearestRank_sub_le {n d : Nat} (hd : 0 < d) (h : d ≤ n * normalCount) :
    |magnitude (nearestRank n d) - (n : ℚ) / d| ≤ (n : ℚ) / d / 2 ^ 53 := by
  obtain ⟨scale, hscale, hunits⟩ := unitsOf_nearestRank n hd
  have hlow : blockSize * (d * 2 ^ scale) ≤ n * unitCount := by
    rcases hscale.low with rfl | hlow
    · calc blockSize * (d * 2 ^ 0) = d * blockSize := by ring
        _ ≤ n * normalCount * blockSize := Nat.mul_le_mul_right _ h
        _ = n * unitCount := by rw [mul_assoc, unitCount_eq]
    · exact hlow
  obtain ⟨hbelow, habove⟩ := roundQuotient_bounds (n * unitCount) (OnScale.step_pos hd scale)
  have hpos : 0 < unitCount := unitCount_pos
  rw [magnitude_eq, hunits]
  generalize roundQuotient (n * unitCount) (d * 2 ^ scale) = q at *
  generalize unitCount = P at *
  rw [blockSize_eq] at hlow
  qify at hbelow habove hlow hd hpos ⊢
  have hoff : (q : ℚ) * 2 ^ scale / P - n / d = (q * (d * 2 ^ scale) - n * P) / (d * P) := by field_simp
  have hbound : (n : ℚ) / d / 2 ^ 53 * (d * P) = n * P / 2 ^ 53 := by field_simp
  rw [hoff, abs_div, abs_of_pos (mul_pos hd hpos), div_le_iff₀ (mul_pos hd hpos), hbound, abs_le]
  constructor <;> linarith

end Binary64

end Surd
