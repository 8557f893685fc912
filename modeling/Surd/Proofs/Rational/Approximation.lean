import Mathlib
import Surd.Rational.Approximation

/-!
# The closest fraction

Two fractions `p / q < p' / q'` with `p' q = p q' + 1` have none between them whose denominator is below
`q + q'`. The expansion of a fraction stops at two such neighbours, on both sides of it. So no fraction
within the bound is closer than the one that is found, `closestFraction_le`, and one that is near enough
is found, `closestFraction_eq`.
-/

namespace Surd

/-! ## Neighbours -/

section
variable {p q p' q' bound : Nat} (hq : 0 < q) (hq' : 0 < q') (h : p' * q = p * q' + 1)
include hq hq' h

theorem le_or_le_of_neighbours (hbound : bound < q + q') {y : ℚ} (hy : y.den ≤ bound) :
    y ≤ (p : ℚ) / q ∨ (p' : ℚ) / q' ≤ y := by
  by_contra hnot
  push Not at hnot
  obtain ⟨hlow, hhigh⟩ := hnot
  have hden : (0 : ℚ) < y.den := Nat.cast_pos.mpr y.den_pos
  rw [← Rat.num_div_den y] at hlow hhigh
  rw [div_lt_div_iff₀ (Nat.cast_pos.mpr hq) hden] at hlow
  rw [div_lt_div_iff₀ hden (Nat.cast_pos.mpr hq')] at hhigh
  have hbelow : (p : ℤ) * y.den + 1 ≤ y.num * q := by exact_mod_cast hlow
  have habove : y.num * q' + 1 ≤ (p' : ℤ) * y.den := by exact_mod_cast hhigh
  -- the denominator is a sum of both denominators, each at least once
  have hsum : (q : ℤ) + q' ≤ y.den := by
    have hunit : (p' : ℤ) * q = p * q' + 1 := by exact_mod_cast h
    calc (q : ℤ) + q' ≤ q * (p' * y.den - y.num * q') + q' * (y.num * q - p * y.den) := by nlinarith
      _ = (p' * q - p * q') * y.den := by ring
      _ = y.den := by rw [hunit]; ring
  have : q + q' ≤ y.den := by exact_mod_cast hsum
  omega

/-- Nothing within the bound is closer to a fraction between two neighbours than one of them. -/
theorem closer_of_neighbours (hbound : bound < q + q') {u v : Nat} {x : ℚ} (hpos : 0 < q * u + q' * v)
    (hx : x = ((p * u + p' * v : Nat) : ℚ) / (q * u + q' * v : Nat)) {y : ℚ} (hy : y.den ≤ bound) :
    |(p : ℚ) / q - x| ≤ |y - x| ∨ |(p' : ℚ) / q' - x| ≤ |y - x| := by
  have hlow : (p : ℚ) / q ≤ x := by
    rw [hx, div_le_div_iff₀ (Nat.cast_pos.mpr hq) (Nat.cast_pos.mpr hpos)]
    have : p * (q * u + q' * v) ≤ (p * u + p' * v) * q := by nlinarith
    exact_mod_cast this
  have hhigh : x ≤ (p' : ℚ) / q' := by
    rw [hx, div_le_div_iff₀ (Nat.cast_pos.mpr hpos) (Nat.cast_pos.mpr hq')]
    have : (p * u + p' * v) * q' ≤ p' * (q * u + q' * v) := by nlinarith
    exact_mod_cast this
  rcases le_or_le_of_neighbours hq hq' h hbound hy with hbelow | habove
  · left
    rw [abs_of_nonpos (sub_nonpos.mpr hlow), abs_of_nonpos (sub_nonpos.mpr (hbelow.trans hlow))]
    linarith
  · right
    rw [abs_of_nonneg (sub_nonneg.mpr hhigh), abs_of_nonneg (sub_nonneg.mpr (hhigh.trans habove))]
    linarith

end

/-! ## The expansion -/

namespace Convergents

/-- Convergents within a bound that expand `num / den` up to a rest `n / d`. -/
structure Expands (num den bound : Nat) (c : Convergents) (n d : Nat) : Prop where
  num_eq : num = c.p₁ * n + c.p₀ * d
  den_eq : den = c.q₁ * n + c.q₀ * d
  unit : c.p₁ * c.q₀ = c.p₀ * c.q₁ + 1 ∨ c.p₀ * c.q₁ = c.p₁ * c.q₀ + 1
  q₀_le : c.q₀ ≤ bound
  q₁_le : c.q₁ ≤ bound

theorem expands_start (num den : Nat) {bound : Nat} (h : 0 < bound) : Expands num den bound start num den where
  num_eq := by simp [start]
  den_eq := by simp [start]
  unit := .inl rfl
  q₀_le := h
  q₁_le := Nat.zero_le bound

theorem Expands.next {num den bound : Nat} {c : Convergents} {n d : Nat} (h : Expands num den bound c n d)
    (hle : (c.next (n / d)).q₁ ≤ bound) : Expands num den bound (c.next (n / d)) d (n % d) where
  num_eq := by
    conv_lhs => rw [h.num_eq, ← Nat.div_add_mod n d]
    simp only [Convergents.next]
    ring
  den_eq := by
    conv_lhs => rw [h.den_eq, ← Nat.div_add_mod n d]
    simp only [Convergents.next]
    ring
  unit := by
    simp only [Convergents.next]
    rcases h.unit with hunit | hunit
    · right
      linear_combination hunit
    · left
      linear_combination hunit
  q₀_le := h.q₁_le
  q₁_le := hle

/-- The expansion stops at a whole part that leads beyond the bound. -/
theorem expands_advance {num den bound : Nat} (hcoprime : num.Coprime den) (hden : bound < den) {c : Convergents}
    {n d : Nat} (h : Expands num den bound c n d) :
    ∃ n' d', Expands num den bound (c.advance bound n d) n' d' ∧ 0 < d' ∧
      bound < ((c.advance bound n d).next (n' / d')).q₁ := by
  fun_induction advance bound c n d with
  | case1 c n =>
    -- a last rest of zero would leave a denominator within the bound
    have hnum := h.num_eq
    have hden' := h.den_eq
    rw [Nat.mul_zero, Nat.add_zero] at hnum hden'
    have hone : n = 1 := by
      refine Nat.eq_one_of_dvd_coprimes hcoprime ⟨c.p₁, ?_⟩ ⟨c.q₁, ?_⟩
      · rw [hnum, Nat.mul_comm]
      · rw [hden', Nat.mul_comm]
    have := h.q₁_le
    rw [hone, Nat.mul_one] at hden'
    omega
  | case2 c n d hne hstop => exact ⟨n, d, h, Nat.pos_of_ne_zero hne, hstop⟩
  | case3 c n d hne hgo ih => exact ih (h.next (Nat.le_of_not_lt hgo))

theorem den_mkRat_le (p : ℤ) {q : Nat} (hq : 0 < q) : (mkRat p q).den ≤ q := by
  have hdvd := Rat.den_dvd p q
  rw [Rat.divInt_ofNat] at hdvd
  exact Nat.le_of_dvd hq (Int.natCast_dvd_natCast.mp hdvd)

theorem last_eq (c : Convergents) : c.last = (c.p₁ : ℚ) / c.q₁ := by
  rw [last, Rat.mkRat_eq_div]
  push_cast
  rfl

theorem intermediate_eq (c : Convergents) (bound : Nat) : c.intermediate bound =
    ((c.p₀ + (bound - c.q₀) / c.q₁ * c.p₁ : Nat) : ℚ) / (c.q₀ + (bound - c.q₀) / c.q₁ * c.q₁ : Nat) := by
  rw [intermediate, Rat.mkRat_eq_div]
  push_cast
  rfl

section
variable {num den bound : Nat} {c : Convergents} {n d : Nat} (h : Expands num den bound c n d)
  (hstop : bound < (c.next (n / d)).q₁)
include h hstop

theorem Expands.q₁_pos : 0 < c.q₁ := by
  have hle := h.q₀_le
  by_contra hzero
  simp only [Convergents.next, Nat.eq_zero_of_not_pos hzero, Nat.mul_zero, Nat.add_zero] at hstop
  omega

/-- The expanded fraction lies between the last convergent and the intermediate fraction. -/
theorem Expands.closer (hd : 0 < d) {y : ℚ} (hy : y.den ≤ bound) :
    |c.last - num / den| ≤ |y - num / den| ∨ |c.intermediate bound - num / den| ≤ |y - num / den| := by
  have hq₁ := h.q₁_pos hstop
  have hle := h.q₁_le
  have hfit : (bound - c.q₀) / c.q₁ * c.q₁ ≤ bound - c.q₀ := Nat.div_mul_le_self ..
  have hlast : bound - c.q₀ < (bound - c.q₀) / c.q₁ * c.q₁ + c.q₁ := Nat.lt_div_mul_add hq₁
  have hq₀ := h.q₀_le
  have hnext : bound < c.q₀ + n / d * c.q₁ := hstop
  have hless : (bound - c.q₀) / c.q₁ < n / d := (Nat.div_lt_iff_lt_mul hq₁).mpr (by omega)
  rw [last_eq, intermediate_eq]
  -- the last convergent fits `k` times within the bound, which leaves `u` of the numerator
  generalize (bound - c.q₀) / c.q₁ = k at *
  obtain ⟨u, rfl⟩ : ∃ u, n = u + k * d :=
    ⟨n - k * d, (Nat.sub_add_cancel ((Nat.le_div_iff_mul_le hd).mp hless.le)).symm⟩
  have hnum : num = c.p₁ * u + (c.p₀ + k * c.p₁) * d := by
    rw [h.num_eq]
    ring
  have hden : den = c.q₁ * u + (c.q₀ + k * c.q₁) * d := by
    rw [h.den_eq]
    ring
  have hQ : 0 < c.q₀ + k * c.q₁ := by omega
  have hpos : 0 < c.q₁ * u + (c.q₀ + k * c.q₁) * d := Nat.add_pos_right _ (Nat.mul_pos hQ hd)
  rw [hnum, hden]
  rcases h.unit with hunit | hunit
  · -- the convergent is the upper neighbour
    refine (closer_of_neighbours hQ hq₁ ?_ (by omega) (u := d) (v := u) ?_ ?_ hy).symm
    · linear_combination hunit
    · rwa [Nat.add_comm]
    · rw [Nat.add_comm (c.p₁ * u), Nat.add_comm (c.q₁ * u)]
  · exact closer_of_neighbours hq₁ hQ (by linear_combination hunit) (by omega) hpos rfl hy

theorem Expands.den_le : c.last.den ≤ bound ∧ (c.intermediate bound).den ≤ bound := by
  have hq₁ := h.q₁_pos hstop
  have hle := h.q₁_le
  have hfit : (bound - c.q₀) / c.q₁ * c.q₁ ≤ bound - c.q₀ := Nat.div_mul_le_self ..
  have hlast : bound - c.q₀ < (bound - c.q₀) / c.q₁ * c.q₁ + c.q₁ := Nat.lt_div_mul_add hq₁
  have hq₀ := h.q₀_le
  refine ⟨(den_mkRat_le _ hq₁).trans hle, (den_mkRat_le _ ?_).trans ?_⟩ <;> omega

end

end Convergents

/-! ## The closest fraction -/

theorem abs_eq (x : ℚ) : x.abs = |x| := by
  rcases le_total 0 x with h | h
  · rw [Rat.abs_of_nonneg h, abs_of_nonneg h]
  · rw [Rat.abs_of_nonpos h, abs_of_nonpos h]

/-- Different fractions are at least the inverse of the product of their denominators apart. -/
theorem one_le_abs_sub_mul {x y : ℚ} (h : x ≠ y) : 1 ≤ |x - y| * (x.den * y.den) := by
  have hint : (x - y) * (x.den * y.den) = (x.num * y.den - y.num * x.den : ℤ) := by
    push_cast
    rw [← Rat.mul_den_eq_num x, ← Rat.mul_den_eq_num y]
    ring
  have hden : (0 : ℚ) < x.den * y.den := mul_pos (Nat.cast_pos.mpr x.den_pos) (Nat.cast_pos.mpr y.den_pos)
  have hne : (x.num * y.den - y.num * x.den : ℤ) ≠ 0 := by
    intro hzero
    rw [hzero, Int.cast_zero] at hint
    exact h (sub_eq_zero.mp ((mul_eq_zero.mp hint).resolve_right hden.ne'))
  rw [← abs_of_pos hden, ← abs_mul, hint]
  exact_mod_cast Int.one_le_abs hne

section
variable {bound : Nat} (hbound : 0 < bound) {x : ℚ} (hx : 0 ≤ x)
include hbound hx

theorem closestFraction_cases : x.den ≤ bound ∧ closestFraction bound x = x ∨
    ∃ a b : ℚ, a.den ≤ bound ∧ b.den ≤ bound ∧ (∀ y : ℚ, y.den ≤ bound → |a - x| ≤ |y - x| ∨ |b - x| ≤ |y - x|) ∧
      closestFraction bound x = if |a - x| ≤ |b - x| then a else b := by
  by_cases hden : x.den ≤ bound
  · exact .inl ⟨hden, if_pos hden⟩
  · right
    have hstart := Convergents.expands_start x.num.natAbs x.den hbound
    obtain ⟨n, d, hexp, hd, hstop⟩ := Convergents.expands_advance x.reduced (Nat.lt_of_not_le hden) hstart
    obtain ⟨hlast, hintermediate⟩ := hexp.den_le hstop
    refine ⟨_, _, hlast, hintermediate, fun y hy => ?_, ?_⟩
    · have hcloser := hexp.closer hstop hd hy
      rwa [← Int.cast_natCast x.num.natAbs, Int.natAbs_of_nonneg (Rat.num_nonneg.mpr hx), Rat.num_div_den] at hcloser
    · rw [closestFraction, if_neg hden]
      simp only [abs_eq]

theorem closestFraction_den_le : (closestFraction bound x).den ≤ bound := by
  rcases closestFraction_cases hbound hx with ⟨hden, heq⟩ | ⟨a, b, ha, hb, _, heq⟩
  · rwa [heq]
  · rw [heq]
    split
    · exact ha
    · exact hb

/-- No fraction within the bound is closer. -/
theorem closestFraction_le {y : ℚ} (hy : y.den ≤ bound) : |closestFraction bound x - x| ≤ |y - x| := by
  rcases closestFraction_cases hbound hx with ⟨_, heq⟩ | ⟨a, b, _, _, hcloser, heq⟩
  · rw [heq, sub_self, abs_zero]
    exact abs_nonneg _
  · rw [heq]
    split
    · rename_i hle
      exact (hcloser y hy).elim id fun hb => hle.trans hb
    · rename_i hgt
      exact (hcloser y hy).elim (fun ha => (le_of_not_ge hgt).trans ha) id

/-- A fraction within the bound is found if it is nearer than half the least distance of two such. -/
theorem closestFraction_eq {s : ℚ} (hs : s.den ≤ bound) (hnear : |s - x| < 1 / (2 * bound ^ 2)) :
    closestFraction bound x = s := by
  by_contra hne
  have hgap := one_le_abs_sub_mul hne
  have hden : ((closestFraction bound x).den : ℚ) * s.den ≤ bound * bound := by
    exact_mod_cast Nat.mul_le_mul (closestFraction_den_le hbound hx) hs
  have hle := closestFraction_le hbound hx hs
  have hapart : |closestFraction bound x - s| < 1 / bound ^ 2 := by
    calc |closestFraction bound x - s| ≤ |closestFraction bound x - x| + |x - s| := abs_sub_le _ _ _
      _ ≤ 2 * |s - x| := by rw [abs_sub_comm x s]; linarith
      _ < 2 * (1 / (2 * bound ^ 2)) := by linarith
      _ = 1 / bound ^ 2 := by ring
  have hpos : (0 : ℚ) < bound := Nat.cast_pos.mpr hbound
  have hone : |closestFraction bound x - s| * ((closestFraction bound x).den * s.den) < 1 := by
    calc |closestFraction bound x - s| * ((closestFraction bound x).den * s.den)
        ≤ |closestFraction bound x - s| * (bound * bound) := mul_le_mul_of_nonneg_left hden (abs_nonneg _)
      _ < 1 / bound ^ 2 * (bound * bound) := mul_lt_mul_of_pos_right hapart (mul_pos hpos hpos)
      _ = 1 := by field_simp
  exact absurd hgap (not_le.mpr hone)

end

end Surd
