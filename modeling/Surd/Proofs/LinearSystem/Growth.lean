import Mathlib
import Surd.Proofs.Binary64.Conversion
import Surd.Proofs.LinearSystem.Outcome

/-!
# How large coefficients become

One column of elimination takes fractions with parts of at most `k` to fractions with parts of at most
`2 k ^ 4`. Three equations with parts of at most 2^63 so stay in the range of doubles to the end:
`not_meets_of_within`.
-/

namespace Surd.LinearSystem

open Binary64 (normalCount)

/-! ## Parts of fractions -/

/-- A fraction that can be written with a numerator and a denominator of at most `k`. -/
def Bounded (k : Nat) (x : ℚ) : Prop := ∃ (p : ℤ) (q : ℕ), x = p / q ∧ p.natAbs ≤ k ∧ 0 < q ∧ q ≤ k

namespace Bounded

variable {j k : Nat} {x y : ℚ}

theorem of_parts (hnum : x.num.natAbs ≤ k) (hden : x.den ≤ k) : Bounded k x :=
  ⟨x.num, x.den, (Rat.num_div_den x).symm, hnum, x.den_pos, hden⟩

theorem mul (hx : Bounded j x) (hy : Bounded k y) : Bounded (j * k) (x * y) := by
  obtain ⟨p, q, rfl, hp, hq, hq'⟩ := hx
  obtain ⟨p', q', rfl, hp', hr, hr'⟩ := hy
  refine ⟨p * p', q * q', ?_, ?_, Nat.mul_pos hq hr, Nat.mul_le_mul hq' hr'⟩
  · push_cast
    exact div_mul_div_comm ..
  · rw [Int.natAbs_mul]
    exact Nat.mul_le_mul hp hp'

theorem sub (hx : Bounded j x) (hy : Bounded k y) : Bounded (2 * (j * k)) (x - y) := by
  obtain ⟨p, q, rfl, hp, hq, hq'⟩ := hx
  obtain ⟨p', q', rfl, hp', hr, hr'⟩ := hy
  refine ⟨p * q' - q * p', q * q', ?_, ?_, Nat.mul_pos hq hr, ?_⟩
  · push_cast
    exact div_sub_div _ _ (Nat.cast_ne_zero.mpr hq.ne') (Nat.cast_ne_zero.mpr hr.ne')
  · have hleft := Nat.mul_le_mul hp hr'
    have hright := Nat.mul_le_mul hq' hp'
    have hsub := Int.natAbs_sub_le (p * q') (q * p')
    rw [Int.natAbs_mul, Int.natAbs_mul, Int.natAbs_natCast, Int.natAbs_natCast] at hsub
    omega
  · have := Nat.mul_le_mul hq' hr'
    omega

theorem inv (hx : Bounded k x) (hne : x ≠ 0) : Bounded k x⁻¹ := by
  obtain ⟨p, q, rfl, hp, hq, hq'⟩ := hx
  have hpne : p ≠ 0 := by
    rintro rfl
    simp at hne
  refine ⟨p.sign * q, p.natAbs, ?_, ?_, Int.natAbs_pos.mpr hpne, hp⟩
  · have habs : (p : ℚ) * p.sign = p.natAbs := by
      rw [← Int.cast_natCast, ← Int.mul_sign_self, Int.cast_mul]
    have hne' : (p.natAbs : ℚ) ≠ 0 := Nat.cast_ne_zero.mpr (Int.natAbs_ne_zero.mpr hpne)
    rw [inv_div, div_eq_div_iff (Int.cast_ne_zero.mpr hpne) hne', ← habs]
    push_cast
    ring
  · rw [Int.natAbs_mul, Int.natAbs_sign_of_ne_zero hpne, one_mul]
    exact hq'

theorem abs_le (hx : Bounded k x) : |x| ≤ k := by
  obtain ⟨p, q, rfl, hp, hq, hq'⟩ := hx
  have hone : (1 : ℚ) ≤ q := by exact_mod_cast hq
  rw [abs_div, Nat.abs_cast, ← Int.cast_abs, ← Nat.cast_natAbs]
  exact (div_le_self (Nat.cast_nonneg _) hone).trans (Nat.cast_le.mpr hp)

theorem pos (hx : Bounded k x) : (0 : ℚ) < k := by
  obtain ⟨p, q, _, _, hq, hq'⟩ := hx
  exact Nat.cast_pos.mpr (hq.trans_le hq')

theorem inv_le_abs (hx : Bounded k x) (hne : x ≠ 0) : (k : ℚ)⁻¹ ≤ |x| := by
  have habs := (hx.inv hne).abs_le
  rw [abs_inv] at habs
  exact (inv_le_comm₀ hx.pos (abs_pos.mpr hne)).mpr habs

end Bounded

/-! ## One column -/

/-- All coefficients are fractions with parts of at most `k`. -/
def Within (k : Nat) (rows : List Row) : Prop := ∀ r ∈ rows, ∀ z ∈ r.coefficients, ∃ x, z = .ofRat x ∧ Bounded k x

/-- What the bound becomes in one column. -/
def grow (k : Nat) : Nat := 2 * (k * (k * k * k))

section
variable {k n : Nat} {rows rows' : List Row}

theorem Within.perm (h : Within k rows) (hperm : rows'.Perm rows) : Within k rows' :=
  fun r hr => h r (hperm.mem_iff.mp hr)

theorem Within.lead (h : Within k rows) (hsq : Square (n + 1) rows) {r : Row} (hr : r ∈ rows) :
    ∃ x, r.lead = .ofRat x ∧ Bounded k x := by
  refine h r hr r.lead ?_
  have hwidth := hsq.width r hr
  unfold Row.lead
  cases hc : r.coefficients with
  | nil => rw [hc] at hwidth; cases hwidth
  | cons c cs => simp

theorem Within.reduced {p : Row} {others : List Row} (h : Within k (p :: others))
    (hsq : Square (n + 1) (p :: others)) (hlead : p.lead ≠ 0) : Within (grow k) (others.map p.reduced) := by
  intro r hr z hz
  obtain ⟨q, hq, rfl⟩ := List.mem_map.mp hr
  have hq' : q ∈ p :: others := List.mem_cons_of_mem p hq
  obtain ⟨a, ha, ha'⟩ := h.lead hsq hq'
  obtain ⟨b, hb, hb'⟩ := h.lead hsq (List.mem_cons_self ..)
  have hpair : z ∈ (q.coefficients.tail.zip p.coefficients.tail).map
      (Function.uncurry fun x y => x - q.lead / p.lead * y) := by
    rw [List.map_uncurry_zip_eq_zipWith]
    exact hz
  obtain ⟨⟨u, v⟩, huv, rfl⟩ := List.mem_map.mp hpair
  obtain ⟨hu, hv⟩ := List.of_mem_zip huv
  obtain ⟨x, rfl, hx⟩ := h q hq' u (List.mem_of_mem_tail hu)
  obtain ⟨y, rfl, hy⟩ := h p (List.mem_cons_self ..) v (List.mem_of_mem_tail hv)
  have hbne : b ≠ 0 := by
    rintro rfl
    exact hlead hb
  refine ⟨x - a * b⁻¹ * y, ?_, hx.sub ((ha'.mul (hb'.inv hbne)).mul hy)⟩
  rw [Function.uncurry_apply_pair, ha, hb, div_eq_mul_inv]
  simp only [← Gaussian.ofRatHom_apply, map_sub, map_mul, map_inv₀]

theorem Step.square (hstep : Step rows rows') (hsq : Square (n + 1) rows) : Square n rows' := by
  cases hstep with
  | reduce hpivot => exact (hsq.perm (choosePivot_perm hpivot)).reduced

theorem Step.within (hstep : Step rows rows') (hsq : Square (n + 1) rows) (h : Within k rows) :
    Within (grow k) rows' := by
  cases hstep with
  | reduce hpivot hlead =>
    have hperm := choosePivot_perm hpivot
    exact (h.perm hperm).reduced (hsq.perm hperm) hlead

/-! ## All columns -/

theorem reach_within (hreach : Relation.ReflTransGen Step rows rows') (hsq : Square n rows) (h : Within k rows) :
    ∃ i m, i + m = n ∧ Square m rows' ∧ Within (grow^[i] k) rows' := by
  induction hreach with
  | refl => exact ⟨0, n, Nat.zero_add n, hsq, h⟩
  | tail _ hstep ih =>
    obtain ⟨i, m, him, hsq, hwithin⟩ := ih
    obtain ⟨m, rfl⟩ : ∃ m', m = m' + 1 := by
      cases hstep with
      | reduce => exact ⟨_, hsq.count.symm⟩
    have hwithin' := hstep.within hsq hwithin
    rw [← Function.iterate_succ_apply' grow] at hwithin'
    exact ⟨i + 1, m, by omega, hstep.square hsq, hwithin'⟩

/-! ## Range -/

theorem image_of_bounded {r : Row} {x : ℚ} (hr : r.lead = .ofRat x) (hx : Bounded k x) (hk : k ≤ normalCount) :
    r.image.isFinite = true ∧ (r.image.isZero = true → r.lead = 0) := by
  have hk' : (k : ℚ) ≤ normalCount := Nat.cast_le.mpr hk
  have himage : r.image = Binary64.ofRat x := by rw [Row.image, hr, Gaussian.ofRat_re]
  rw [himage]
  refine ⟨Binary64.isFinite_ofRat (hx.abs_le.trans hk'), fun hzero => ?_⟩
  by_contra hne
  have hxne : x ≠ 0 := by
    rintro rfl
    exact hne hr
  have hlow := (inv_anti₀ hx.pos hk').trans (hx.inv_le_abs hxne)
  rw [Binary64.isZero_ofRat hlow] at hzero
  cases hzero

theorem Within.in_range (h : Within k rows) (hsq : Square (n + 1) rows) (hk : k ≤ normalCount) :
    ¬Overflows rows ∧ ¬Blind rows := by
  have himage : ∀ r ∈ rows, r.image.isFinite = true ∧ (r.image.isZero = true → r.lead = 0) := by
    intro r hr
    obtain ⟨x, hlead, hx⟩ := h.lead hsq hr
    exact image_of_bounded hlead hx hk
  constructor
  · rintro ⟨r, hr, hover⟩
    rw [(himage r hr).1] at hover
    cases hover
  · intro hblind
    cases rows with
    | nil => exact hblind
    | cons first rest =>
      obtain ⟨_, hzero, r, hr, hne⟩ := hblind
      exact hne ((himage r hr).2 (hzero r hr))

theorem grow_mono {j k : Nat} (h : j ≤ k) : grow j ≤ grow k := by
  unfold grow
  gcongr

theorem grow_two_pow (e : Nat) : grow (2 ^ e) = 2 ^ (4 * e + 1) := by
  unfold grow
  ring

theorem grow_iterate_le {i : Nat} (hi : i ≤ 2) (hk : k ≤ 2 ^ 63) : grow^[i] k ≤ normalCount := by
  have hlimit : grow^[i] (2 ^ 63) ≤ normalCount := by
    match i, hi with
    | 0, _ => exact Binary64.two_pow_le_normalCount (by decide)
    | 1, _ => exact (grow_two_pow 63).trans_le (Binary64.two_pow_le_normalCount (by decide))
    | 2, _ =>
      rw [Function.iterate_succ_apply, grow_two_pow, Function.iterate_one, grow_two_pow]
      exact Binary64.two_pow_le_normalCount (by decide)
  exact (Monotone.iterate (fun _ _ => grow_mono) i hk).trans hlimit

/-- Nothing keeps three equations of moderate size from their answer. -/
theorem not_meets_of_within (hn : n ≤ 3) (hsq : Square n rows) (hk : k ≤ 2 ^ 63) (h : Within k rows) :
    ¬Meets Overflows rows ∧ ¬Meets Blind rows := by
  have hstage : ∀ stage, Relation.ReflTransGen Step rows stage → ¬Overflows stage ∧ ¬Blind stage := by
    intro stage hreach
    obtain ⟨i, m, him, hsq, hwithin⟩ := reach_within hreach hsq h
    cases m with
    | zero =>
      obtain rfl : stage = [] := List.length_eq_zero_iff.mp hsq.count
      refine ⟨?_, id⟩
      rintro ⟨r, hr, _⟩
      cases hr
    | succ m => exact hwithin.in_range hsq (grow_iterate_le (by omega) hk)
  constructor
  · rintro ⟨stage, hreach, hover⟩
    exact (hstage stage hreach).1 hover
  · rintro ⟨stage, hreach, hblind⟩
    exact (hstage stage hreach).2 hblind

end

end Surd.LinearSystem
