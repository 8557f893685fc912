import Mathlib
import Surd.Proofs.Binary64.Nearest
import Surd.Proofs.Rational.SquareRoot
import Surd.Proofs.Radical.Search

/-!
# How near a radical is

By default a radical is within about 10^-7 of the fraction that it is taken for (`find?_stands`), and the
search for it fails only where a multiple of the fraction is beyond the range of doubles
(`find?_total`).
-/

namespace Surd

namespace Binary64

/-! ## Comparisons -/

theorem le_of_not_lt_abs {x y : Binary64} {a b : ℚ} (hx : x.value? = some a) (hy : y.value? = some b) (ha : 0 ≤ a)
    (h : x.lt y.abs = false) : |b| ≤ a := by
  have habs := value?_abs hy
  obtain ⟨s, i, rfl⟩ := finite_of_value? hx
  obtain ⟨t, j, rfl⟩ := finite_of_value? hy
  have hb : magnitude j = |b| := Option.some.inj habs
  rw [← hb, ← Option.some.inj hx]
  cases s with
  | false =>
    rw [abs, lt_magnitudes, decide_eq_false_iff_not, not_lt] at h
    simpa using magnitude_mono h
  | true =>
    -- a negative zero
    have hi : i.val = 0 := by
      by_contra hne
      have hpos := magnitude_pos hne
      have hneg : -magnitude i = a := Option.some.inj hx
      linarith
    have hj : j.val = 0 := by simpa [lt, place?, abs, hi] using h
    simp [hi, hj, magnitude_zero]

theorem isPositive_iff {x : Binary64} {v : ℚ} (h : x.value? = some v) : x.isPositive = true ↔ 0 < v := by
  obtain ⟨s, k, rfl⟩ := finite_of_value? h
  have hnonneg := magnitude_nonneg k
  rw [← Option.some.inj h]
  cases s with
  | false =>
    by_cases hk : k.val = 0
    · simp [isPositive, lt, place?, zero, signedZero, hk, magnitude_zero]
    · simp [isPositive, lt, place?, zero, signedZero, magnitude_pos hk, Nat.pos_of_ne_zero hk]
  | true =>
    have hrank : ¬((k.val : Int) < 0) := by omega
    simp [isPositive, lt, place?, zero, signedZero, hrank, hnonneg.not_gt]

/-! ## Bounds -/

theorem abs_value_le {x : Binary64} {v : ℚ} (h : x.value? = some v) : |v| ≤ unitCount := by
  have habs := value?_abs h
  obtain ⟨s, k, rfl⟩ := finite_of_value? h
  have hk : magnitude k = |v| := Option.some.inj habs
  rw [← hk]
  exact magnitude_le k

end Binary64

/-- The failure is that of rounding an infinity or what is no number. -/
def Unroundable (e : Failure) : Prop := e = .roundingNan ∨ e = .roundingInfinity

theorem unroundable_round (v : Binary64) : FailsOnly Unroundable v.round := by
  cases v with
  | nan => exact .throw (.inl rfl)
  | infinite s => exact .throw (.inr rfl)
  | finite s k => exact .pure _

open Binary64

namespace Radical

/-- The number that a radical is. -/
noncomputable def value (r : Radical) : ℝ := (r.offset + r.coefficient * √r.radicand) / r.divisor

/-! ## A number beyond an offset -/

/-- What a double has beyond an integer that is next to it, and its square. -/
theorem exists_difference {t : Binary64} {T : ℚ} (hT : t.value? = some T) {p : Int} (hp : |p - T| ≤ 31 / 2) :
    ∃ P D S, (ofRat p).value? = some P ∧ Rounds p P ∧ |T - P| ≤ 31 ∧ (t - ofRat p).value? = some D ∧
      Rounds (T - P) D ∧ |D| ≤ 32 ∧ ((t - ofRat p) * (t - ofRat p)).value? = some S ∧ Rounds (D * D) S := by
  have hsmall := inv_unitCount_le
  obtain ⟨P, hP, hround⟩ := value_ofRat_rounds (isFinite_ofRat_near hT (hp.trans (by norm_num)))
  have hgap : |T - P| ≤ 31 := by
    have hnearest := value_ofRat_nearest hP hT
    have htri := abs_sub_le T p P
    rw [abs_sub_comm T p, abs_sub_comm (p : ℚ) P] at htri
    rw [abs_sub_comm T p] at hnearest
    linarith
  obtain ⟨D, hD, hdiff⟩ := value_sub hT hP (le_normalCount (hgap.trans (by norm_num)))
  have hle : |D| ≤ 32 := by
    have htri := abs_sub_abs_le_abs_sub D (T - P)
    have hnear := hdiff.abs_sub_le
    linarith
  have hsquare : |D * D| ≤ 10 ^ 6 := by
    rw [abs_mul]
    nlinarith [abs_nonneg D]
  obtain ⟨S, hS, hnear⟩ := value_mul hD hD (isFinite_mul hD hD (le_normalCount (hsquare.trans (by norm_num))))
  exact ⟨P, D, S, hP, hround, hgap, hD, hdiff, hle, hS, hnear⟩

/-! ## Roots of integers -/

section
variable {f : Elementary} (hf : f.SqrtAccurate)
include hf

theorem sqrt_intCast {k : Int} (hlow : 2 ≤ k) (hhigh : k ≤ 200) :
    ∃ y q, f.sqrt (ofRat k) = .ok y ∧ y.value? = some q ∧ |(q : ℝ) - √(k : ℝ)| ≤ 1 / 10 ^ 12 := by
  have hlow' : (2 : ℚ) ≤ k := by exact_mod_cast hlow
  have hhigh' : (k : ℚ) ≤ 200 := by exact_mod_cast hhigh
  have hnormal : (normalCount : ℚ)⁻¹ ≤ k := by
    have hone : (1 : ℚ) ≤ normalCount := le_normalCount (by norm_num)
    exact (inv_le_one_of_one_le₀ hone).trans (by linarith)
  obtain ⟨K, hK, hnear⟩ := value_ofRat hnormal (le_normalCount (hhigh'.trans (by norm_num)))
  have hK0 : 0 ≤ K := by
    rw [abs_le] at hnear
    linarith
  -- the double for the integer is near it, and its root is near that of the integer
  obtain ⟨y, q, hy, hq, hroot⟩ := hf.near _ K hK hK0
  refine ⟨y, q, hy, hq, ?_⟩
  have hk : (0 : ℝ) ≤ k := by exact_mod_cast (show (0 : Int) ≤ k by omega)
  have hself : √(k : ℝ) * √(k : ℝ) = k := Real.mul_self_sqrt hk
  have hsqrt := Real.sqrt_nonneg (k : ℝ)
  have hexact : |√(K : ℝ) - √(k : ℝ)| ≤ √(k : ℝ) * (1 / 2 ^ 53) := by
    refine Rational.abs_sqrt_sub_le (by exact_mod_cast hK0) hsqrt ?_
    rw [hself, mul_one_div]
    exact_mod_cast hnear
  have hle : √(k : ℝ) ≤ 15 := by
    rw [Real.sqrt_le_left (by norm_num)]
    have : (k : ℝ) ≤ 200 := by exact_mod_cast hhigh
    linarith
  rw [abs_le] at hroot hexact ⊢
  constructor <;> linarith

/-! ## What is found is near -/

omit hf in
theorem coefficient_mul_sqrt {c m : Int} (hc : c ≠ 0) :
    (c : ℝ) * √(m : ℝ) = if 0 < c then √((c ^ 2 * m : Int) : ℝ) else -√((c ^ 2 * m : Int) : ℝ) := by
  have hsplit : √((c ^ 2 * m : Int) : ℝ) = |(c : ℝ)| * √(m : ℝ) := by
    push_cast
    rw [Real.sqrt_mul (sq_nonneg _), Real.sqrt_sq_eq_abs]
  rw [hsplit]
  split
  · rename_i hpos
    rw [abs_of_pos (by exact_mod_cast hpos)]
  · rename_i hneg
    rw [abs_of_neg (by exact_mod_cast lt_of_le_of_ne (not_lt.mp hneg) hc), neg_mul, neg_neg]

/-- The test of the square root: it is near the magnitude of what the double has beyond the offset. -/
theorem Found.sqrt_near {divisor : Nat} {tolerance t : Binary64} {r : Radical} {D W : ℚ}
    (h : Found { elementary := f } divisor tolerance t r) (hD : (t - ofRat r.offset).value? = some D) (hle : |D| ≤ 32)
    (hW : tolerance.value? = some W) (hnonneg : 0 ≤ W) :
    |√((r.coefficient ^ 2 * r.radicand : Int) : ℝ) - (|(D : ℝ)|)| ≤ W + 2 / 10 ^ 12 := by
  have hsmall := inv_unitCount_le
  obtain ⟨y, hy, hlt⟩ := h.root
  obtain ⟨y', q, hy', hq, hroot⟩ := sqrt_intCast hf h.two_le h.le_max
  obtain rfl : y = y' := Except.ok.inj (hy.symm.trans hy')
  have hsqrt : √((r.coefficient ^ 2 * r.radicand : Int) : ℝ) ≤ 15 := by
    rw [Real.sqrt_le_left (by norm_num)]
    have hmax : ((r.coefficient ^ 2 * r.radicand : Int) : ℝ) ≤ 200 := by exact_mod_cast h.le_max
    linarith
  have hsqrt0 := Real.sqrt_nonneg ((r.coefficient ^ 2 * r.radicand : Int) : ℝ)
  have hq0 : |q| ≤ 16 := by
    have hreal : |(q : ℝ)| ≤ 16 := by
      rw [abs_le] at hroot ⊢
      constructor <;> linarith
    exact_mod_cast hreal
  have hrest : |q - (|D|)| ≤ 48 := by
    have htri := abs_sub q |D|
    rw [abs_abs] at htri
    linarith
  -- the test is made on the rounded difference
  obtain ⟨E, hE, hnear⟩ := value_sub hq (value?_abs hD) (le_normalCount (hrest.trans (by norm_num)))
  have hbound := le_of_not_lt_abs hW hE hnonneg hlt
  have hapart : |q - (|D|)| ≤ W + 1 / 10 ^ 12 := by
    have htri := abs_sub_abs_le_abs_sub (q - |D|) E
    rw [abs_sub_comm (q - |D|) E] at htri
    have := hnear.abs_sub_le
    linarith
  rify at hapart
  rw [abs_le] at hapart hroot ⊢
  constructor <;> linarith

theorem Found.near {divisor : Nat} {tolerance t : Binary64} {r : Radical} {T W : ℚ}
    (h : Found { elementary := f } divisor tolerance t r) (hT : t.value? = some T) (hp : |r.offset - T| ≤ 31 / 2)
    (hW : tolerance.value? = some W) (hnonneg : 0 ≤ W) :
    |(T : ℝ) - (r.offset + r.coefficient * √r.radicand)| ≤ W + |(T : ℝ)| / 2 ^ 53 + 1 / 10 ^ 11 := by
  have hsmall := inv_unitCount_le
  obtain ⟨P, D, S, hP, hround, hgap, hD, hdiff, hle, hS, hsquare⟩ := exists_difference hT hp
  have hapart := h.sqrt_near hf hD hle hW hnonneg
  have hoffset : |P - r.offset| ≤ |T| / 2 ^ 53 + 1 / 10 ^ 14 := by
    have htri := abs_sub_abs_le_abs_sub (r.offset : ℚ) T
    have := hround.abs_sub_le
    linarith
  have hbeyond : |D - (T - P)| ≤ 1 / 10 ^ 14 := by
    have := hdiff.abs_sub_le
    linarith
  -- the root is taken with the sign of the rounded difference
  have hsign : 0 < D ↔ 0 < r.coefficient := by
    rw [← isPositive_iff hD, h.sign, decide_eq_true_eq]
  rw [coefficient_mul_sqrt h.coefficient_ne]
  rify at hoffset hbeyond
  rw [abs_le] at hapart hoffset hbeyond ⊢
  split
  · rename_i hpos
    have hD : (0 : ℝ) < D := by exact_mod_cast hsign.mpr hpos
    rw [abs_of_pos hD] at hapart
    constructor <;> linarith
  · rename_i hneg
    have hD : (D : ℝ) ≤ 0 := by exact_mod_cast not_lt.mp (mt hsign.mp hneg)
    rw [abs_of_nonpos hD] at hapart
    constructor <;> linarith

end

/-! ## The multiples of a fraction -/

theorem value?_divisor : ∀ m : Nat, m < 7 → (ofRat (m : ℚ)).value? = some (m : ℚ) := by decide +kernel

theorem value?_tolerance : ∀ d < 6, ∃ W ∈ (({} : Settings).radicalTolerance * ofRat ((d + 1 : Nat) : ℚ)).value?,
    0 ≤ W ∧ W ≤ (d + 1 : Nat) * (100001 / 10 ^ 12) := by
  decide +kernel

theorem span_eq : Nat.sqrt ({} : Settings).maxRadicand.toNat + 1 = 15 := by
  change Nat.sqrt 200 + 1 = 15
  norm_num

theorem abs_offset_sub_le {p : Int} {T : ℚ}
    (h : |p - roundEven T| ≤ (Nat.sqrt ({} : Settings).maxRadicand.toNat + 1 : Nat)) : |p - T| ≤ 31 / 2 := by
  rw [span_eq] at h
  have hint : |(p : ℚ) - roundEven T| ≤ 15 := by exact_mod_cast h
  have hround := abs_roundEven_sub_le T
  have htri := abs_sub_le (p : ℚ) (roundEven T) T
  linarith

/-- The double for a fraction and its multiple. -/
theorem value_multiple {x : ℚ} {v : Binary64} {T : ℚ} {d : Nat} (hd : d < 6) (hv : ofFraction x = .ok v)
    (hT : (v * ofRat ((d + 1 : Nat) : ℚ)).value? = some T) :
    |T - (d + 1 : Nat) * x| ≤ (d + 1 : Nat) * |x| / 2 ^ 51 + 1 / 2 ^ 90 := by
  have hsmall := inv_unitCount_le
  have hfinite : (ofRat x).isFinite = true := by
    by_contra hnot
    rw [ofFraction_of_not_isFinite (Bool.eq_false_iff.mpr hnot)] at hv
    cases hv
  rw [ofFraction_of_isFinite hfinite] at hv
  cases hv
  -- two roundings, that of the fraction and that of the multiple of its double
  obtain ⟨V, hV, hnear⟩ := value_ofRat_rounds hfinite
  obtain ⟨T', hT', hround⟩ := value_mul hV (value?_divisor (d + 1) (by omega)) (isFinite_iff.mpr (finite_of_value? hT))
  obtain rfl : T = T' := Option.some.inj (hT.symm.trans hT')
  have hrel := hround.abs_sub_le
  have hbase := hnear.abs_sub_le
  have hle := abs_sub_abs_le_abs_sub V x
  have hd' : ((d + 1 : Nat) : ℚ) ≤ 6 := by exact_mod_cast hd
  have hpos : (0 : ℚ) < (d + 1 : Nat) := Nat.cast_pos.mpr d.succ_pos
  generalize ((d + 1 : Nat) : ℚ) = m at *
  have hscale : |V * m - m * x| = m * |V - x| := by
    rw [← abs_of_pos hpos, ← abs_mul, abs_of_pos hpos]
    congr 1
    ring
  have hmul : |V * m| = m * |V| := by rw [abs_mul, abs_of_pos hpos, mul_comm]
  have htri := abs_sub_le T (V * m) (m * x)
  rw [hmul] at hrel
  rw [hscale] at htri
  have hV' := mul_le_mul_of_nonneg_left hle hpos.le
  have hbase' := mul_le_mul_of_nonneg_left hbase hpos.le
  have hx := mul_nonneg hpos.le (abs_nonneg x)
  rw [mul_add, mul_div_assoc'] at hbase'
  rw [mul_sub] at hV'
  have hunit : m * (unitCount : ℚ)⁻¹ ≤ 6 / 2 ^ 100 := by
    calc m * (unitCount : ℚ)⁻¹ ≤ 6 * (1 / 2 ^ 100) :=
          mul_le_mul hd' hsmall (inv_nonneg.mpr (Nat.cast_nonneg _)) (by norm_num)
      _ = 6 / 2 ^ 100 := by norm_num
  linarith

/-- A radical with small numbers, but for the offset, that is near a fraction with a large denominator. -/
structure Stands (r : Radical) (x : ℚ) : Prop where
  coefficient_ne : r.coefficient ≠ 0
  radicand_pos : 0 < r.radicand
  square_le : r.coefficient ^ 2 * r.radicand ≤ 200
  not_square : ¬IsSquare (r.coefficient ^ 2 * r.radicand)
  divisor_pos : 1 ≤ r.divisor
  divisor_le : r.divisor ≤ 6
  offset_le : |(r.offset : ℚ)| ≤ unitCount + 16
  den_le : 100 ≤ x.den
  near : |r.value - x| ≤ 101 / 10 ^ 9 + |(x : ℝ)| / 2 ^ 50

/-- A radical is no square, so it is not near zero. -/
theorem Stands.le_abs_value {r : Radical} {x : ℚ} (h : r.Stands x) : 1 / 200 ≤ |r.value| := by
  obtain ⟨s, hs⟩ : ∃ s : ℝ, s = r.coefficient * √(r.radicand : ℝ) := ⟨_, rfl⟩
  have hradicand : (0 : ℝ) ≤ r.radicand := by exact_mod_cast h.radicand_pos.le
  have hsquare : s ^ 2 = (r.coefficient ^ 2 * r.radicand : Int) := by
    rw [hs, mul_pow, Real.sq_sqrt hradicand]
    push_cast
    rfl
  have hle : |s| ≤ 15 := by
    rw [← Real.sqrt_sq_eq_abs, Real.sqrt_le_left (by norm_num), hsquare]
    have : ((r.coefficient ^ 2 * r.radicand : Int) : ℝ) ≤ 200 := by exact_mod_cast h.square_le
    linarith
  -- the product with the conjugate is an integer, and not zero as `s` is irrational
  have hnorm : 1 ≤ |r.offset + s| * |r.offset - s| := by
    have hne : r.offset ^ 2 - r.coefficient ^ 2 * r.radicand ≠ 0 := by
      intro hzero
      exact h.not_square ⟨r.offset, by linarith [sq r.offset]⟩
    have hprod : (r.offset + s) * (r.offset - s) = (r.offset ^ 2 - r.coefficient ^ 2 * r.radicand : Int) := by
      rw [← sq_sub_sq, hsquare]
      push_cast
      rfl
    rw [← abs_mul, hprod]
    exact_mod_cast Int.one_le_abs hne
  have hsum : 1 / 31 ≤ |r.offset + s| := by
    -- only an offset as small as `s` leaves anything to show
    by_cases hsmall : |(r.offset : ℝ)| ≤ 16
    · have hdiff : |r.offset - s| ≤ 31 := (abs_sub _ _).trans (by linarith)
      nlinarith [abs_nonneg (r.offset + s)]
    · have htri := abs_sub_abs_le_abs_sub (r.offset : ℝ) (-s)
      rw [sub_neg_eq_add, abs_neg] at htri
      linarith
  have hone : (1 : ℝ) ≤ r.divisor := by exact_mod_cast h.divisor_pos
  have hsix : (r.divisor : ℝ) ≤ 6 := by exact_mod_cast h.divisor_le
  have hpos : (0 : ℝ) < r.divisor := one_pos.trans_le hone
  rw [value, ← hs, abs_div, abs_of_pos hpos, le_div_iff₀ hpos]
  linarith

theorem Stands.pos_iff {r : Radical} {x : ℚ} (h : r.Stands x) : 0 < r.value ↔ 0 < x := by
  have hfar := h.le_abs_value
  have hnear := h.near
  rw [← Rat.cast_pos (K := ℝ)]
  generalize (x : ℝ) = x at *
  rcases le_or_gt r.value 0 with hv | hv <;> rcases le_or_gt x 0 with hx | hx
  · exact iff_of_false hv.not_gt hx.not_gt
  · rw [abs_of_nonpos hv] at hfar
    rw [abs_of_pos hx, abs_le] at hnear
    linarith
  · rw [abs_of_pos hv] at hfar
    rw [abs_of_nonpos hx, abs_le] at hnear
    linarith
  · exact iff_of_true hv hx

/-- What is near a multiple of a number, divided, is near the number. -/
theorem abs_div_sub_le {a x m e : ℝ} (hm : 0 < m) (h : |a - m * x| ≤ e * m) : |a / m - x| ≤ e := by
  have hquot : a / m - x = (a - m * x) / m := by field_simp
  rwa [hquot, abs_div, abs_of_pos hm, div_le_iff₀ hm]

section
variable {f : Elementary} (hf : f.SqrtAccurate)
include hf

theorem find?_stands {x : ℚ} {r : Radical} (h : find? { elementary := f } x = .ok (some r)) : r.Stands x := by
  obtain ⟨hden, v, d, n, hv, hd, hn, hp, hfound⟩ := find?_eq_some h
  replace hd : d < 6 := hd
  replace hden : (100 : Int) ≤ x.den := hden
  obtain ⟨T, hT, rfl⟩ := value_of_round hn
  obtain ⟨W, hW, hnonneg, hle⟩ := value?_tolerance d hd
  have hoffset := abs_offset_sub_le hp
  have hnear := hfound.near hf hT hoffset hW hnonneg
  have hmultiple := value_multiple hd hv hT
  refine ⟨hfound.coefficient_ne, ?_, hfound.le_max, hfound.not_square, ?_, ?_, ?_, by exact_mod_cast hden, ?_⟩
  · have htwo := hfound.two_le
    have hsq := sq_nonneg r.coefficient
    by_contra hneg
    have := mul_nonpos_of_nonneg_of_nonpos hsq (not_lt.mp hneg)
    omega
  · rw [hfound.divisor_eq]
    omega
  · rw [hfound.divisor_eq]
    omega
  · have hlimit := abs_value_le hT
    have htri := abs_sub_abs_le_abs_sub (r.offset : ℚ) T
    linarith
  · have hdivisor : (r.divisor : ℝ) = d + 1 := by
      rw [hfound.divisor_eq]
      push_cast
      rfl
    have htri := abs_sub_abs_le_abs_sub T ((d + 1 : Nat) * x)
    rw [abs_mul, Nat.abs_cast] at htri
    rify at hle hmultiple htri
    have hpos : (0 : ℝ) < d + 1 := add_pos_of_nonneg_of_pos (Nat.cast_nonneg d) one_pos
    rw [value, hdivisor]
    refine abs_div_sub_le hpos ?_
    have hsum := abs_sub_le (r.offset + r.coefficient * √(r.radicand : ℝ)) T ((d + 1) * x)
    rw [abs_sub_comm _ (T : ℝ)] at hsum
    have hx := mul_nonneg hpos.le (abs_nonneg (x : ℝ))
    linarith

/-! ## The search succeeds -/

/-- The search fails at most by rounding what is no number. -/
theorem unroundable_find? (x : ℚ) : FailsOnly Unroundable (find? { elementary := f } x) := by
  unfold find?
  split
  · exact .pure _
  · generalize (ofFraction x).toOption = o
    cases o with
    | none => exact .pure _
    | some v =>
      refine FailsOnly.findSomeM? fun divisor _ => ?_
      refine (unroundable_round _).bind fun n _ => FailsOnly.findSomeM? fun p _ => ?_
      refine (unroundable_round _).bind fun k _ => ?_
      split
      · exact .pure _
      · rename_i hrange
        simp only [Bool.or_eq_true, decide_eq_true_eq, not_or, not_lt] at hrange
        obtain ⟨y, q, hy, _⟩ := sqrt_intCast hf hrange.1.1 hrange.1.2
        rw [hy, ok_bind]
        split
        · exact .pure _
        · exact .pure _

theorem withOffset?_total {divisor : Nat} {tolerance t : Binary64} {T : ℚ} {p : Int} (hT : t.value? = some T)
    (hp : |p - T| ≤ 31 / 2) : ∃ o, withOffset? { elementary := f } divisor tolerance t p = .ok o := by
  obtain ⟨P, D, S, _, _, _, _, _, _, hS, _⟩ := exists_difference hT hp
  unfold withOffset?
  dsimp only
  rw [round_of_value hS, ok_bind]
  split
  · exact ⟨none, rfl⟩
  · rename_i hrange
    simp only [Bool.or_eq_true, decide_eq_true_eq, not_or, not_lt] at hrange
    obtain ⟨y, q, hy, _⟩ := sqrt_intCast hf hrange.1.1 hrange.1.2
    rw [hy, ok_bind]
    split
    · exact ⟨none, rfl⟩
    · exact ⟨_, rfl⟩

theorem ofDouble?_total {v : Binary64} {V : ℚ} (hV : v.value? = some V)
    (hsix : (v * ofRat (6 : Nat)).isFinite = true) : ∃ o, ofDouble? { elementary := f } v = .ok o := by
  unfold ofDouble?
  rw [if_neg (show ¬(200 : Int) < 0 by decide)]
  refine findSomeM?_total fun divisor hmem => ?_
  obtain ⟨d, hd, rfl⟩ := List.mem_map.mp hmem
  replace hd : d < 6 := List.mem_range.mp hd
  have hdivisor := value?_divisor (d + 1) (by omega)
  have hlast := value?_divisor 6 (by omega)
  have hle : |V * (d + 1 : Nat)| ≤ |V * (6 : Nat)| := by
    rw [abs_mul, abs_mul, Nat.abs_cast, Nat.abs_cast]
    exact mul_le_mul_of_nonneg_left (Nat.cast_le.mpr hd) (abs_nonneg V)
  obtain ⟨T, hT, _⟩ := value_mul hV hdivisor (isFinite_mul_of_le hV hdivisor hV hlast hle hsix)
  unfold withDivisor?
  dsimp only
  rw [round_of_value hT, ok_bind]
  exact findSomeM?_total fun p hp => withOffset?_total hf hT (abs_offset_sub_le (abs_sub_le_of_mem_offsets hp))

/-- The search fails only where six times the fraction is beyond the range of doubles and the fraction
itself is not. -/
theorem find?_total {x : ℚ} (h : (ofRat x).isFinite = false ∨ (ofRat x * ofRat (6 : Nat)).isFinite = true) :
    ∃ o, find? { elementary := f } x = .ok o := by
  cases hfinite : (ofRat x).isFinite with
  | false => exact ⟨none, find?_of_error (ofFraction_of_not_isFinite hfinite)⟩
  | true =>
    have hsix := h.resolve_left (by rw [hfinite]; decide)
    obtain ⟨V, hV, _⟩ := value_ofRat_rounds hfinite
    by_cases hden : (x.den : Int) < ({ elementary := f : Settings }).radicalMinDenominator
    · exact ⟨none, if_pos hden⟩
    · rw [find?_of_ok hden (ofFraction_of_isFinite hfinite)]
      exact ofDouble?_total hf hV hsix

end

end Radical

end Surd
