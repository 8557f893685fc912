import Mathlib
import Surd.Proofs.Display.Printing

/-!
# Fractions next to the end of the range

The search for a radical multiplies the double of a fraction by the divisors and rounds. It fails exactly where one
of these products is infinite (`Overflows`): a fraction of that size is farther from all other doubles than from any
offset, so no radical is found before that. `find?_total_iff`: nothing else makes the search or the exact form of
a number fail, if the number can be written at all.
-/

namespace Surd

namespace Binary64

/-! ## Spacing -/

theorem dvd_unitsOf {rank k : Nat} (h : 2 ^ (54 + k) ≤ unitsOf rank) : 2 ^ k ∣ unitsOf rank := by
  have hle := h.trans (unitsOf_le rank)
  rw [← pow_add, Nat.pow_le_pow_iff_right (by decide)] at hle
  exact Dvd.dvd.mul_left (pow_dvd_pow 2 (by omega)) _

theorem exists_unitCount_eq : ∃ e, unitCount = 2 ^ e := by
  unfold unitCount
  generalize 1074 = e
  exact ⟨e, rfl⟩

/-- A double of a large magnitude is a multiple of a power of two. -/
theorem exists_eq_mul {y : Binary64} {v : ℚ} (hy : y.value? = some v) {k : Nat} (h : 2 ^ (54 + k) ≤ |v|) :
    ∃ n : ℤ, v = n * 2 ^ k := by
  have habs := value?_abs hy
  obtain ⟨s, r, rfl⟩ := finite_of_value? hy
  have hv : magnitude r = |v| := Option.some.inj habs
  have hcount : (0 : ℚ) < unitCount := Nat.cast_pos.mpr unitCount_pos
  have hlarge : 2 ^ (54 + k) * unitCount ≤ unitsOf r := by
    rw [← hv, magnitude_eq, le_div_iff₀ hcount] at h
    exact_mod_cast h
  obtain ⟨e, he⟩ := exists_unitCount_eq
  rw [he, ← pow_add, add_assoc] at hlarge
  obtain ⟨m, hm⟩ := dvd_unitsOf hlarge
  rw [pow_add, ← he] at hm
  have hmagnitude : |v| = (m : ℤ) * 2 ^ k := by
    rw [← hv, magnitude_eq, hm, div_eq_iff hcount.ne']
    push_cast
    ring
  rcases abs_choice v with hpos | hneg
  · exact ⟨m, by rw [← hmagnitude, hpos]⟩
  · exact ⟨-m, by rw [Int.cast_neg, neg_mul, ← hmagnitude, hneg, neg_neg]⟩

/-- Two doubles of a large magnitude that are near each other have the same value. -/
theorem value_eq_of_near {x y : Binary64} {a b : ℚ} (hx : x.value? = some a) (hy : y.value? = some b)
    (ha : 10 ^ 19 ≤ |a|) (h : |a - b| ≤ 31) : a = b := by
  have hb : 2 ^ (54 + 5) ≤ |b| := by
    have htri := abs_sub_abs_le_abs_sub a b
    norm_num at ha ⊢
    linarith
  obtain ⟨m, hm⟩ := exists_eq_mul hx (k := 5) (le_trans (by norm_num) ha)
  obtain ⟨n, hn⟩ := exists_eq_mul hy (k := 5) hb
  have hdiff : a - b = ((m - n) * 32 : ℤ) := by
    rw [hm, hn]
    push_cast
    ring
  rw [hdiff, ← Int.cast_abs] at h
  have hint : |(m - n) * 32| ≤ 31 := by exact_mod_cast h
  rw [abs_le] at hint
  rw [hm, hn, show m = n by omega]

/-! ## Infinite products -/

theorem round_mul_of_not_isFinite {x y : Binary64} {a b : ℚ} (hx : x.value? = some a) (hy : y.value? = some b)
    (h : (x * y).isFinite = false) : (x * y).round = .error .roundingInfinity := by
  obtain ⟨negative, hmul, _⟩ := mul_eq hx hy
  have hrank : ofMagnitude negative |a * b| = ofRank negative (rankOf |a * b|) := rfl
  rw [hmul, hrank] at h ⊢
  by_cases hlt : rankOf |a * b| < finiteCount
  · rw [ofRank_eq hlt] at h
    cases h
  · rw [ofRank, dif_neg hlt]
    rfl

theorem ofRat_abs (x : ℚ) : ofRat |x| = (ofRat x).abs := by
  have hrank : rankOf |x| = rankOf x :=
    le_antisymm (rankOf_mono (abs_abs x).le) (rankOf_mono (abs_abs x).ge)
  have hnum : ¬(|x|).num < 0 := (Rat.num_nonneg.mpr (abs_nonneg x)).not_gt
  rw [ofRat_eq, ofRat_eq, abs_ofRank, hrank, decide_eq_false hnum]

theorem isFinite_ofRank (negative : Bool) (rank : Nat) :
    (ofRank negative rank).isFinite = decide (rank < finiteCount) := by
  by_cases h : rank < finiteCount
  · rw [ofRank_eq h, decide_eq_true h]
    rfl
  · rw [ofRank, dif_neg h, decide_eq_false h]
    rfl

theorem isFinite_abs (x : Binary64) : x.abs.isFinite = x.isFinite := by
  cases x <;> rfl

theorem isFinite_abs_mul (x y : Binary64) : (x.abs * y).isFinite = (x * y).isFinite := by
  have hzero : ∀ (z : Binary64) (s : Bool), (if z.isZero then nan else infinite s).isFinite = false := by
    intro z s
    split <;> rfl
  cases x with
  | nan => rfl
  | infinite s =>
    cases y with
    | nan => rfl
    | infinite t => rfl
    | finite t j => exact (hzero (.finite t j) _).trans (hzero (.finite t j) _).symm
  | finite s i =>
    cases y with
    | nan => rfl
    | infinite t => exact (hzero (.finite false i) _).trans (hzero (.finite s i) _).symm
    | finite t j => exact (isFinite_ofRank _ _).trans (isFinite_ofRank _ _).symm

end Binary64

open Binary64

namespace Radical

/-- A fraction whose denominator is large enough for a radical, which has a double, and six times that double is
infinite. Six is the largest divisor. -/
def Overflows (x : ℚ) : Prop :=
  100 ≤ x.den ∧ (ofRat x).isFinite = true ∧ (ofRat x * ofRat (6 : Nat)).isFinite = false

instance : DecidablePred Overflows := fun x =>
  inferInstanceAs (Decidable (100 ≤ x.den ∧ _ = true ∧ _ = false))

theorem overflows_abs (x : ℚ) : Overflows |x| ↔ Overflows x := by
  have hproduct : (ofRat |x| * ofRat (6 : Nat)).isFinite = (ofRat x * ofRat (6 : Nat)).isFinite := by
    rw [ofRat_abs, isFinite_abs_mul]
  rw [Overflows, Overflows, Rat.den_abs_eq_den, hproduct, ofRat_abs, isFinite_abs]

theorem not_overflows_of_den {x : ℚ} (h : x.den < 100) : ¬Overflows x := fun hx => by
  have := hx.1
  omega

section
variable {f : Elementary}

/-! ## No radical for large numbers -/

/-- What a large double has beyond an offset that is next to it rounds to zero. -/
theorem withOffset?_of_large {divisor : Nat} {tolerance t : Binary64} {T : ℚ} {p : Int} (hT : t.value? = some T)
    (hlarge : 10 ^ 19 ≤ |T|) (hp : |p - T| ≤ 31 / 2) :
    withOffset? { elementary := f } divisor tolerance t p = .ok none := by
  have hsmall := inv_unitCount_le
  obtain ⟨P, D, S, hP, _, hgap, _, hdiff, _, hS, hsquare⟩ := exists_difference hT hp
  obtain rfl := value_eq_of_near hT hP hlarge hgap
  have hD : |D| ≤ 1 / 2 ^ 100 := by
    have hnear := hdiff.abs_sub_le
    rw [sub_self, sub_zero, abs_zero, zero_div, zero_add] at hnear
    exact hnear.trans hsmall
  have hprod : |D * D| ≤ 1 / 4 := by
    rw [abs_mul]
    nlinarith [abs_nonneg D]
  have hS' : |S| < 1 / 2 := by
    have hnear := hsquare.abs_sub_le
    have htri := abs_sub_abs_le_abs_sub S (D * D)
    linarith
  have hround : |((roundEven S : ℤ) : ℚ)| < 1 := by
    have hnear := abs_roundEven_sub_le S
    have htri := abs_sub_abs_le_abs_sub ((roundEven S : ℤ) : ℚ) S
    linarith
  have hzero : roundEven S = 0 := Int.abs_lt_one_iff.mp (by exact_mod_cast hround)
  unfold withOffset?
  dsimp only
  rw [round_of_value hS, ok_bind, hzero]
  rfl

theorem withDivisor?_of_large {v : Binary64} {T : ℚ} {divisor : Nat} (hT : (v * ofRat divisor).value? = some T)
    (hlarge : 10 ^ 19 ≤ |T|) : withDivisor? { elementary := f } v divisor = .ok none := by
  unfold withDivisor?
  dsimp only
  rw [round_of_value hT, ok_bind]
  exact findSomeM?_eq_none fun p hp =>
    withOffset?_of_large hT hlarge (abs_offset_sub_le (abs_sub_le_of_mem_offsets hp))

/-! ## Where the search fails -/

/-- A double that overflows six times is large. -/
theorem large_of_not_isFinite {v : Binary64} {V : ℚ} (hV : v.value? = some V)
    (h : (v * ofRat (6 : Nat)).isFinite = false) : 10 ^ 30 ≤ |V| := by
  by_contra hsmall
  have hlast := value?_divisor 6 (by decide)
  have hle : |V * (6 : Nat)| ≤ normalCount := by
    refine le_normalCount ?_
    rw [abs_mul, Nat.abs_cast]
    push_cast
    linarith
  rw [isFinite_mul hV hlast hle] at h
  cases h

/-- Each divisor finds nothing, or its product is rounded although it is infinite. -/
theorem withDivisor?_of_huge {v : Binary64} {V : ℚ} (hV : v.value? = some V) (hlarge : 10 ^ 30 ≤ |V|) {d : Nat}
    (hd : d < 6) :
    withDivisor? { elementary := f } v (d + 1) =
      if (v * ofRat ((d + 1 : Nat) : ℚ)).isFinite then .ok none else .error .roundingInfinity := by
  have hsmall := inv_unitCount_le
  have hdivisor := value?_divisor (d + 1) (by omega)
  cases hfinite : (v * ofRat ((d + 1 : Nat) : ℚ)).isFinite with
  | true =>
    obtain ⟨T, hT, hround⟩ := value_mul hV hdivisor hfinite
    refine withDivisor?_of_large hT ?_
    have hnear := hround.abs_sub_le
    have htri := abs_sub_abs_le_abs_sub (V * (d + 1 : Nat)) T
    have hprod : |V| ≤ |V * (d + 1 : Nat)| := by
      rw [abs_mul, Nat.abs_cast]
      exact le_mul_of_one_le_right (abs_nonneg V) (by exact_mod_cast Nat.le_add_left 1 d)
    rw [abs_sub_comm] at htri
    linarith
  | false =>
    unfold withDivisor?
    dsimp only
    rw [round_mul_of_not_isFinite hV hdivisor hfinite]
    rfl

theorem ofDouble?_of_large {v : Binary64} {V : ℚ} (hV : v.value? = some V)
    (hsix : (v * ofRat (6 : Nat)).isFinite = false) :
    ofDouble? { elementary := f } v = .error .roundingInfinity := by
  have hlarge := large_of_not_isFinite hV hsix
  unfold ofDouble?
  rw [if_neg (show ¬(200 : Int) < 0 by decide)]
  refine findSomeM?_eq_error ?_ ?_
  · intro divisor hmem
    obtain ⟨d, hd, rfl⟩ := List.mem_map.mp hmem
    rw [withDivisor?_of_huge hV hlarge (List.mem_range.mp hd)]
    split
    · exact .inl rfl
    · exact .inr rfl
  · refine ⟨6, List.mem_map.mpr ⟨5, List.mem_range.mpr (show 5 < 6 by decide), rfl⟩, ?_⟩
    rw [withDivisor?_of_huge hV hlarge (by decide), hsix]
    rfl

theorem find?_of_overflows {x : ℚ} (h : Overflows x) : find? { elementary := f } x = .error .roundingInfinity := by
  obtain ⟨hden, hfinite, hsix⟩ := h
  obtain ⟨V, hV, _⟩ := value_ofRat_rounds hfinite
  have hden' : ¬(x.den : Int) < ({ elementary := f : Settings }).radicalMinDenominator :=
    not_lt.mpr (show (100 : Int) ≤ x.den by exact_mod_cast hden)
  rw [find?_of_ok hden' (ofFraction_of_isFinite hfinite)]
  exact ofDouble?_of_large hV hsix

theorem find?_of_not_overflows (hf : f.SqrtAccurate) {x : ℚ} (h : ¬Overflows x) :
    ∃ o, find? { elementary := f } x = .ok o := by
  by_cases hden : x.den < 100
  · exact ⟨none, if_pos (show (x.den : Int) < 100 by exact_mod_cast hden)⟩
  · refine find?_total hf ?_
    by_contra hnot
    rw [not_or, Bool.not_eq_false, Bool.not_eq_true] at hnot
    exact h ⟨not_lt.mp hden, hnot⟩

end

end Radical

/-! ## Exact forms -/

namespace Display

section
variable {f : Elementary} {x : ℚ}

theorem rational_of_overflows (h : Radical.Overflows x) (style : Style) :
    rational { elementary := f } style x = .error .roundingInfinity := by
  have hden : x.den ≠ 1 := by
    have := h.1
    omega
  rw [rational, if_neg hden, Radical.find?_of_overflows h]
  rfl

theorem imaginary_of_overflows (h : Radical.Overflows x) (style : Style) :
    imaginary { elementary := f } style x = .error .roundingInfinity := by
  have hone : x ≠ 1 := by
    rintro rfl
    exact Radical.not_overflows_of_den (by decide) h
  have hminus : x ≠ -1 := by
    rintro rfl
    exact Radical.not_overflows_of_den (by decide) h
  rw [imaginary, if_neg hone, if_neg hminus, Radical.find?_of_overflows h]
  rfl

variable (hf : f.SqrtAccurate) (hx : Rational.Writable x) (h : ¬Radical.Overflows x)
include hf hx h

theorem rational_of_not_overflows (style : Style) : ∃ s, rational { elementary := f } style x = .ok s := by
  unfold rational
  by_cases hden : x.den = 1
  · rw [if_pos hden]
    exact ⟨_, writeInt_of_writable hx.1⟩
  · obtain ⟨o, ho⟩ := Radical.find?_of_not_overflows hf h
    rw [if_neg hden, ho, ok_bind]
    cases o with
    | none => exact exists_fraction hx style
    | some r => exact exists_radical (Radical.find?_stands hf ho) style

theorem imaginary_of_not_overflows (style : Style) : ∃ s, imaginary { elementary := f } style x = .ok s := by
  unfold imaginary
  split
  · exact ⟨_, rfl⟩
  · split
    · exact ⟨_, rfl⟩
    · obtain ⟨o, ho⟩ := Radical.find?_of_not_overflows hf h
      rw [ho, ok_bind]
      cases o with
      | none =>
        obtain ⟨s, hs⟩ := exists_fraction hx style
        dsimp only
        rw [hs]
        exact ⟨_, rfl⟩
      | some r =>
        obtain ⟨s, hs⟩ := exists_radical (Radical.find?_stands hf ho) style
        dsimp only
        rw [hs]
        exact ⟨_, rfl⟩

end

section
variable {f : Elementary} (hf : f.SqrtAccurate) {z : Gaussian} (hre : Rational.Writable z.re)
  (him : Rational.Writable z.im)
include hf hre

theorem exact_of_overflows (h : Radical.Overflows z.re ∨ Radical.Overflows z.im) (style : Style) :
    exact { elementary := f } style z = .error .roundingInfinity := by
  have hzero : ∀ {x : ℚ}, Radical.Overflows x → x ≠ 0 := by
    rintro _ hx rfl
    exact Radical.not_overflows_of_den (by decide) hx
  unfold exact
  by_cases hi : z.im = 0
  · rw [if_pos hi]
    exact rational_of_overflows (h.resolve_right fun him => hzero him hi) style
  · rw [if_neg hi]
    by_cases hr : z.re = 0
    · rw [if_pos hr]
      exact imaginary_of_overflows (h.resolve_left fun hre => hzero hre hr) style
    · rw [if_neg hr]
      by_cases hreal : Radical.Overflows z.re
      · rw [rational_of_overflows hreal]
        rfl
      · obtain ⟨s, hs⟩ := rational_of_not_overflows hf hre hreal style
        have himag : Radical.Overflows z.im.abs := by
          rw [Surd.abs_eq, Radical.overflows_abs]
          exact h.resolve_left hreal
        rw [hs, ok_bind, imaginary_of_overflows himag]
        rfl

include him

theorem exact_of_not_overflows (hr : ¬Radical.Overflows z.re) (hi : ¬Radical.Overflows z.im) (style : Style) :
    ∃ s, exact { elementary := f } style z = .ok s := by
  have hiabs : ¬Radical.Overflows z.im.abs := by rwa [Surd.abs_eq, Radical.overflows_abs]
  obtain ⟨s, hs⟩ := rational_of_not_overflows hf hre hr style
  obtain ⟨t, ht⟩ := imaginary_of_not_overflows hf (Rational.writable_abs.mpr him) hiabs style
  unfold exact
  rw [hs, ok_bind, ht]
  split
  · exact ⟨s, rfl⟩
  · split
    · exact imaginary_of_not_overflows hf him hi style
    · exact ⟨_, rfl⟩

end

end Display

/-- The search for a radical and the exact form of a number that can be written fail exactly for fractions that
overflow, by rounding an infinity. -/
theorem Radical.find?_total_iff {f : Elementary} (hf : f.SqrtAccurate) (x : ℚ) :
    (if Overflows x then find? { elementary := f } x = .error .roundingInfinity
      else ∃ o, find? { elementary := f } x = .ok o) ∧
    ∀ (y : ℚ) (style : Style), Rational.Writable x → Rational.Writable y →
      if Overflows x ∨ Overflows y then Display.exact { elementary := f } style ⟨x, y⟩ = .error .roundingInfinity
      else ∃ s, Display.exact { elementary := f } style ⟨x, y⟩ = .ok s := by
  refine ⟨?_, fun y style hx hy => ?_⟩
  · by_cases h : Overflows x
    · rw [if_pos h]
      exact find?_of_overflows h
    · rw [if_neg h]
      exact find?_of_not_overflows hf h
  · by_cases h : Overflows x ∨ Overflows y
    · rw [if_pos h]
      exact Display.exact_of_overflows (z := ⟨x, y⟩) hf hx h style
    · rw [if_neg h]
      rw [not_or] at h
      exact Display.exact_of_not_overflows (z := ⟨x, y⟩) hf hx hy h.1 h.2 style

/-- It has a double, and twice that is infinite. -/
def Radical.nearLimit : ℚ := 10 ^ 308 + 1 / 101

/-- A convergent of `√2`, and a fraction next to the end of the range. -/
theorem Radical.find?_nearLimit_fails :
    Elementary.native.SqrtAccurate ∧ (∃ o, find? {} (8119 / 5741) = .ok o) ∧
      (∃ s, Display.exact {} .ascii ⟨8119 / 5741, 1 / 3⟩ = .ok s) ∧
      find? {} nearLimit = .error .roundingInfinity ∧
      Display.exact {} .ascii ⟨1 / 3, nearLimit⟩ = .error .roundingInfinity := by
  have hf := Elementary.native_sqrtAccurate
  have hconvergent : ¬Overflows (8119 / 5741) := by decide +kernel
  have hthird : ¬Overflows (1 / 3) := by decide +kernel
  have hlimit : Overflows nearLimit := by decide +kernel
  have hwritable : Rational.Writable (8119 / 5741) ∧ Rational.Writable (1 / 3) ∧ Rational.Writable nearLimit := by
    unfold Rational.Writable Writable
    decide +kernel
  have hfound := Radical.find?_total_iff hf (8119 / 5741)
  have hlost := Radical.find?_total_iff hf nearLimit
  have hthirds := Radical.find?_total_iff hf (1 / 3)
  have hshown := hfound.2 (1 / 3) .ascii hwritable.1 hwritable.2.1
  have hhidden := hthirds.2 nearLimit .ascii hwritable.2.1 hwritable.2.2
  rw [if_neg (not_or.mpr ⟨hconvergent, hthird⟩)] at hshown
  rw [if_pos (.inr hlimit)] at hhidden
  refine ⟨hf, ?_, hshown, ?_, hhidden⟩
  · have h := hfound.1
    rwa [if_neg hconvergent] at h
  · have h := hlost.1
    rwa [if_pos hlimit] at h

/-- The fraction is neither beyond the range of doubles nor without an answer. -/
theorem Radical.find?_nearLimit : find? {} nearLimit = .error .roundingInfinity := by
  decide +kernel

end Surd
