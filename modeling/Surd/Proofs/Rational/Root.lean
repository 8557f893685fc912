import Mathlib
import Surd.Rational.Functions
import Surd.Proofs.Binary64.Conversion
import Surd.Proofs.Computation
import Surd.Proofs.Rational.Newton

/-!
# Exact roots

A reduced fraction has an `n`-th root exactly if numerator and denominator have one and its sign allows
it, and then the root is found: `rootExact_decides`.
-/

namespace Surd

namespace Rational

/-! ## Perfect powers -/

/-- A root whose order allows two signs is the one that is not negative. -/
structure IsRoot (n : Nat) (x r : ℚ) : Prop where
  pow_eq : r ^ n = x
  sign_eq : Odd n → SignType.sign r = SignType.sign x
  nonneg : Even n → 0 ≤ r

/-- A power has the numerator and the denominator of a power, and the sign of one. -/
theorem powers_of_root {n : Nat} {x r : ℚ} (h : r ^ n = x) :
    (∃ m, m ^ n = x.num.natAbs) ∧ (∃ m, m ^ n = x.den) ∧ (x < 0 → Odd n) := by
  subst h
  refine ⟨⟨r.num.natAbs, ?_⟩, ⟨r.den, ?_⟩, fun hneg => ?_⟩
  · rw [Rat.num_pow, Int.natAbs_pow]
  · rw [Rat.den_pow]
  · rw [← Nat.not_even_iff_odd]
    intro heven
    exact (heven.pow_nonneg r).not_gt hneg

section
variable {n : Nat} {x : ℚ} (hnum : integerRoot x.num.natAbs n ^ n = x.num.natAbs)
  (hden : integerRoot x.den n ^ n = x.den)
include hnum hden

theorem magnitude_pow : (mkRat (integerRoot x.num.natAbs n) (integerRoot x.den n)) ^ n = |x| := by
  rw [Rat.mkRat_eq_div, div_pow, Int.cast_natCast, ← Nat.cast_pow, ← Nat.cast_pow, hnum, hden, Binary64.abs_eq_div]

theorem isRoot_exactRoot (hsign : x < 0 → Odd n) : IsRoot n x (exactRoot x n) := by
  have hmagnitude := magnitude_pow hnum hden
  have hnonneg : 0 ≤ mkRat (integerRoot x.num.natAbs n) (integerRoot x.den n) := by
    rw [Rat.mkRat_eq_div]
    positivity
  have hpow : exactRoot x n ^ n = x := by
    unfold exactRoot
    dsimp only
    split
    · rename_i hneg
      rw [(hsign hneg).neg_pow, hmagnitude, abs_of_neg hneg, neg_neg]
    · rename_i hpos
      rw [hmagnitude, abs_of_nonneg (not_lt.mp hpos)]
  refine ⟨hpow, fun hodd => ?_, fun heven => ?_⟩
  · rw [← hpow, sign_pow, SignType.pow_odd _ hodd, hpow]
  · have hpos : ¬x < 0 := fun hneg => Nat.not_even_iff_odd.mpr (hsign hneg) heven
    unfold exactRoot
    dsimp only
    rwa [if_neg hpos]

end

theorem isPerfectPower_eq (x : ℚ) {n : Nat} (hn : n ≠ 0) :
    isPerfectPower x n = .ok (decide ((x < 0 → Odd n) ∧ integerRoot x.num.natAbs n ^ n = x.num.natAbs ∧
      integerRoot x.den n ^ n = x.den)) := by
  have horder : ¬(n : ℤ) < 1 := by omega
  unfold isPerfectPower
  rw [if_neg horder]
  dsimp only
  rw [Int.natAbs_natCast]
  by_cases hneg : x < 0 ∧ n % 2 = 0
  · have hsign : ¬(x < 0 → Odd n) := fun h => Nat.not_even_iff_odd.mpr (h hneg.1) (Nat.even_iff.mpr hneg.2)
    rw [if_pos hneg, decide_eq_false fun h => hsign h.1]
    rfl
  · have hsign : x < 0 → Odd n := fun h => Nat.odd_iff.mpr (Nat.mod_two_ne_zero.mp fun heven => hneg ⟨h, heven⟩)
    rw [if_neg hneg]
    exact congrArg Except.ok (decide_eq_decide.mpr ⟨fun h => ⟨hsign, h⟩, And.right⟩)

theorem isPerfectPower_eq_ok_iff (x : ℚ) {n : Nat} (hn : n ≠ 0) (b : Bool) :
    isPerfectPower x n = .ok b ↔ (b = true ↔ ∃ r : ℚ, r ^ n = x) := by
  have hroots : ((x < 0 → Odd n) ∧ integerRoot x.num.natAbs n ^ n = x.num.natAbs ∧ integerRoot x.den n ^ n = x.den) ↔
      ∃ r : ℚ, r ^ n = x := by
    constructor
    · intro h
      obtain ⟨hsign, hnum, hden⟩ := h
      exact ⟨_, (isRoot_exactRoot hnum hden hsign).pow_eq⟩
    · intro h
      obtain ⟨r, hr⟩ := h
      obtain ⟨hnum, hden, hsign⟩ := powers_of_root hr
      exact ⟨hsign, (integerRoot_pow_iff hn _).mpr hnum, (integerRoot_pow_iff hn _).mpr hden⟩
  rw [isPerfectPower_eq x hn, Except.ok.injEq, Bool.eq_iff_iff, decide_eq_true_iff, hroots]
  exact Iff.comm

theorem isPerfectSquare_eq_ok_iff (x : ℚ) (b : Bool) :
    isPerfectSquare x = .ok b ↔ (b = true ↔ ∃ r : ℚ, r ^ 2 = x) := by
  unfold isPerfectSquare
  split
  · rename_i hneg
    have hnone : ¬∃ r : ℚ, r ^ 2 = x := by
      rintro ⟨r, rfl⟩
      exact (sq_nonneg r).not_gt hneg
    change Except.ok false = Except.ok b ↔ _
    rw [Except.ok.injEq, Bool.eq_iff_iff, iff_false_left Bool.false_ne_true, iff_false_right hnone]
  · exact isPerfectPower_eq_ok_iff x two_ne_zero b

/-! ## Exact roots and approximate ones -/

/-- A test and a root that tell the `n`-th powers from other numbers, and find the roots of powers. -/
structure Decides (n : Nat) (x : ℚ) (test : Except Failure Bool) (root : Except Failure (Bool × ℚ)) : Prop where
  test_iff : ∀ b, test = .ok b ↔ (b = true ↔ ∃ r : ℚ, r ^ n = x)
  found : (∃ r : ℚ, r ^ n = x) → ∃ r, root = .ok (true, r) ∧ IsRoot n x r
  missing : (¬∃ r : ℚ, r ^ n = x) → ∀ exact r, root = .ok (exact, r) → exact = false

theorem decides_of_test {n : Nat} (hn : n ≠ 0) {x : ℚ} {test : Except Failure Bool}
    (htest : ∀ b, test = .ok b ↔ (b = true ↔ ∃ r : ℚ, r ^ n = x)) (approximation : Except Failure ℚ) :
    Decides n x test (do
      if ← test then pure (true, exactRoot x n)
      else
        let y ← approximation
        pure (false, y)) where
  test_iff := htest
  found h := by
    obtain ⟨r, hr⟩ := h
    obtain ⟨hnum, hden, hsign⟩ := powers_of_root hr
    refine ⟨exactRoot x n, ?_, isRoot_exactRoot ((integerRoot_pow_iff hn _).mpr hnum)
      ((integerRoot_pow_iff hn _).mpr hden) hsign⟩
    rw [(htest true).mpr (iff_of_true rfl ⟨r, hr⟩)]
    rfl
  missing h exact r hroot := by
    rw [(htest false).mpr (iff_of_false Bool.false_ne_true h), ok_bind, if_neg Bool.false_ne_true] at hroot
    obtain ⟨y, _, hy⟩ := bind_ok_iff.mp hroot
    cases hy
    rfl

/-- Perfect powers are recognised and their roots found, and no other root counts as exact. -/
theorem rootExact_decides (cfg : Settings) (x : ℚ) {n : Nat} (hn : 1 ≤ n) :
    Decides n x (isPerfectPower x n) (rootExact cfg x n) ∧ Decides 2 x (isPerfectSquare x) (sqrtExact cfg x) := by
  have hne : n ≠ 0 := Nat.ne_of_gt hn
  constructor
  · have hdecides := decides_of_test hne (isPerfectPower_eq_ok_iff x hne) (through cfg (doubleRoot cfg n) x)
    unfold rootExact
    rwa [Int.natAbs_natCast]
  · exact decides_of_test two_ne_zero (isPerfectSquare_eq_ok_iff x) (sqrt cfg x)

/-- A negative cube. -/
theorem rootExact_decides_cube :
    1 ≤ 3 ∧ isPerfectPower (-8 / 27) 3 = .ok true ∧ rootExact {} (-8 / 27) 3 = .ok (true, -2 / 3) ∧
      isPerfectSquare (-8 / 27) = .ok false := by
  have hdecides := rootExact_decides {} (-8 / 27) (n := 3) (by decide)
  have hpower : ∃ r : ℚ, r ^ 3 = -8 / 27 := ⟨-2 / 3, by norm_num⟩
  obtain ⟨r, hr, hroot⟩ := hdecides.1.found hpower
  have hvalue : r = -2 / 3 := by
    have hodd : Odd 3 := by decide
    exact hodd.strictMono_pow.injective (hroot.pow_eq.trans (by norm_num))
  have hsquare : ¬∃ r : ℚ, r ^ 2 = -8 / 27 := by
    rintro ⟨r, hr⟩
    have hnonneg := sq_nonneg r
    rw [hr] at hnonneg
    norm_num at hnonneg
  subst hvalue
  exact ⟨by decide, (hdecides.1.test_iff true).mpr (iff_of_true rfl hpower), hr,
    (hdecides.2.test_iff false).mpr (iff_of_false Bool.false_ne_true hsquare)⟩

end Rational

end Surd
