import Mathlib
import Surd.Expr.Read
import Surd.Proofs.Computation
import Surd.Proofs.Gaussian.Size
import Surd.Proofs.Text.Writing

/-!
# Integer powers within the limits

An integer power is rejected before it is computed where its exponent times the size of its base, less
one bit, is above the limit. For a fraction, a multiple of the imaginary unit or a complex integer, the
power itself is then too large. For other bases it need not be: their powers may cancel.
-/

namespace Surd

/-- A limit from the environment can be written, as can every integer that is read. -/
theorem Settings.writable_maxExponent {environment : List (String × String)} {cfg : Settings}
    (h : ofEnvironment environment = .ok cfg) : Writable cfg.maxExponent := by
  have hentry : ∀ name n, entry environment name ({} : Settings).maxExponent Text.readInt = .ok n → Writable n := by
    intro name n hn
    unfold entry at hn
    split at hn
    · cases hn
      unfold Writable
      decide +kernel
    · exact Text.writable_of_readInt hn
  unfold ofEnvironment at h
  simp only [bind_ok_iff] at h
  obtain ⟨_, -, _, -, _, -, _, -, _, -, _, -, _, -, _, -, _, -, maxExponent, hmax, h⟩ := h
  obtain ⟨_, -, _, -, _, -, _, -, _, -, _, -, h⟩ := h
  cases h
  exact hentry _ _ hmax

/-! ## Powers -/

section
variable {cfg : Settings} (hlimit : Writable cfg.maxExponent) {z : Gaussian} {n : Int}

theorem power_intCast (z : Gaussian) (n : Int) : Surd.power cfg z n = integerPower cfg z n := by
  have hhalf : (n : Gaussian) ≠ ⟨1/2, 0⟩ := by
    intro h
    have hden := congrArg Rat.den (congrArg Gaussian.re h)
    change (n : Rat).den = (1/2 : Rat).den at hden
    norm_num at hden
  have hinteger : ((n : Gaussian).isReal && (n : Gaussian).re.den == 1) = true := by
    have hreal : (n : Gaussian).isReal = true := rfl
    have hden : (n : Gaussian).re.den = 1 := Rat.den_intCast n
    rw [hreal, hden]
    rfl
  rw [Surd.power, if_neg hhalf, if_pos hinteger]
  rfl

/-- The power is too large, or it is thought to be. -/
def IsRejected (cfg : Settings) (z : Gaussian) (n : Int) : Prop :=
  cfg.maxBits < (z ^ n).size ∨ cfg.maxBits < (n.natAbs : Int) * ((z.size : Int) - 1)

include hlimit in
theorem writeInt_of_le (hn : (n.natAbs : Int) ≤ cfg.maxExponent) : ∃ s, Text.writeInt n = .ok s := by
  refine (writesIf_writeInt n).exists_ok ?_
  unfold Writable at *
  omega

include hlimit in
theorem integerPower_of_isRejected (hn : (n.natAbs : Int) ≤ cfg.maxExponent) (hz : n < 0 → z ≠ 0)
    (h : IsRejected cfg z n) : ∃ e, integerPower cfg z n = .error e ∧ e.kind = .evaluation := by
  rw [integerPower, if_neg (not_lt.mpr hn)]
  split
  · obtain ⟨s, hs⟩ := writeInt_of_le hlimit hn
    rw [hs]
    exact ⟨_, rfl, rfl⟩
  · rename_i hbits
    have hsize : cfg.maxBits < (z ^ n).size := h.resolve_right hbits
    rw [Gaussian.pow_eq hz, ok_bind, checked, if_pos hsize]
    exact ⟨_, rfl, rfl⟩

theorem integerPower_of_not_isRejected (hn : (n.natAbs : Int) ≤ cfg.maxExponent) (hz : n < 0 → z ≠ 0)
    (h : ¬IsRejected cfg z n) : integerPower cfg z n = .ok (z ^ n) := by
  obtain ⟨hsize, hbits⟩ := not_or.mp h
  rw [integerPower, if_neg (not_lt.mpr hn), if_neg hbits, Gaussian.pow_eq hz, ok_bind, checked, if_neg hsize]
  rfl

/-- An integer power fails with a failure to evaluate where it is too large or thought to be, and is the
exact power otherwise. What is thought to be too large is so for a fraction, a multiple of the imaginary
unit and a complex integer. -/
theorem power_limits {environment : List (String × String)} (hcfg : Settings.ofEnvironment environment = .ok cfg)
    (hn : (n.natAbs : Int) ≤ cfg.maxExponent) (hz : n < 0 → z ≠ 0) :
    ((∃ e, Surd.power cfg z n = .error e ∧ e.kind = .evaluation) ↔ IsRejected cfg z n) ∧
      (¬IsRejected cfg z n → Surd.power cfg z n = .ok (z ^ n)) ∧
      (z.IsPlain → (n.natAbs : Int) * ((z.size : Int) - 1) ≤ (z ^ n).size) := by
  have hlimit := Settings.writable_maxExponent hcfg
  rw [power_intCast]
  refine ⟨⟨?_, integerPower_of_isRejected hlimit hn hz⟩, integerPower_of_not_isRejected hn hz, ?_⟩
  · intro h
    obtain ⟨e, he, _⟩ := h
    by_contra hnot
    rw [integerPower_of_not_isRejected hn hz hnot] at he
    cases he
  · intro hplain
    have hle := hplain.le_size_zpow n
    have hpos : 1 ≤ z.size := le_max_of_le_left (Rational.size_pos z.re)
    rw [← Nat.cast_one, ← Nat.cast_sub hpos]
    exact_mod_cast hle

end

theorem power_limits_thirds :
    ¬IsRejected {} ⟨1/2, 1/3⟩ (-3) ∧ Surd.power {} ⟨1/2, 1/3⟩ (-3 : Int) = .ok (⟨1/2, 1/3⟩ ^ (-3 : Int)) := by
  have hcfg : Settings.ofEnvironment [] = .ok {} := rfl
  have hne : (⟨1/2, 1/3⟩ : Gaussian) ≠ 0 := by decide +kernel
  have hfits : ¬IsRejected {} ⟨1/2, 1/3⟩ (-3) := by
    unfold IsRejected
    decide +kernel
  exact ⟨hfits, (power_limits hcfg (by decide) fun _ => hne).2.1 hfits⟩

/-- Each two factors of `(i - 1) / 4` cancel a bit of the denominators. The power has 13501 bits, and is
taken for one of more than 14000. -/
theorem power_cancels :
    (⟨-1/4, 1/4⟩ : Gaussian) ^ (9000 : Int) = .ofRat (1 / 2 ^ 13500) ∧
      ((⟨-1/4, 1/4⟩ : Gaussian) ^ (9000 : Int)).size = 13501 ∧
      Surd.evaluate {} "((i-1)/4)^9000".toList = .error (.powerTooLarge "9000" 14000) := by
  have hpower : (⟨-1/4, 1/4⟩ : Gaussian) ^ (9000 : Int) = .ofRat (1 / 2 ^ 13500) := by
    rw [zpow_ofNat, ← Gaussian.powNat_eq]
    decide +kernel
  have hsize : (Gaussian.ofRat (1 / 2 ^ 13500)).size = 13501 := by decide +kernel
  refine ⟨hpower, ?_, by decide +kernel⟩
  rw [hpower, hsize]

end Surd
