import Mathlib
import Surd.Proofs.Binary64.Decimal
import Surd.Proofs.Computation
import Surd.Proofs.Rational.Doubles

/-!
# Fractions for written decimals

A decimal is read through the double nearest to it: `DecimalLiteral.read_eq`. With at most four digits after
its point it is a fraction within the default bound, and below ten million the double is so near that this
fraction is found again: `DecimalLiteral.read_short`.
-/

namespace Surd

/-- Digits of any script, with a point before, behind or among them. -/
structure DecimalLiteral where
  whole : List Char
  fraction : List Char
  digits : ∀ c ∈ whole ++ fraction, Text.isDigit c = true
  nonempty : whole ++ fraction ≠ []

namespace DecimalLiteral

variable (l : DecimalLiteral)

def text : List Char := l.whole ++ '.' :: l.fraction

/-- The number that is written. -/
def value : ℚ := (Text.natOfDigits ((l.whole ++ l.fraction).map Text.plainDigit) : ℚ) / 10 ^ l.fraction.length

/-- The nearest double. -/
def double : Binary64 := Binary64.ofRat l.value

/-! ## Texts -/

theorem isDigit_whole : ∀ c ∈ l.whole, Text.isDigit c = true := (List.forall_mem_append.mp l.digits).1

theorem isDigit_fraction : ∀ c ∈ l.fraction, Text.isDigit c = true := (List.forall_mem_append.mp l.digits).2

theorem forall_text {P : Char → Prop} (hd : ∀ c, Text.isDigit c = true → P c) (hp : P '.') : ∀ c ∈ l.text, P c := by
  rw [text, List.forall_mem_append, List.forall_mem_cons]
  exact ⟨fun c hc => hd c (l.isDigit_whole c hc), hp, fun c hc => hd c (l.isDigit_fraction c hc)⟩

theorem text_ne_nil : l.text ≠ [] := by simp [text]

/-! ## Values -/

theorem value_nonneg : 0 ≤ l.value := by
  unfold value
  positivity

theorem den_value_le : l.value.den ≤ 10 ^ l.fraction.length := by
  have hpos : 0 < 10 ^ l.fraction.length := by positivity
  have hle := Convergents.den_mkRat_le (Text.natOfDigits ((l.whole ++ l.fraction).map Text.plainDigit)) hpos
  rw [Rat.mkRat_eq_div] at hle
  push_cast at hle
  exact hle

theorem double_eq : l.double = Binary64.ofMagnitude false l.value := by
  have hnum : ¬l.value.num < 0 := (Rat.num_nonneg.mpr l.value_nonneg).not_gt
  rw [double, Binary64.ofRat_eq, decide_eq_false hnum]
  rfl

theorem nonneg_of_value? {v : ℚ} (h : l.double.value? = some v) : 0 ≤ v := by
  have hfinite := Binary64.isFinite_iff.mpr (Binary64.finite_of_value? h)
  rw [l.double_eq] at h hfinite
  rw [Binary64.value?_ofMagnitude hfinite, if_neg Bool.false_ne_true, Option.some.injEq] at h
  rw [← h]
  exact Binary64.magnitude_nonneg _

/-! ## Reading -/

theorem read_eq (cfg : Settings) : Rational.read cfg l.text = Rational.ofDouble cfg l.double := by
  have htrim : Text.trim l.text = l.text :=
    Text.trim_eq_self (l.forall_text (fun _ hc => Text.isBlank_of_isDigit hc) (by decide))
  have hslash : ∀ c ∈ l.text, (c != '/') = true := l.forall_text (fun _ hc => Text.ne_slash_of_isDigit hc) (by decide)
  obtain ⟨e, he⟩ : ∃ e, Text.readInt l.text = .error e := Text.readInt_point l.isDigit_whole l.fraction
  have hread : Binary64.read l.text = .ok l.double := by
    rw [double_eq, value]
    exact Binary64.read_point l.isDigit_whole l.isDigit_fraction l.nonempty
  unfold Rational.read
  simp only [htrim, Text.dropWhile_eq_nil hslash, he, hread]
  exact ok_bind _ _

section
variable {cfg : Settings} (htolerance : cfg.fractionTolerance = 1e-10) (hbound : cfg.maxDenominator = 10000)
include htolerance hbound

theorem read_closest {v : ℚ} (h : l.double.value? = some v) :
    Rational.read cfg l.text = .ok (closestFraction 10000 v) := by
  have hnonneg := l.nonneg_of_value? h
  rw [l.read_eq, Rational.ofDouble_eq htolerance hbound h, if_neg hnonneg.not_gt, abs_of_nonneg hnonneg]

theorem read_short (hplaces : l.fraction.length ≤ 4) (hrange : l.value < 10 ^ 7) :
    Rational.read cfg l.text = .ok l.value := by
  have hden : l.value.den ≤ 10000 :=
    calc l.value.den ≤ 10 ^ l.fraction.length := l.den_value_le
      _ ≤ 10 ^ 4 := Nat.pow_le_pow_right (by decide) hplaces
      _ = 10000 := by norm_num
  rw [l.read_eq]
  apply Rational.ofDouble_ofRat htolerance hbound hden
  rwa [abs_of_nonneg l.value_nonneg]

end

end DecimalLiteral

end Surd
