import Mathlib
import Surd.Proofs.Radical.Accuracy
import Surd.Proofs.Text.Writing

/-!
# What can be shown

The integers of a radical that stands for a fraction can be written (`exists_radical`). So the exact form
of a number is never too long to be written, if its parts are not (`unroundable_exact`).
-/

namespace Surd

namespace Radical.Stands

variable {r : Radical} {x : ℚ} (h : r.Stands x)
include h

theorem writable_offset : Writable r.offset := by
  have hlimit : Binary64.unitCount + 16 < Nat.pow 10 digitLimit := by decide +kernel
  have hle : r.offset.natAbs ≤ Binary64.unitCount + 16 := by
    have hoffset := h.offset_le
    rw [← Int.cast_abs, ← Nat.cast_natAbs] at hoffset
    exact_mod_cast hoffset
  exact hle.trans_lt hlimit

theorem writable_coefficient : Writable r.coefficient.natAbs := by
  have hsquare := h.square_le
  have hpos := h.radicand_pos
  refine writable_of_natAbs_le ?_
  rw [Int.natAbs_natCast]
  zify
  have hle : |r.coefficient| ≤ r.coefficient ^ 2 := by
    rw [← sq_abs]
    exact le_self_pow₀ (Int.one_le_abs h.coefficient_ne) two_ne_zero
  nlinarith [sq_nonneg r.coefficient]

theorem writable_radicand : Writable r.radicand := by
  have hsquare := h.square_le
  have hpos := h.radicand_pos
  have hone : 1 ≤ r.coefficient ^ 2 := by
    have := sq_pos_of_ne_zero h.coefficient_ne
    omega
  refine writable_of_natAbs_le ?_
  zify
  rw [abs_of_pos hpos]
  nlinarith

theorem writable_divisor : Writable r.divisor := by
  have hpos := h.divisor_pos
  have hle := h.divisor_le
  exact writable_of_natAbs_le (by omega)

end Radical.Stands

namespace Display

theorem exists_radical {r : Radical} {x : ℚ} (h : r.Stands x) (style : Style) : ∃ s, radical style r = .ok s := by
  unfold radical
  rw [writeInt_of_writable h.writable_coefficient, ok_bind, writeInt_of_writable h.writable_radicand, ok_bind,
    writeInt_of_writable h.writable_offset, writeInt_of_writable h.writable_divisor]
  dsimp only
  split
  · split
    · exact ⟨_, rfl⟩
    · exact ⟨_, rfl⟩
  · rw [ok_bind]
    split
    · exact ⟨_, rfl⟩
    · rw [ok_bind]
      cases style <;> exact ⟨_, rfl⟩

theorem exists_fraction {x : ℚ} (h : Rational.Writable x) (style : Style) : ∃ s, fraction style x = .ok s := by
  have hnum : Writable x.num.natAbs := by
    unfold Writable
    rw [Int.natAbs_natCast]
    exact h.1
  cases style with
  | ascii => rw [fraction_ascii]; exact (Rational.writesIf_write x).exists_ok h
  | unicode =>
    have hwrite : fraction .unicode x = Rational.write x := fraction_ascii x
    rw [hwrite]
    exact (Rational.writesIf_write x).exists_ok h
  | latex =>
    unfold fraction
    rw [writeInt_of_writable h.1, writeInt_of_writable hnum, writeInt_of_writable h.2]
    split <;> exact ⟨_, rfl⟩

section
variable {f : Elementary} (hf : f.SqrtAccurate) {x : ℚ} (hx : Rational.Writable x)
include hf hx

theorem unroundable_rational (style : Style) :
    FailsOnly Unroundable (rational { elementary := f } style x) := by
  unfold rational
  split
  · rw [writeInt_of_writable hx.1]
    exact .pure _
  · refine (Radical.unroundable_find? hf x).bind fun r hr => ?_
    cases r with
    | none =>
      obtain ⟨s, hs⟩ := exists_fraction hx style
      dsimp only
      rw [hs]
      exact .pure _
    | some r =>
      obtain ⟨s, hs⟩ := exists_radical (Radical.find?_stands hf hr) style
      dsimp only
      rw [hs]
      exact .pure _

theorem unroundable_imaginary (style : Style) :
    FailsOnly Unroundable (imaginary { elementary := f } style x) := by
  unfold imaginary
  split
  · exact .pure _
  · split
    · exact .pure _
    · refine (Radical.unroundable_find? hf x).bind fun r hr => ?_
      cases r with
      | none =>
        obtain ⟨s, hs⟩ := exists_fraction hx style
        dsimp only
        rw [hs]
        exact .pure _
      | some r =>
        obtain ⟨s, hs⟩ := exists_radical (Radical.find?_stands hf hr) style
        dsimp only
        rw [hs]
        exact .pure _

end

/-- A number whose parts can be written fails to be shown only by rounding what is no number. -/
theorem unroundable_exact {f : Elementary} (hf : f.SqrtAccurate) {z : Gaussian} (hre : Rational.Writable z.re)
    (him : Rational.Writable z.im) (style : Style) :
    FailsOnly Unroundable (exact { elementary := f } style z) := by
  unfold exact
  split
  · exact unroundable_rational hf hre style
  · split
    · exact unroundable_imaginary hf him style
    · refine (unroundable_rational hf hre style).bind fun s _ => ?_
      exact (unroundable_imaginary hf (Rational.writable_abs.mpr him) style).bind fun _ _ => .pure _

end Display

end Surd
