import Mathlib
import Surd.Binary64.Decimal
import Surd.Proofs.Binary64.Arithmetic
import Surd.Proofs.Binary64.Conversion
import Surd.Proofs.Text.Reading
import Surd.Proofs.Text.Writing

/-!
# Decimals and the nearest doubles

The cuts for very large and very small decimals only cut off what rounding makes infinite or zero anyway, so
the double for a decimal is the nearest one to its value: `toBinary64_eq`. `read_point`: digits with a point
among them are read as the double for the number that they write.
-/

namespace Surd

namespace Decimal

variable (x : Decimal)

/-! ## Values -/

theorem value_eq : x.value = x.mantissa * (10 : ℚ) ^ x.exponent := by
  unfold value
  split
  · rename_i hneg
    obtain ⟨k, hk⟩ : ∃ k : Nat, x.exponent = -k := ⟨x.exponent.natAbs, by omega⟩
    rw [hk, Int.natAbs_neg, Int.natAbs_natCast, Rat.mkRat_eq_div, zpow_neg, zpow_natCast, div_eq_mul_inv]
    norm_cast
  · rename_i hnonneg
    obtain ⟨k, hk⟩ : ∃ k : Nat, x.exponent = k := ⟨x.exponent.natAbs, by omega⟩
    rw [hk, Int.natAbs_natCast, zpow_natCast]
    norm_cast

theorem value_nonneg : 0 ≤ x.value := by
  rw [value_eq]
  positivity

theorem value_lt : x.value < (10 : ℚ) ^ (x.exponent + (Text.digits x.mantissa).length) := by
  have hhigh : x.mantissa < 10 ^ (Text.digits x.mantissa).length :=
    (Text.length_digits_le_iff (List.length_pos_iff.mpr Text.digits_ne_nil)).mp le_rfl
  generalize (Text.digits x.mantissa).length = k at *
  rw [value_eq]
  calc (x.mantissa : ℚ) * 10 ^ x.exponent < ((10 ^ k : Nat) : ℚ) * 10 ^ x.exponent := by gcongr
    _ = 10 ^ (x.exponent + k) := by
        rw [Nat.cast_pow, Nat.cast_ofNat, ← zpow_natCast, ← zpow_add₀ (by norm_num), add_comm]

theorem le_value (h : x.mantissa ≠ 0) : (10 : ℚ) ^ (x.exponent + (Text.digits x.mantissa).length - 1) ≤ x.value := by
  obtain ⟨k, hk⟩ : ∃ k, (Text.digits x.mantissa).length = k + 1 :=
    Nat.exists_eq_succ_of_ne_zero (List.length_pos_iff.mpr Text.digits_ne_nil).ne'
  have hlow : 10 ^ k ≤ x.mantissa := by
    by_cases hzero : k = 0
    · rw [hzero]
      exact Nat.one_le_iff_ne_zero.mpr h
    · by_contra hlt
      have := (Text.length_digits_le_iff (Nat.pos_of_ne_zero hzero)).mpr (not_le.mp hlt)
      omega
  rw [value_eq, hk]
  calc (10 : ℚ) ^ (x.exponent + (k + 1 : Nat) - 1) = ((10 ^ k : Nat) : ℚ) * 10 ^ x.exponent := by
        rw [Nat.cast_pow, Nat.cast_ofNat, ← zpow_natCast, ← zpow_add₀ (by norm_num)]
        congr 1
        omega
    _ ≤ x.mantissa * 10 ^ x.exponent := by gcongr

/-! ## The cuts -/

theorem finiteCount_le_rankOf (h : x.mantissa ≠ 0) (htop : 310 < x.exponent + (Text.digits x.mantissa).length) :
    finiteCount ≤ Binary64.rankOf x.value := by
  have hlimit : finiteCount ≤ Binary64.rankOf (Nat.pow 10 310 : Nat) := by decide +kernel
  refine hlimit.trans (Binary64.rankOf_mono ?_)
  generalize hk : 310 = k at *
  rw [abs_of_nonneg x.value_nonneg, Nat.abs_cast, Nat.pow_eq, Nat.cast_pow, ← zpow_natCast]
  exact (zpow_le_zpow_right₀ (by norm_num) (by omega)).trans (x.le_value h)

theorem rankOf_eq_zero (htop : x.exponent + (Text.digits x.mantissa).length < -330) :
    Binary64.rankOf x.value = 0 := by
  have hlimit : Binary64.rankOf (Nat.pow 10 330 : Nat)⁻¹ = 0 := by decide +kernel
  rw [← Nat.le_zero, ← hlimit]
  refine Binary64.rankOf_mono ?_
  generalize hk : 330 = k at *
  rw [abs_of_nonneg x.value_nonneg, abs_inv, Nat.abs_cast, Nat.pow_eq, Nat.cast_pow, ← zpow_natCast, ← zpow_neg]
  exact x.value_lt.le.trans (zpow_le_zpow_right₀ (by norm_num) (by omega))

theorem toBinary64_eq : x.toBinary64 = Binary64.ofMagnitude x.negative x.value := by
  have hround : Binary64.ofMagnitude x.negative x.value = Binary64.ofRank x.negative (Binary64.rankOf x.value) := rfl
  rw [hround]
  unfold toBinary64
  dsimp only
  by_cases hzero : x.mantissa = 0
  · have hvalue : x.value = 0 := by rw [value_eq, hzero, Nat.cast_zero, zero_mul]
    rw [if_pos hzero, hvalue]
    exact congrArg (Binary64.ofRank x.negative) (Binary64.nearestRank_zero 1).symm
  · rw [if_neg hzero]
    split
    · rename_i htop
      rw [Binary64.ofRank, dif_neg (Nat.not_lt.mpr (x.finiteCount_le_rankOf hzero htop))]
    · split
      · rename_i htop
        rw [x.rankOf_eq_zero htop]
      · exact hround

/-! ## Text -/

theorem readUnsigned_point {u v : List Char} (hu : ∀ c ∈ u, c.isDigit = true) (hv : ∀ c ∈ v, c.isDigit = true)
    (hne : u ++ v ≠ []) (negative : Bool) :
    readUnsigned negative (u ++ '.' :: v) = some ⟨negative, Text.natOfDigits (u ++ v), -v.length⟩ := by
  have hstop : ∀ c ∈ ('.' :: v).head?, c.isDigit = false := by simp
  unfold readUnsigned
  simp only [Text.takeWhile_append_stop hu hstop, Text.dropWhile_append_stop hu hstop, takeFraction,
    Text.takeWhile_eq_self hv, Text.dropWhile_eq_nil hv, readExponent]
  rw [if_neg]
  · simp
  · simpa using hne

end Decimal

namespace Binary64

/-- A character of a plain decimal number. -/
def IsPointed (c : Char) : Prop := c.isDigit = true ∨ c = '.'

theorem IsPointed.apart {c : Char} (h : IsPointed c) :
    Text.isMargin c = false ∧ c ≠ '_' ∧ c ≠ '-' ∧ c ≠ '+' := by
  rcases h with hdigit | rfl
  · exact of_decide_eq_true (Text.of_plainDigits
      (fun c => Text.isMargin c = false ∧ c ≠ '_' ∧ c ≠ '-' ∧ c ≠ '+') (by decide) hdigit)
  · decide

theorem withoutMarks_eq_self {s : List Char} (h : ∀ c ∈ s, c ≠ '_') (previous : Char) :
    withoutMarks previous s = some s := by
  induction s generalizing previous with
  | nil => rfl
  | cons c s ih =>
    have hc := h c (by simp)
    rw [withoutMarks]
    · rw [ih fun b hb => h b (by simp [hb])]
      rfl
    · exact hc

theorem readNumber_point {u v : List Char} (hu : ∀ c ∈ u, c.isDigit = true) (hv : ∀ c ∈ v, c.isDigit = true)
    (hne : u ++ v ≠ []) (hchars : ∀ c ∈ u ++ '.' :: v, IsPointed c) :
    readNumber (u ++ '.' :: v) = some (ofMagnitude false (Text.natOfDigits (u ++ v) / 10 ^ v.length)) := by
  have hsign : Text.takeSign (u ++ '.' :: v) = (false, u ++ '.' :: v) :=
    Text.takeSign_of_ne fun c hc => (hchars c (List.mem_of_mem_head? hc)).apart.2.2
  -- no name has a point in it
  have hpoint : '.' ∈ (u ++ '.' :: v).map Char.toLower := List.mem_map.mpr ⟨'.', by simp, rfl⟩
  have hname : ∀ name : List Char, '.' ∉ name → (u ++ '.' :: v).map Char.toLower ≠ name := by
    rintro name hnot rfl
    exact hnot hpoint
  unfold readNumber
  simp only [hsign, hname "inf".toList (by decide), hname "infinity".toList (by decide), hname "nan".toList (by decide),
    or_self, if_false, Decimal.readUnsigned_point hu hv hne, Option.map_some, Decimal.toBinary64_eq, Decimal.value_eq]
  rw [zpow_neg, zpow_natCast, div_eq_mul_inv]

theorem read_point {u v : List Char} (hu : ∀ c ∈ u, Text.isDigit c = true) (hv : ∀ c ∈ v, Text.isDigit c = true)
    (hne : u ++ v ≠ []) :
    read (u ++ '.' :: v) =
      .ok (ofMagnitude false (Text.natOfDigits ((u ++ v).map Text.plainDigit) / 10 ^ v.length)) := by
  have hu' := Text.forall_map_plainDigit hu
  have hv' := Text.forall_map_plainDigit hv
  have hchars : ∀ c ∈ u.map Text.plainDigit ++ '.' :: v.map Text.plainDigit, IsPointed c := by
    rw [List.forall_mem_append, List.forall_mem_cons]
    exact ⟨fun c hc => .inl (hu' c hc), .inr rfl, fun c hc => .inl (hv' c hc)⟩
  have hnumber := readNumber_point hu' hv' (by simpa using hne) hchars
  rw [List.length_map, ← List.map_append] at hnumber
  unfold read
  dsimp only
  rw [Text.map_plainDigit_point,
    Text.dropWhile_eq_self fun c hc => (hchars c (List.mem_of_mem_head? hc)).apart.1, Text.dropTrailing,
    Text.dropWhile_eq_self fun c hc => (hchars c (List.mem_reverse.mp (List.mem_of_mem_head? hc))).apart.1,
    List.reverse_reverse, withoutMarks_eq_self fun c hc => (hchars c hc).apart.2.1, Option.bind_some, hnumber]
  rfl

end Binary64

end Surd
