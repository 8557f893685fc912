import Mathlib
import Surd.Proofs.Text.Reading
import Surd.Proofs.Text.Writing

/-!
# Reading fractions back

An integer that can be written is read back (`readInt_signedDigits`). A slash between two of them is read as their
quotient (`read_quotient`), so the text of a fraction never counts as a decimal, and the fraction is read back
exactly: `read_write`.
-/

namespace Surd

namespace Text

/-! ## Integers -/

theorem plainDigit_minus : plainDigit '-' = '-' := by decide

theorem readInt_minus {ds : List Char} (hne : ds ≠ []) (hd : ∀ c ∈ ds, c.isDigit = true)
    (hlimit : ds.length ≤ digitLimit) : readInt ('-' :: ds) = .ok (-(natOfDigits ds : Int)) := by
  have hmargin : ('-' :: ds).dropWhile isMargin = '-' :: ds := by
    apply dropWhile_eq_self
    simp [isMargin]
  have hgroup : ∀ c ∈ ds, inGroup c = true := by
    intro c hc
    simp [inGroup, hd c hc]
  unfold readInt
  simp only [hmargin, List.map_cons, plainDigit_minus, map_plainDigit hd, takeSign, takeWhile_eq_self hgroup,
    dropWhile_eq_nil hgroup, ungroup_digits hne hd, if_neg (Nat.not_lt.mpr hlimit)]
  rfl

theorem readInt_signedDigits {n : Int} (h : Writable n) : readInt (signedDigits n) = .ok n := by
  have hlimit : ¬digitLimit < (digits n.natAbs).length := Nat.not_lt.mpr (length_digits_le h)
  have hplain : ∀ c ∈ digits n.natAbs, c.isDigit = true := isDigit_of_mem_digits
  rw [signedDigits_eq]
  by_cases hneg : n < 0
  · rw [if_pos hneg, List.singleton_append, readInt_minus digits_ne_nil hplain (Nat.not_lt.mp hlimit),
      natOfDigits_digits, Int.ofNat_natAbs_of_nonpos hneg.le, neg_neg]
  · rw [if_neg hneg, List.nil_append, readInt_digits digits_ne_nil fun c hc => isDigit_of_plain (hplain c hc),
      if_neg hlimit, map_plainDigit hplain, natOfDigits_digits, Int.natAbs_of_nonneg (Int.not_lt.mp hneg)]

theorem ne_slash_of_mem_signedDigits {n : Int} : ∀ c ∈ signedDigits n, (c != '/') = true := by
  intro c hc
  rw [signedDigits_eq, List.mem_append] at hc
  rcases hc with hsign | hdigit
  · have hminus : c = '-' := by
      by_cases hneg : n < 0
      · simpa [hneg] using hsign
      · simp [hneg] at hsign
    rw [hminus]
    decide
  · exact ne_slash_of_isDigit (isDigit_of_plain (isDigit_of_mem_digits c hdigit))

/-! ## Blanks around a text -/

theorem IsPiece.not_isBlank {s : List Char} (h : IsPiece s) : ∀ c ∈ s, isBlank c = false := by
  intro c hc
  rcases h.chars c hc with hdigit | hmark
  · exact isBlank_of_isDigit (isDigit_of_plain hdigit)
  · simp only [List.mem_cons, List.not_mem_nil, or_false] at hmark
    rcases hmark with rfl | rfl | rfl <;> decide

theorem trim_surrounded {before s after : List Char} (hbefore : ∀ c ∈ before, isBlank c = true)
    (hafter : ∀ c ∈ after, isBlank c = true) (hs : IsPiece s) : trim (before ++ s ++ after) = s := by
  have hfront : (before ++ s ++ after).dropWhile isBlank = s ++ after := by
    rw [List.append_assoc]
    apply dropWhile_append_stop hbefore
    intro c hc
    rw [List.head?_append_of_ne_nil s hs.ne_nil] at hc
    exact hs.not_isBlank c (List.mem_of_mem_head? hc)
  have hback : (s ++ after).reverse.dropWhile isBlank = s.reverse := by
    rw [List.reverse_append]
    apply dropWhile_append_stop
    · simpa using hafter
    · intro c hc
      exact hs.not_isBlank c (List.mem_reverse.mp (List.mem_of_mem_head? hc))
  rw [trim, hfront, dropTrailing, hback, List.reverse_reverse]

end Text

namespace Rational

open Text

variable (cfg : Settings)

/-! ## Fractions -/

theorem read_surrounded {before s after : List Char} (hbefore : ∀ c ∈ before, isBlank c = true)
    (hafter : ∀ c ∈ after, isBlank c = true) (hs : IsPiece s) :
    read cfg (before ++ s ++ after) = read cfg s := by
  unfold read
  rw [trim_surrounded hbefore hafter hs, trim_eq_self hs.not_isBlank]

theorem read_signedDigits {n : Int} (hn : Surd.Writable n) : read cfg (signedDigits n) = .ok (n : ℚ) := by
  unfold read
  simp only [trim_eq_self (isPiece_signedDigits n).not_isBlank, dropWhile_eq_nil ne_slash_of_mem_signedDigits,
    readInt_signedDigits hn]
  rfl

theorem read_slash {u v : List Char} (hu : ∀ c ∈ u, isBlank c = false ∧ (c != '/') = true)
    (hv : ∀ c ∈ v, isBlank c = false) :
    read cfg (u ++ '/' :: v) = (do
      let n ← readInt u
      let d ← readInt v
      divInt n d) := by
  have htrim : trim (u ++ '/' :: v) = u ++ '/' :: v := by
    apply trim_eq_self
    rw [List.forall_mem_append, List.forall_mem_cons]
    exact ⟨fun c hc => (hu c hc).1, by decide, hv⟩
  have hslash : ∀ c ∈ u, (c != '/') = true := fun c hc => (hu c hc).2
  have htake := takeWhile_append_stop (v := '/' :: v) hslash (by simp)
  have hdrop := dropWhile_append_stop (v := '/' :: v) hslash (by simp)
  unfold read
  simp only [htrim, htake, hdrop]

theorem read_quotient {n d : Int} (hn : Surd.Writable n) (hd : Surd.Writable d) :
    read cfg (signedDigits n ++ '/' :: signedDigits d) = divInt n d := by
  have hnum : ∀ c ∈ signedDigits n, isBlank c = false ∧ (c != '/') = true := fun c hc =>
    ⟨(isPiece_signedDigits n).not_isBlank c hc, ne_slash_of_mem_signedDigits c hc⟩
  rw [read_slash cfg hnum (isPiece_signedDigits d).not_isBlank, readInt_signedDigits hn, ok_bind,
    readInt_signedDigits hd, ok_bind]

theorem divInt_of_ne_zero (n : Int) {d : Int} (hd : d ≠ 0) : divInt n d = .ok ((n : ℚ) / d) := by
  unfold divInt
  rw [if_neg hd, Rat.divInt_eq_div]
  rfl

theorem divInt_zero {n : Int} (hn : Surd.Writable n) :
    divInt n 0 = .error (.zeroDenominator (String.ofList (signedDigits n))) := by
  unfold divInt
  rw [if_pos rfl, writeInt_of_writable hn]
  rfl

theorem read_fractionText {x : ℚ} (hx : Writable x) : read cfg (fractionText x) = .ok x := by
  unfold fractionText
  by_cases hden : x.den = 1
  · rw [if_pos hden, List.append_nil, read_signedDigits cfg hx.1, Rat.coe_int_num_of_den_eq_one hden]
  · have hdigits : digits x.den = signedDigits x.den := rfl
    rw [if_neg hden, hdigits, read_quotient cfg hx.1 hx.2,
      divInt_of_ne_zero x.num (by exact_mod_cast x.den_nz), Int.cast_natCast, Rat.num_div_den]

/-- What is written is read back, and so are two integers with a slash between them, in any terms and with any
signs. Blanks around the text change nothing. -/
theorem read_write {before after : List Char} (hbefore : ∀ c ∈ before, isBlank c = true)
    (hafter : ∀ c ∈ after, isBlank c = true) :
    (∀ x : ℚ, Writable x → ∃ s, write x = .ok s ∧ read cfg (before ++ s ++ after) = .ok x) ∧
      ∀ n d : Int, Surd.Writable n → Surd.Writable d →
        (d ≠ 0 → read cfg (before ++ (signedDigits n ++ '/' :: signedDigits d) ++ after) = .ok ((n : ℚ) / d)) ∧
        (d = 0 → ∃ e, read cfg (before ++ (signedDigits n ++ '/' :: signedDigits d) ++ after) = .error e ∧
          e.kind = .divisionByZero) := by
  constructor
  · intro x hx
    obtain ⟨s, hs⟩ := (writesIf_write x).exists_ok hx
    refine ⟨s, hs, ?_⟩
    rw [eq_fractionText hs, read_surrounded cfg hbefore hafter (isPiece_fractionText x)]
    exact read_fractionText cfg hx
  · intro n d hn hd
    have hpiece : IsPiece (signedDigits n ++ '/' :: signedDigits d) :=
      (isPiece_signedDigits n).append (.inr ((isPiece_signedDigits d).cons (by simp)))
    rw [read_surrounded cfg hbefore hafter hpiece, read_quotient cfg hn hd]
    constructor
    · intro hne
      exact divInt_of_ne_zero n hne
    · intro hzero
      rw [hzero]
      exact ⟨_, divInt_zero hn, rfl⟩

/-- A negative fraction between blanks, terms that are not the lowest, and a denominator of zero. -/
theorem read_write_sevenths :
    (∃ s, write (-22 / 7) = .ok s ∧ read {} ([' ', '\u3000'] ++ s ++ ['\n']) = .ok (-22 / 7)) ∧
      read {} " 6/-4".toList = .ok (-3 / 2) ∧ ∃ e, read {} " 7/0".toList = .error e ∧ e.kind = .divisionByZero := by
  have hbefore : ∀ c ∈ [' ', '\u3000'], isBlank c = true := by simp; decide
  have hspace : ∀ c ∈ [' '], isBlank c = true := by simp; decide
  have hafter : ∀ c ∈ ['\n'], isBlank c = true := by simp; decide
  have hnothing : ∀ c ∈ ([] : List Char), isBlank c = true := by simp
  have hfraction : Writable (-22 / 7) :=
    ⟨writable_of_natAbs_le (by decide +kernel), writable_of_natAbs_le (by decide +kernel)⟩
  have hsmall : ∀ n : Int, n.natAbs ≤ 200 → Surd.Writable n := fun n => writable_of_natAbs_le
  have hterms := ((read_write {} hspace hnothing).2 6 (-4) (hsmall 6 (by decide)) (hsmall (-4) (by decide))).1 (by decide)
  have hzero := ((read_write {} hspace hnothing).2 7 0 (hsmall 7 (by decide)) (hsmall 0 (by decide))).2 rfl
  refine ⟨(read_write {} hbefore hafter).1 _ hfraction, ?_, hzero⟩
  have hvalue : ((6 : Int) : ℚ) / (-4 : Int) = -3 / 2 := by norm_num
  rw [hvalue] at hterms
  exact hterms

end Rational

end Surd
