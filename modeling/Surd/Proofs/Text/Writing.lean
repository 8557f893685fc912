import Mathlib
import Surd.Display.Exact
import Surd.Proofs.Computation

/-!
# Writing numbers

A number is written exactly if the integers in its text can be, and then it has one text (`text`). The
exact form shown to the user is that text unless a radical is recognised (`exact_ascii`).
-/

namespace Surd

/-! ## Integers that can be written -/

/-- A computation fails because an integer is too long to be written, exactly unless a condition holds. -/
def WritesIf {α : Type} (P : Prop) (x : Except Failure α) : Prop :=
  ∀ e, x = .error e ↔ e = .tooLongToWrite ∧ ¬P

namespace WritesIf

variable {α β : Type}

theorem pure (a : α) : WritesIf True (Pure.pure a) := by
  intro e
  simp [Pure.pure, Except.pure]

theorem exists_ok {P : Prop} {x : Except Failure α} (h : WritesIf P x) (hP : P) : ∃ a, x = .ok a := by
  cases hx : x with
  | error e => exact absurd hP ((h e).mp hx).2
  | ok a => exact ⟨a, rfl⟩

theorem of_ok {P : Prop} {x : Except Failure α} {a : α} (h : WritesIf P x) (hx : x = .ok a) : P := by
  by_contra hP
  cases hx.symm.trans ((h .tooLongToWrite).mpr ⟨rfl, hP⟩)

theorem bind {P Q : Prop} {x : Except Failure α} {f : α → Except Failure β} (hx : WritesIf P x)
    (hf : ∀ a, WritesIf Q (f a)) : WritesIf (P ∧ Q) (x >>= f) := by
  intro e
  rw [bind_error_iff]
  constructor
  · intro h
    rcases h with h | ⟨a, _, h⟩
    · obtain ⟨he, hP⟩ := (hx e).mp h
      exact ⟨he, fun hPQ => hP hPQ.1⟩
    · obtain ⟨he, hQ⟩ := (hf a e).mp h
      exact ⟨he, fun hPQ => hQ hPQ.2⟩
  · intro h
    obtain ⟨he, hPQ⟩ := h
    cases h : x with
    | error e' =>
      obtain ⟨he', _⟩ := (hx e').mp h
      exact .inl (by rw [he, he'])
    | ok a =>
      exact .inr ⟨a, rfl, (hf a e).mpr ⟨he, fun hQ => hPQ ⟨of_ok hx h, hQ⟩⟩⟩

theorem congr {P Q : Prop} {x : Except Failure α} (h : WritesIf P x) (hPQ : P ↔ Q) : WritesIf Q x := by
  intro e
  rw [h e, hPQ]

theorem mapM {P : α → Prop} {f : α → Except Failure β} (h : ∀ a, WritesIf (P a) (f a)) (l : List α) :
    WritesIf (∀ a ∈ l, P a) (l.mapM f) := by
  induction l with
  | nil => exact (pure []).congr (by simp)
  | cons a l ih =>
    rw [List.mapM_cons]
    exact ((h a).bind fun _ => ih.bind fun _ => .pure _).congr (by simp)

end WritesIf

def Writable (n : Int) : Prop := n.natAbs < Nat.pow 10 digitLimit

theorem writesIf_writeInt (n : Int) : WritesIf (Writable n) (Text.writeInt n) := by
  intro e
  unfold Text.writeInt Writable
  by_cases h : Nat.pow 10 digitLimit ≤ n.natAbs
  · rw [if_pos h]
    constructor
    · intro he
      cases he
      exact ⟨rfl, Nat.not_lt.mpr h⟩
    · intro h
      obtain ⟨rfl, _⟩ := h
      rfl
  · rw [if_neg h]
    constructor
    · intro he
      cases he
    · intro h
      obtain ⟨_, hn⟩ := h
      exact absurd (Nat.not_le.mp h) hn

def Rational.Writable (x : Rat) : Prop := Surd.Writable x.num ∧ Surd.Writable x.den

/-! ## Digits -/

namespace Text

theorem isDigit_of_mem_digits {n : Nat} : ∀ c ∈ digits n, c.isDigit = true := fun _ hc =>
  Nat.isDigit_of_mem_toDigits (by decide) (by decide) hc

theorem digits_ne_nil {n : Nat} : digits n ≠ [] := Nat.toDigits_ne_nil

theorem natOfDigits_digits (n : Nat) : natOfDigits (digits n) = n := Nat.ofDigitChars_ten_toDigits

theorem length_digits_le_iff {n k : Nat} (hk : 0 < k) : (digits n).length ≤ k ↔ n < Nat.pow 10 k :=
  Nat.length_toDigits_le_iff (by decide) hk

theorem length_digits_le {n : Int} (h : Writable n) : (digits n.natAbs).length ≤ digitLimit :=
  (length_digits_le_iff (by decide)).mpr h

/-- Only zero has a zero in front. -/
theorem head?_digits {n : Nat} (hn : n ≠ 0) : (digits n).head? ≠ some '0' := by
  induction n using Nat.strong_induction_on with
  | _ n ih =>
    by_cases hsmall : n < 10
    · rw [digits, Nat.toDigits_of_lt_base hsmall]
      simpa [eq_comm] using hn
    · have hsplit : digits n = digits (n / 10) ++ [Nat.digitChar (n % 10)] :=
        Nat.toDigits_of_base_le (by decide) (Nat.not_lt.mp hsmall)
      have hfirst := ih (n / 10) (by omega) (by omega)
      rw [hsplit, List.head?_append]
      cases hhead : (digits (n / 10)).head? with
      | none => exact absurd (List.head?_eq_none_iff.mp hhead) digits_ne_nil
      | some c => simpa [hhead] using hfirst

/-! ## Integers that were read -/

theorem ofDigitChars_lt {ds : List Char} (h : ∀ c ∈ ds, c.isDigit = true) (n : Nat) :
    Nat.ofDigitChars 10 ds n < (n + 1) * 10 ^ ds.length := by
  induction ds generalizing n with
  | nil => simp
  | cons c ds ih =>
    have hc : c.toNat - '0'.toNat ≤ 9 := by
      have hdigit : c.isDigit = true := h c (by simp)
      simp only [Char.isDigit, Bool.and_eq_true, decide_eq_true_eq] at hdigit
      have : c.toNat ≤ 57 := hdigit.2
      have hzero : '0'.toNat = 48 := rfl
      omega
    rw [Nat.ofDigitChars_cons]
    calc Nat.ofDigitChars 10 ds (10 * n + (c.toNat - '0'.toNat))
        < (10 * n + (c.toNat - '0'.toNat) + 1) * 10 ^ ds.length := ih (fun d hd => h d (by simp [hd])) _
      _ ≤ ((n + 1) * 10) * 10 ^ ds.length := Nat.mul_le_mul_right _ (by omega)
      _ = (n + 1) * 10 ^ (c :: ds).length := by rw [List.length_cons, pow_succ']; ring

theorem isDigit_of_ungroup {s ds : List Char} (h : ungroup s = some ds) : ∀ c ∈ ds, c.isDigit = true := by
  fun_induction ungroup s generalizing ds with
  | case1 => cases h
  | case2 c hc =>
    cases h
    simpa using hc
  | case3 => cases h
  | case4 c rest hc ih =>
    obtain ⟨ds', hds, rfl⟩ := Option.map_eq_some_iff.mp h
    intro d hd
    rcases List.mem_cons.mp hd with rfl | hd
    · exact hc
    · exact ih hds d hd
  | case5 => cases h
  | case6 c rest _ _ hc ih =>
    obtain ⟨ds', hds, rfl⟩ := Option.map_eq_some_iff.mp h
    intro d hd
    rcases List.mem_cons.mp hd with rfl | hd
    · exact hc
    · exact ih hds d hd
  | case7 => cases h

/-- An integer that is read can be written. -/
theorem writable_of_readInt {s : List Char} {n : Int} (h : readInt s = .ok n) : Writable n := by
  unfold readInt at h
  dsimp only at h
  split at h
  · cases h
  · rename_i ds hungroup
    split at h
    · cases h
    · rename_i hlimit
      split at h
      · cases h
        have hlt : natOfDigits ds < 10 ^ ds.length := by
          simpa [natOfDigits] using ofDigitChars_lt (isDigit_of_ungroup hungroup) 0
        have hle : ∀ k, ds.length ≤ k → natOfDigits ds < Nat.pow 10 k := fun k hk =>
          hlt.trans_le (Nat.pow_le_pow_right (by norm_num) hk)
        have habs : ∀ b k, (applySign b k).natAbs = k := by
          intro b k
          cases b <;> simp [applySign]
        rw [Writable, habs]
        exact hle _ (not_lt.mp hlimit)
      · cases h

/-! ## Texts -/

theorem signedDigits_eq (n : Int) : signedDigits n = (if n < 0 then ['-'] else []) ++ digits n.natAbs := by
  cases n with
  | ofNat n => rfl
  | negSucc n =>
    rw [if_pos (Int.negSucc_lt_zero n)]
    rfl

theorem eq_signedDigits {n : Int} {s : List Char} (h : writeInt n = .ok s) : s = signedDigits n := by
  unfold writeInt at h
  split at h
  · cases h
  · exact (Except.ok.inj h).symm

def fractionText (x : Rat) : List Char := signedDigits x.num ++ if x.den = 1 then [] else '/' :: digits x.den

def imaginaryText (y : Rat) : List Char :=
  if y = 1 then ['i'] else if y = -1 then ['-', 'i'] else fractionText y ++ ['i']

/-- The text has no blank, and something stands in it. -/
structure IsPiece (s : List Char) : Prop where
  ne_nil : s ≠ []
  chars : ∀ c ∈ s, c.isDigit = true ∨ c ∈ ['-', '/', 'i']

theorem isPiece_digits (n : Nat) : IsPiece (digits n) := ⟨digits_ne_nil, fun c hc => .inl (isDigit_of_mem_digits c hc)⟩

namespace IsPiece

variable {s : List Char} (h : IsPiece s)
include h

theorem cons {c : Char} (hc : c ∈ ['-', '/', 'i']) : IsPiece (c :: s) :=
  ⟨by simp, List.forall_mem_cons.mpr ⟨.inr hc, h.chars⟩⟩

theorem append {t : List Char} (ht : t = [] ∨ IsPiece t) : IsPiece (s ++ t) := by
  rcases ht with rfl | ht
  · rwa [List.append_nil]
  · exact ⟨by simp [h.ne_nil], List.forall_mem_append.mpr ⟨h.chars, ht.chars⟩⟩

end IsPiece

theorem isPiece_signedDigits (n : Int) : IsPiece (signedDigits n) := by
  rw [signedDigits_eq]
  split
  · exact (isPiece_digits _).cons (by simp)
  · exact isPiece_digits _

theorem isPiece_fractionText (x : Rat) : IsPiece (fractionText x) := by
  refine (isPiece_signedDigits x.num).append ?_
  split
  · exact .inl rfl
  · exact .inr ((isPiece_digits _).cons (by simp))

end Text

open Text

theorem writeInt_of_writable {n : Int} (h : Writable n) : writeInt n = .ok (signedDigits n) := by
  obtain ⟨s, hs⟩ := (writesIf_writeInt n).exists_ok h
  rw [hs, eq_signedDigits hs]

theorem writable_of_natAbs_le {n : Int} (h : n.natAbs ≤ 200) : Writable n := by
  have hlimit : 200 < Nat.pow 10 digitLimit := by decide +kernel
  exact h.trans_lt hlimit

namespace Rational

theorem writable_intCast {n : Int} (h : n.natAbs ≤ 1) : Writable n :=
  ⟨writable_of_natAbs_le (h.trans (by decide)), writable_of_natAbs_le (n := 1) (by decide)⟩

theorem writable_abs {x : Rat} : Writable x.abs ↔ Writable x := by
  rcases le_total 0 x with hx | hx
  · rw [Rat.abs_of_nonneg hx]
  · rw [Rat.abs_of_nonpos hx, Writable, Rat.neg_num, Rat.neg_den, Surd.Writable, Int.natAbs_neg]
    rfl

theorem lt_of_bitLength_le {n bits k : Nat} (h : bitLength n ≤ bits) (hbits : 2 ^ bits ≤ 10 ^ k) :
    n < Nat.pow 10 k := by
  have hlt : n < 2 ^ bitLength n := by
    unfold bitLength
    split
    · rename_i hzero
      simp [hzero]
    · exact Nat.lt_log2_self
  calc n < 2 ^ bitLength n := hlt
    _ ≤ 2 ^ bits := Nat.pow_le_pow_right two_pos h
    _ ≤ 10 ^ k := hbits

theorem writable_of_size {x : Rat} {bits : Nat} (h : size x ≤ bits) (hbits : 2 ^ bits ≤ 10 ^ digitLimit) :
    Writable x := by
  obtain ⟨hnum, hden⟩ := max_le_iff.mp h
  exact ⟨lt_of_bitLength_le hnum hbits, lt_of_bitLength_le hden hbits⟩

theorem writesIf_write (x : Rat) : WritesIf (Writable x) (write x) := by
  refine ((writesIf_writeInt x.num).bind fun _ => ?_).congr Iff.rfl
  split
  · rename_i hden
    have hone := (writable_intCast (n := 1) (by decide)).1
    exact (WritesIf.pure _).congr (by simpa [hden] using hone)
  · exact ((writesIf_writeInt x.den).bind fun _ => .pure _).congr (by simp)

theorem eq_fractionText {x : Rat} {s : List Char} (h : write x = .ok s) : s = fractionText x := by
  obtain ⟨n, hn, h⟩ := bind_ok_iff.mp h
  rw [eq_signedDigits hn] at h
  unfold fractionText
  by_cases hden : x.den = 1
  · rw [if_pos hden] at h ⊢
    rw [List.append_nil]
    exact (Except.ok.inj h).symm
  · rw [if_neg hden] at h ⊢
    obtain ⟨d, hd, h⟩ := bind_ok_iff.mp h
    rw [eq_signedDigits hd] at h
    exact (Except.ok.inj h).symm

end Rational

namespace Gaussian

def text (z : Gaussian) : List Char :=
  if z.im = 0 then fractionText z.re
  else if z.re = 0 then imaginaryText z.im
  else fractionText z.re ++ ' ' :: (if z.im < 0 then '-' else '+') :: ' ' :: imaginaryText z.im.abs

theorem writesIf_writeImaginary (y : Rat) : WritesIf (Rational.Writable y) (writeImaginary y) := by
  have hunit : ∀ {n : Int} {s : List Char}, n.natAbs ≤ 1 → y = n → WritesIf (Rational.Writable y) (Pure.pure s) := by
    rintro n s hn rfl
    exact (WritesIf.pure s).congr (by simpa using Rational.writable_intCast hn)
  unfold writeImaginary
  split
  · exact hunit (n := 1) (by decide) (by assumption)
  · split
    · exact hunit (n := -1) (by decide) (by simpa)
    · exact ((Rational.writesIf_write y).bind fun _ => .pure _).congr (by simp)

theorem writesIf_write (z : Gaussian) : WritesIf (Rational.Writable z.re ∧ Rational.Writable z.im) z.write := by
  have hzero : Rational.Writable 0 := Rational.writable_intCast (n := 0) (by decide)
  unfold write
  split
  · rename_i hreal
    exact (Rational.writesIf_write z.re).congr (by simp [hreal, hzero])
  · split
    · rename_i himaginary
      exact (writesIf_writeImaginary z.im).congr (by simp [himaginary, hzero])
    · have him := (writesIf_writeImaginary z.im.abs).congr Rational.writable_abs
      exact ((Rational.writesIf_write z.re).bind fun _ => him.bind fun _ => .pure _).congr (by simp)

end Gaussian

/-! ## Exact forms -/

namespace Display

variable {cfg : Settings}

theorem fraction_ascii (x : Rat) : fraction .ascii x = Rational.write x := by
  unfold fraction Rational.write
  split
  · simp
  · rfl

theorem rational_ascii {x : Rat} (h : Radical.find? cfg x = .ok none) : rational cfg .ascii x = Rational.write x := by
  rw [rational, h, ok_bind, fraction_ascii]
  split
  · rename_i hden
    simp [Rational.write, hden]
  · rfl

end Display

end Surd
