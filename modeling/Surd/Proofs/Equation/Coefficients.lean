import Mathlib
import Surd.Proofs.Equation.Reading

/-!
# The coefficients of a written equation

`coefficients_written`: whatever the spelling and the blanks, the vector that is read holds, for
every power up to the degree, the sum of the terms on the left minus that of the terms on the right.
-/

namespace Surd.Equation

open Text (Spaced)

/-! ## Sums of monomials -/

theorem coefficientOf_eq_sum (ms : List Monomial) (k : Nat) :
    coefficientOf ms k = ((ms.filter fun m => m.power = k).map Monomial.coefficient).sum := by
  rw [coefficientOf, foldl_add_filter, zero_add]

theorem coefficientOf_append (ms ns : List Monomial) (k : Nat) :
    coefficientOf (ms ++ ns) k = coefficientOf ms k + coefficientOf ns k := by
  simp [coefficientOf_eq_sum]

theorem coefficientOf_terms (ts : List Term) (k : Nat) :
    coefficientOf (ts.map Term.monomial) k = ((ts.filter fun t => t.power = k).map Term.coefficient).sum := by
  rw [coefficientOf_eq_sum, List.filter_map, List.map_map]
  rfl

theorem coefficientOf_flip (ts : List Term) (k : Nat) :
    coefficientOf ((ts.map Term.flip).map Term.monomial) k = -coefficientOf (ts.map Term.monomial) k := by
  induction ts with
  | nil => simp [coefficientOf_eq_sum]
  | cons t ts ih =>
    rw [coefficientOf_terms, coefficientOf_terms] at *
    by_cases ht : t.power = k
    · simp [Term.power_flip, ht, Term.coefficient_flip, ih, add_comm]
    · simp [Term.power_flip, ht, ih]

theorem coefficientOf_allLeft (E : Written) (k : Nat) :
    coefficientOf (E.allLeft.map Term.monomial) k = E.coefficient k := by
  rw [Written.allLeft, List.map_append, coefficientOf_append, coefficientOf_flip, coefficientOf_terms,
    coefficientOf_terms, ← sub_eq_add_neg]
  rfl

/-! ## The vector -/

theorem length_vector (ms : List Monomial) (n : Nat) : (vector ms n).length = n := by
  induction n with
  | zero => rfl
  | succ n ih => rw [vector, List.length_cons, ih]

theorem getElem?_vector (ms : List Monomial) {n k : Nat} (h : k < n) :
    (vector ms n)[n - 1 - k]? = some (coefficientOf ms k) := by
  induction n with
  | zero => exact absurd h (Nat.not_lt_zero k)
  | succ n ih =>
    rw [vector, Nat.add_sub_cancel]
    rcases Nat.lt_or_ge k n with hk | hk
    · rw [show n - k = (n - 1 - k) + 1 by omega, List.getElem?_cons_succ, ih hk]
    · have : k = n := by omega
      subst this
      simp

/-! ## Accepted texts -/

section
variable (cfg : Settings)

theorem monomialWithin_of_le {degree : Int} {term : List Char} {m : Monomial} (hm : monomial cfg term = .ok m)
    (hle : (m.power : Int) ≤ degree) : monomialWithin cfg degree term = .ok m := by
  unfold monomialWithin
  rw [hm]
  simp [bind, Except.bind, pure, Except.pure, Int.not_lt.mpr hle]

theorem mapM_monomialWithin {degree : Int} {ts : List (List Char)} {ms : List Monomial}
    (h : ts.mapM (monomial cfg) = .ok ms) (hle : ∀ m ∈ ms, (m.power : Int) ≤ degree) :
    ts.mapM (monomialWithin cfg degree) = .ok ms := by
  induction ts generalizing ms with
  | nil => exact h
  | cons t ts ih =>
    rw [List.mapM_cons] at h ⊢
    cases ht : monomial cfg t with
    | error e => rw [ht] at h; cases h
    | ok m =>
      cases hts : ts.mapM (monomial cfg) with
      | error e => rw [ht, hts] at h; cases h
      | ok ns =>
        rw [ht, hts] at h
        obtain rfl : m :: ns = ms := Except.ok.inj h
        rw [monomialWithin_of_le cfg ht (hle m (by simp)), ih hts fun n hn => hle n (by simp [hn])]
        rfl

theorem coefficients_of_monomials {s : List Char} {ms : List Monomial} {degree : Int}
    (h : monomials cfg s = .ok ms) (hle : ∀ m ∈ ms, (m.power : Int) ≤ degree) (hdeg : degree ≤ cfg.maxDegree) :
    coefficients cfg s degree = .ok ((vector ms (degree + 1).toNat).map .ofRat) := by
  unfold monomials at h
  cases ht : terms cfg s with
  | error e => rw [ht] at h; cases h
  | ok ts =>
    rw [ht] at h
    unfold coefficients
    rw [if_neg (Int.not_lt.mpr hdeg), ht]
    simp only [bind, Except.bind, mapM_monomialWithin cfg h hle]
    rfl

end

/-! ## Written equations -/

/-- The coefficients that are read from a written equation are those that it stands for. -/
theorem coefficients_written (cfg : Settings) (E : Written) (s : List Char) (degree : Int)
    (hs : Spaced s E.text) (hlen : s.length ≤ cfg.maxInputLength)
    (hpow : ∀ t ∈ E.terms, (t.power : Int) ≤ degree) (hdeg : degree ≤ cfg.maxDegree) :
    ∃ v : List Gaussian, coefficients cfg s degree = .ok v ∧ (v.length : Int) = degree + 1 ∧
      ∀ k : Nat, (k : Int) ≤ degree →
        v[(degree - k).toNat]? = some (.ofRat (E.left.sum k - E.right.sum k)) := by
  have hfirst : E.left.first ∈ E.terms := by simp [Written.terms, Side.terms]
  have hnonneg : 0 ≤ degree := le_trans (Int.natCast_nonneg _) (hpow _ hfirst)
  have hms := monomials_written cfg E hs hlen fun t ht => le_trans (hpow t ht) hdeg
  have hall := E.forall_allLeft (P := fun k => (k : Int) ≤ degree) hpow
  refine ⟨_, coefficients_of_monomials cfg hms hall hdeg, ?_, ?_⟩
  · rw [List.length_map, length_vector]
    omega
  · intro k hk
    have hget := getElem?_vector (E.allLeft.map Term.monomial) (n := (degree + 1).toNat) (k := k) (by omega)
    rw [List.getElem?_map, show (degree - k).toNat = (degree + 1).toNat - 1 - k by omega, hget,
      coefficientOf_allLeft]
    rfl

/-- The equation `3/2*X² − x + 1 = x^2 - 4`, with blanks in its text. -/
def sampleEquation : Written where
  left :=
    { bare := true
      first :=
        { sign := .plus
          body := .unknown
            (some ⟨.fraction (.ofDigit 3) (.ofDigit 2)
              (by decide), true⟩)
            true (.raised (.ofDigit 2)) }
      rest :=
        [{ sign := .longMinus, body := .unknown none false .unwritten },
         { sign := .plus, body := .constant (.integer (.ofDigit 1)) }] }
  right :=
    { bare := true
      first := { sign := .plus, body := .unknown none false (.caret (.ofDigit 2)) }
      rest := [{ sign := .minus, body := .constant (.integer (.ofDigit 4)) }] }

def sampleText : List Char := "3/2 *X² − x + 1 = x ^ 2 - 4".toList

theorem spaced_sampleText : Spaced sampleText sampleEquation.text := Text.spaced_of_squeeze (by decide)

theorem power_sampleEquation : ∀ t ∈ sampleEquation.terms, (t.power : Int) ≤ 2 := by
  decide

theorem coefficients_sampleEquation :
    Spaced sampleText sampleEquation.text ∧ (∀ t ∈ sampleEquation.terms, (t.power : Int) ≤ 2) ∧
      ∃ v : List Gaussian, coefficients {} sampleText 2 = .ok v ∧ (v.length : Int) = 2 + 1 ∧
        ∀ k : Nat, (k : Int) ≤ 2 →
          v[((2 : Int) - k).toNat]? = some (.ofRat (sampleEquation.left.sum k - sampleEquation.right.sum k)) :=
  ⟨spaced_sampleText, power_sampleEquation,
    coefficients_written {} sampleEquation sampleText 2 spaced_sampleText (by decide +kernel) power_sampleEquation
      (by decide)⟩

end Surd.Equation
