import Mathlib
import Surd.Polynomial.Solve
import Surd.Proofs.Equation.Coefficients

/-!
# Equations with one polynomial

How many coefficients there are depends on the powers that are written, what they are on the sums.
So the roots of an equation depend on its polynomial alone, unless the terms of its highest power
cancel: `solveEquation_written`.
-/

namespace Surd

/-! ## Zero leading coefficients -/

section
variable (cfg : Settings)

theorem mapM_toGaussian_gaussian (zs : List Gaussian) :
    (zs.map Number.gaussian).mapM (Number.toGaussian cfg) = .ok zs := by
  have h : ∀ z ∈ zs, (Number.toGaussian cfg ∘ Number.gaussian) z = .ok (id z) := fun z _ => rfl
  rw [List.mapM_map, mapM_eq_ok h, List.map_id]

theorem solvePolynomial_zero_head (zs : List Gaussian) (h₂ : 2 ≤ zs.length)
    (hdeg : (zs.length : Int) ≤ cfg.maxDegree) :
    ∃ e, solvePolynomial cfg ((0 :: zs).map .gaussian) = .error e ∧ e.kind = .leadingZero := by
  have hzero : (0 : Gaussian).isZero = true := rfl
  match zs with
  | [] | [_] => simp at h₂
  | [b, c] => exact ⟨.zeroLeading (some .quadratic), rfl, rfl⟩
  | [b, c, d] => exact ⟨.zeroLeading (some .cubic), rfl, rfl⟩
  | [b, c, d, e] => exact ⟨.zeroLeading (some .quartic), rfl, rfl⟩
  | b :: c :: d :: e :: f :: zs =>
    -- from the fifth degree on the number of coefficients is checked first
    refine ⟨.zeroLeading none, ?_, rfl⟩
    have hcount : Simultaneous.checkCount cfg
        (((0 : Gaussian) :: b :: c :: d :: e :: f :: zs).map Number.gaussian).length = .ok () := by
      unfold Simultaneous.checkCount
      simp only [List.length_map, List.length_cons] at hdeg ⊢
      rw [if_neg (by omega), if_neg (by push_cast at hdeg ⊢; omega)]
      rfl
    have hnormal : Simultaneous.normalizedDoubles cfg
        (((0 : Gaussian) :: b :: c :: d :: e :: f :: zs).map Number.gaussian) =
          .error (.zeroLeading none) := by
      unfold Simultaneous.normalizedDoubles
      simp only [hcount, mapM_toGaussian_gaussian, bind, Except.bind, List.headD_cons, hzero, if_true]
      rfl
    unfold solvePolynomial solveQuintic
    simp only [List.length_map, List.length_cons]
    rw [if_neg (by omega)]
    simp only [Simultaneous.solve, Simultaneous.solveWithin, Simultaneous.run, hnormal, bind, Except.bind]

end

namespace Equation

/-! ## Powers and coefficients -/

def topPower (ms : List Monomial) : Nat := (ms.map Monomial.power).foldl max 0

theorem foldl_max_mem (ks : List Nat) (start : Nat) : ks.foldl max start ∈ start :: ks := by
  induction ks generalizing start with
  | nil => simp
  | cons k ks ih =>
    rw [List.foldl_cons]
    rcases List.mem_cons.mp (ih (max start k)) with hmax | hmem
    · rw [hmax]
      rcases max_choice start k with hs | hk
      · simp [hs]
      · simp [hk]
    · simp [hmem]

theorem power_le_topPower {ms : List Monomial} {m : Monomial} (h : m ∈ ms) : m.power ≤ topPower ms :=
  (le_foldl_max (ms.map Monomial.power) 0).2 _ (List.mem_map_of_mem h)

theorem exists_power_eq_topPower {ms : List Monomial} (h : 0 < topPower ms) : ∃ m ∈ ms, m.power = topPower ms := by
  have hmem : topPower ms ∈ 0 :: ms.map Monomial.power := foldl_max_mem (ms.map Monomial.power) 0
  obtain hzero | hpower := List.mem_cons.mp hmem
  · omega
  · exact List.mem_map.mp hpower

theorem coefficientOf_above {ms : List Monomial} {k : Nat} (h : topPower ms < k) : coefficientOf ms k = 0 := by
  have hnone : (ms.filter fun m => m.power = k) = [] := by
    rw [List.filter_eq_nil_iff]
    intro m hm
    have := power_le_topPower hm
    simp only [decide_eq_true_eq]
    omega
  rw [coefficientOf_eq_sum, hnone]
  rfl

theorem vector_congr {ms ns : List Monomial} (h : ∀ k, coefficientOf ms k = coefficientOf ns k) (n : Nat) :
    vector ms n = vector ns n := by
  induction n with
  | zero => rfl
  | succ n ih => rw [vector, vector, h, ih]

/-- The polynomial of some monomials, with as many coefficients as their powers ask for. -/
def dense (ms : List Monomial) : List Gaussian := (vector ms (max 1 (topPower ms) + 1)).map .ofRat

/-- The terms of the highest power add up to zero. A power below two does not count. -/
def TopCancels (ms : List Monomial) : Prop := 2 ≤ topPower ms ∧ coefficientOf ms (topPower ms) = 0

section
variable {ms ns : List Monomial} (hcoef : ∀ k, coefficientOf ms k = coefficientOf ns k)
include hcoef

/-- A highest power that does not cancel is written in every form of the polynomial. -/
theorem max_topPower_le (h : ¬TopCancels ms) : max 1 (topPower ms) ≤ max 1 (topPower ns) := by
  by_contra hlt
  have htop : topPower ns < topPower ms := by omega
  exact h ⟨by omega, by rw [hcoef, coefficientOf_above htop]⟩

theorem max_topPower_congr (hms : ¬TopCancels ms) (hns : ¬TopCancels ns) :
    max 1 (topPower ms) = max 1 (topPower ns) :=
  le_antisymm (max_topPower_le hcoef hms) (max_topPower_le (fun k => (hcoef k).symm) hns)

theorem dense_congr (hms : ¬TopCancels ms) (hns : ¬TopCancels ns) : dense ms = dense ns := by
  rw [dense, dense, vector_congr hcoef, max_topPower_congr hcoef hms hns]

end

theorem dense_of_topCancels {ms : List Monomial} (h : TopCancels ms) :
    ∃ zs, dense ms = 0 :: zs ∧ zs.length = topPower ms := by
  obtain ⟨h₂, hzero⟩ := h
  refine ⟨(vector ms (topPower ms)).map .ofRat, ?_, by rw [List.length_map, length_vector]⟩
  rw [dense, max_eq_right (by omega), vector, hzero]
  rfl

end Equation

/-! ## Accepted texts -/

theorem equationOf_of_monomials_error (cfg : Settings) {s : List Char} {e : Failure}
    (h : Equation.monomials cfg s = .error e) : equationOf cfg 1 s = .error e := by
  rw [equationOf, Equation.degree, h]
  rfl

section
variable (cfg : Settings) {s : List Char} {ms : List Equation.Monomial} (h : Equation.monomials cfg s = .ok ms)
include h

theorem equationOf_of_monomials :
    equationOf cfg 1 s =
      if cfg.maxDegree < (max 1 (Equation.topPower ms) : Nat) then
        .error (.degreeTooHigh (max 1 (Equation.topPower ms) : Nat) cfg.maxDegree)
      else .ok ((Equation.dense ms).map .gaussian) := by
  have hdegree : Equation.degree cfg s = .ok (Equation.topPower ms) := by
    rw [Equation.degree, h]
    rfl
  have hof : equationOf cfg 1 s = equationNumbers cfg s (max 1 (Equation.topPower ms) : Nat) := by
    rw [equationOf, hdegree]
    simp only [bind, Except.bind, Nat.cast_max]
  rw [hof, equationNumbers]
  by_cases hlimit : cfg.maxDegree < (max 1 (Equation.topPower ms) : Nat)
  · rw [if_pos hlimit, Equation.coefficients, if_pos hlimit]
    rfl
  · have hle : ∀ m ∈ ms, (m.power : Int) ≤ (max 1 (Equation.topPower ms) : Nat) := fun m hm => by
      have := Equation.power_le_topPower hm
      omega
    rw [if_neg hlimit, Equation.coefficients_of_monomials cfg h hle (Int.not_lt.mp hlimit)]
    rfl

theorem equationOf_congr {t : List Char} {ns : List Equation.Monomial} (ht : Equation.monomials cfg t = .ok ns)
    (hcoef : ∀ k, Equation.coefficientOf ms k = Equation.coefficientOf ns k)
    (hms : ¬Equation.TopCancels ms) (hns : ¬Equation.TopCancels ns) :
    equationOf cfg 1 s = equationOf cfg 1 t := by
  rw [equationOf_of_monomials cfg h, equationOf_of_monomials cfg ht, Equation.dense_congr hcoef hms hns,
    Equation.max_topPower_congr hcoef hms hns]

theorem solveEquation_of_topCancels (hdeg : (Equation.topPower ms : Int) ≤ cfg.maxDegree)
    (hcancel : Equation.TopCancels ms) :
    ∃ e, solveEquation cfg s = .error e ∧ e.kind = .leadingZero := by
  obtain ⟨zs, hzs, hlen⟩ := Equation.dense_of_topCancels hcancel
  have h₂ := hcancel.1
  obtain ⟨e, he, hkind⟩ := solvePolynomial_zero_head cfg zs (by omega) (by omega)
  refine ⟨e, ?_, hkind⟩
  rw [solveEquation, equationOf_of_monomials cfg h, if_neg (by omega), hzs]
  exact he

end

theorem solveEquation_of_monomials_error (cfg : Settings) {s : List Char} {e : Failure}
    (h : Equation.monomials cfg s = .error e) : solveEquation cfg s = .error e := by
  rw [solveEquation, equationOf_of_monomials_error cfg h]
  rfl

theorem solveEquation_linear (cfg : Settings) {s : List Char} {q c : Rat}
    (h : Equation.monomials cfg s = .ok [⟨1, q⟩, ⟨0, c⟩]) (hdeg : 1 ≤ cfg.maxDegree) :
    solveEquation cfg s = solvePolynomial cfg [.gaussian (.ofRat q), .gaussian (.ofRat c)] := by
  have htop : Equation.topPower [⟨1, q⟩, ⟨0, c⟩] = 1 := rfl
  have hdense : Equation.dense [⟨1, q⟩, ⟨0, c⟩] = [.ofRat q, .ofRat c] := by
    simp [Equation.dense, htop, Equation.vector, Equation.coefficientOf]
  rw [solveEquation, equationOf_of_monomials cfg h, htop, max_self, Nat.cast_one, if_neg (not_lt.mpr hdeg), hdense]
  rfl

/-! ## Written equations -/

/-- Both succeed with the same result, or both fail in the same way. -/
def SameOutcome {α : Type} : Except Failure α → Except Failure α → Prop
  | .ok x, .ok y => x = y
  | .error e, .error f => e.kind = f.kind
  | _, _ => False

theorem SameOutcome.refl {α : Type} (x : Except Failure α) : SameOutcome x x := by
  cases x <;> rfl

namespace Equation.Written

/-- The highest power that is written, whatever its coefficient. -/
def topPower (E : Written) : Nat := (E.terms.map Term.power).foldl max 0

/-- The terms of the highest power add up to zero. A power below two does not count. -/
def TopCancels (E : Written) : Prop := 2 ≤ E.topPower ∧ E.coefficient E.topPower = 0

theorem topPower_allLeft (E : Written) : Equation.topPower (E.allLeft.map Term.monomial) = E.topPower := by
  have hflip : (E.right.terms.map Term.flip).map Term.power = E.right.terms.map Term.power := by
    rw [List.map_map]
    exact List.map_congr_left fun t _ => t.power_flip
  have hpower : Monomial.power ∘ Term.monomial = Term.power := rfl
  rw [Equation.topPower, List.map_map, hpower, allLeft, List.map_append, hflip, topPower, terms, List.map_append]

theorem topCancels_allLeft (E : Written) : Equation.TopCancels (E.allLeft.map Term.monomial) ↔ E.TopCancels := by
  rw [Equation.TopCancels, TopCancels, E.topPower_allLeft, coefficientOf_allLeft]

end Equation.Written

/-- A text of the equation that is within the limits on texts and powers. -/
structure Equation.Written.Accepts (cfg : Settings) (E : Written) (s : List Char) : Prop where
  spaced : Text.Spaced s E.text
  short : s.length ≤ cfg.maxInputLength
  low : ∀ t ∈ E.terms, (t.power : Int) ≤ cfg.maxDegree

section
variable {cfg : Settings} {E : Equation.Written} {s : List Char} (h : E.Accepts cfg s)
include h

theorem Equation.Written.Accepts.monomials :
    Equation.monomials cfg s = .ok (E.allLeft.map Equation.Term.monomial) :=
  monomials_written cfg E h.spaced h.short h.low

theorem Equation.Written.Accepts.topPower_le : (E.topPower : Int) ≤ cfg.maxDegree := by
  rcases List.mem_cons.mp (Equation.foldl_max_mem (E.terms.map Equation.Term.power) 0) with hzero | hmem
  · have hfirst := h.low E.left.first (by simp [Equation.Written.terms, Equation.Side.terms])
    rw [Equation.Written.topPower, hzero]
    omega
  · obtain ⟨t, ht, hpower⟩ := List.mem_map.mp hmem
    rw [Equation.Written.topPower, ← hpower]
    exact h.low t ht

end

/-- Equations with one polynomial have one outcome, unless the highest power cancels in only one of
them. Where it cancels, the equation is refused. -/
theorem solveEquation_written (cfg : Settings) (E₁ E₂ : Equation.Written) (s₁ s₂ : List Char)
    (h₁ : E₁.Accepts cfg s₁) (h₂ : E₂.Accepts cfg s₂) (hcoef : ∀ k, E₁.coefficient k = E₂.coefficient k) :
    ((E₁.TopCancels ↔ E₂.TopCancels) → SameOutcome (solveEquation cfg s₁) (solveEquation cfg s₂)) ∧
      (E₁.TopCancels → ∃ e, solveEquation cfg s₁ = .error e ∧ e.kind = .leadingZero) := by
  have hrefused : ∀ {E : Equation.Written} {s : List Char}, E.Accepts cfg s → E.TopCancels →
      ∃ e, solveEquation cfg s = .error e ∧ e.kind = .leadingZero := fun {E _} h hc =>
    solveEquation_of_topCancels cfg h.monomials (E.topPower_allLeft ▸ h.topPower_le) (E.topCancels_allLeft.mpr hc)
  refine ⟨fun hiff => ?_, hrefused h₁⟩
  by_cases hc : E₁.TopCancels
  · obtain ⟨e₁, he₁, hk₁⟩ := hrefused h₁ hc
    obtain ⟨e₂, he₂, hk₂⟩ := hrefused h₂ (hiff.mp hc)
    rw [he₁, he₂]
    exact hk₁.trans hk₂.symm
  · have hsame : ∀ k, Equation.coefficientOf (E₁.allLeft.map Equation.Term.monomial) k =
        Equation.coefficientOf (E₂.allLeft.map Equation.Term.monomial) k := fun k => by
      rw [Equation.coefficientOf_allLeft, Equation.coefficientOf_allLeft, hcoef]
    have hc₁ := mt E₁.topCancels_allLeft.mp hc
    have hc₂ := mt E₂.topCancels_allLeft.mp (mt hiff.mpr hc)
    rw [solveEquation, solveEquation, equationOf_congr cfg h₁.monomials h₂.monomials hsame hc₁ hc₂]
    exact .refl _

namespace Equation

/-- The equation `x = 1`. -/
def plainEquation : Written where
  left := ⟨true, ⟨.plus, .unknown none false .unwritten⟩, []⟩
  right := ⟨true, ⟨.plus, .constant (.integer (.ofDigit 1))⟩, []⟩

/-- The equation `2x - x = 1`. -/
def doubledEquation : Written where
  left :=
    ⟨true, ⟨.plus, .unknown (some ⟨.integer (.ofDigit 2), false⟩) false .unwritten⟩,
      [⟨.minus, .unknown none false .unwritten⟩]⟩
  right := ⟨true, ⟨.plus, .constant (.integer (.ofDigit 1))⟩, []⟩

/-- The equation `x^2 - x^2 + x = 1`. -/
def cancellingEquation : Written where
  left :=
    ⟨true, ⟨.plus, .unknown none false (.caret (.ofDigit 2))⟩,
      [⟨.minus, .unknown none false (.caret (.ofDigit 2))⟩, ⟨.plus, .unknown none false .unwritten⟩]⟩
  right := ⟨true, ⟨.plus, .constant (.integer (.ofDigit 1))⟩, []⟩

theorem accepts_plainEquation : plainEquation.Accepts {} "x = 1".toList where
  spaced := Text.spaced_of_squeeze (by decide)
  short := by decide
  low := by decide

theorem accepts_doubledEquation : doubledEquation.Accepts {} "2x - x = 1".toList where
  spaced := Text.spaced_of_squeeze (by decide)
  short := by decide
  low := by decide

theorem accepts_cancellingEquation : cancellingEquation.Accepts {} "x^2 - x^2 + x = 1".toList where
  spaced := Text.spaced_of_squeeze (by decide)
  short := by decide
  low := by decide

theorem coefficient_doubledEquation (k : Nat) : plainEquation.coefficient k = doubledEquation.coefficient k := by
  have htwo : (Quantity.integer (.ofDigit 2)).value = 2 := rfl
  simp only [Written.coefficient, Side.sum, Side.terms, plainEquation, doubledEquation, List.filter_cons,
    List.filter_nil, Term.power, Body.power, Exponent.power]
  by_cases hk : 1 = k
  · simp [hk, Term.coefficient, Body.size, Sign.factor, Body.multiplierValue, htwo]
    norm_num
  · simp [hk]

theorem coefficient_cancellingEquation (k : Nat) :
    plainEquation.coefficient k = cancellingEquation.coefficient k := by
  have htwo : (Numeral.ofDigit 2).value = 2 := rfl
  simp only [Written.coefficient, Side.sum, Side.terms, plainEquation, cancellingEquation, List.filter_cons,
    List.filter_nil, Term.power, Body.power, Exponent.power, htwo]
  by_cases hk : 2 = k
  · simp [← hk, Term.coefficient, Body.size, Sign.factor, Body.multiplierValue]
  · simp [hk]

end Equation

theorem solveEquation_doubledEquation :
    SameOutcome (solveEquation {} "x = 1".toList) (solveEquation {} "2x - x = 1".toList) ∧
      ∃ e, solveEquation {} "x^2 - x^2 + x = 1".toList = .error e ∧ e.kind = .leadingZero := by
  have hnot₁ : ¬Equation.plainEquation.TopCancels := by
    intro h
    obtain ⟨h, _⟩ := h
    exact absurd h (by decide)
  have hnot₂ : ¬Equation.doubledEquation.TopCancels := by
    intro h
    obtain ⟨h, _⟩ := h
    exact absurd h (by decide)
  have hcancels : Equation.cancellingEquation.TopCancels := ⟨by decide, by decide +kernel⟩
  have hsame := solveEquation_written {} Equation.plainEquation Equation.doubledEquation _ _
    Equation.accepts_plainEquation Equation.accepts_doubledEquation Equation.coefficient_doubledEquation
  have hrefused := solveEquation_written {} Equation.cancellingEquation Equation.plainEquation _ _
    Equation.accepts_cancellingEquation Equation.accepts_plainEquation fun k =>
      (Equation.coefficient_cancellingEquation k).symm
  exact ⟨hsame.1 (iff_of_false hnot₁ hnot₂), hrefused.2 hcancels⟩

/-- Terms that cancel make a difference: `x^2 - x^2 + x = 1` is refused, `x = 1` is not. -/
theorem solveEquation_cancellingEquation :
    Equation.plainEquation.Accepts {} "x = 1".toList ∧
      Equation.cancellingEquation.Accepts {} "x^2 - x^2 + x = 1".toList ∧
      (∀ k, Equation.plainEquation.coefficient k = Equation.cancellingEquation.coefficient k) ∧
      ¬SameOutcome (solveEquation {} "x = 1".toList) (solveEquation {} "x^2 - x^2 + x = 1".toList) := by
  refine ⟨Equation.accepts_plainEquation, Equation.accepts_cancellingEquation,
    Equation.coefficient_cancellingEquation, ?_⟩
  have hplain : solveEquation {} "x = 1".toList = .ok [1] := by decide +kernel
  have hcancelling : solveEquation {} "x^2 - x^2 + x = 1".toList = .error (.zeroLeading (some .quadratic)) := by
    decide +kernel
  rw [hplain, hcancelling]
  exact id

end Surd
