import Mathlib
import Surd.Proofs.Equation.Solving
import Surd.Proofs.Polynomial.Escapes

/-!
# The calculator and the solver

A calculator shows the roots that the solver finds, and a failure of the solver by its wording and its
code. From degree five on it runs the iteration by itself, with the same outcome (`solved_of_roots`,
`solved_of_error`). Only a
failure whose coefficients are too long to be written is not shown.
-/

namespace Surd

/-! ## What is shown -/

/-- A successful result for an equation: the forms of its roots, in order, and the degree. -/
structure ShowsRoots (exact approx : List String) (degree : Int) (r : SolveResult) : Prop where
  ok : r.ok = true
  type : r.type = "equation"
  exact : r.exact = some exact
  approx : r.approx = some approx
  degree : r.degree = some degree
  error : r.error = none
  errorCode : r.errorCode = none

/-- An unsuccessful result for an equation: the wording and the code of a failure, and no roots. -/
structure ShowsFailure (e : Failure) (r : SolveResult) : Prop where
  ok : r.ok = false
  type : r.type = "equation"
  error : r.error = some e.message
  errorCode : r.errorCode = e.code
  exact : r.exact = none
  approx : r.approx = none

theorem Failure.resultCode_eq {e : Failure} (h : Coded e) : some e.resultCode = e.code := by
  cases e <;> first | rfl | cases h

theorem showsFailure_ofFailure {e : Failure} (h : Coded e) : ShowsFailure e (.ofFailure "equation" e) where
  ok := rfl
  type := rfl
  error := rfl
  errorCode := Failure.resultCode_eq h
  exact := rfl
  approx := rfl

theorem coded_of_isSolver {e : Failure} (h : e.kind.isSolver = true) : Coded e := by
  simp [Coded, Kind.isCoded, h]

section
variable (cfg : Settings) (f : Format)

/-- Roots that can be formatted are shown. A failure of the solver is shown if its coefficients can be
written, and else fails to be shown. -/
def Agrees (cs : List Number) (found : Except Failure (List Gaussian)) (shown : Except Failure SolveResult) : Prop :=
  (∀ roots exact approx, found = .ok roots → roots.mapM (Calculator.exactForm cfg f) = .ok exact →
      roots.mapM (Calculator.decimalForm cfg f) = .ok approx →
      ∃ r, shown = .ok r ∧ ShowsRoots exact approx (cs.length - 1) r) ∧
  (∀ e, found = .error e → e.kind.isSolver = true →
      ((∀ c ∈ cs, c.Writable) → ∃ r, shown = .ok r ∧ ShowsFailure e r) ∧
      ((∃ c ∈ cs, ¬c.Writable) → shown = .error .tooLongToWrite))

/-! ## By degree -/

theorem solvePolynomial_of_six_le {cs : List Number} (h : 6 ≤ cs.length) :
    Surd.solvePolynomial cfg cs = (do
      let s ← Simultaneous.solve cfg cs
      pure s.roots) := by
  match cs with
  | _ :: _ :: _ :: _ :: _ :: _ :: rest =>
    unfold Surd.solvePolynomial solveQuintic
    simp only [List.length_cons]
    rw [if_neg (by omega)]

theorem solved_of_five_le {cs : List Number} (h : 5 ≤ (cs.length : Int) - 1) :
    Calculator.solved cfg f cs = (do
      let s ← Simultaneous.solve cfg cs
      let r ← Calculator.rootsResult cfg f s.roots (cs.length - 1)
      pure { r with converged := s.converged, iterations := (s.iterations : Int) }) := if_pos h

theorem solved_of_lt_five {cs : List Number} (h : ¬5 ≤ (cs.length : Int) - 1) :
    Calculator.solved cfg f cs = (do
      let roots ← Surd.solvePolynomial cfg cs
      Calculator.rootsResult cfg f roots (cs.length - 1)) := if_neg h

theorem rootsResult_eq {roots : List Gaussian} {exact approx : List String} (degree : Int)
    (hexact : roots.mapM (Calculator.exactForm cfg f) = .ok exact)
    (happrox : roots.mapM (Calculator.decimalForm cfg f) = .ok approx) :
    Calculator.rootsResult cfg f roots degree = .ok { ok := true, type := "equation", exact, approx, degree } := by
  rw [Calculator.rootsResult, hexact, ok_bind, happrox, ok_bind]
  rfl

theorem solved_of_roots {cs : List Number} {roots : List Gaussian} {exact approx : List String}
    (hroots : Surd.solvePolynomial cfg cs = .ok roots)
    (hexact : roots.mapM (Calculator.exactForm cfg f) = .ok exact)
    (happrox : roots.mapM (Calculator.decimalForm cfg f) = .ok approx) :
    ∃ r, Calculator.solved cfg f cs = .ok r ∧ ShowsRoots exact approx (cs.length - 1) r := by
  have hresult := rootsResult_eq cfg f (cs.length - 1) hexact happrox
  by_cases hdegree : 5 ≤ (cs.length : Int) - 1
  · rw [solvePolynomial_of_six_le cfg (by omega)] at hroots
    obtain ⟨s, hs, hroots⟩ := bind_ok_iff.mp hroots
    cases hroots
    rw [solved_of_five_le cfg f hdegree, hs, ok_bind, hresult, ok_bind]
    exact ⟨_, rfl, rfl, rfl, rfl, rfl, rfl, rfl, rfl⟩
  · rw [solved_of_lt_five cfg f hdegree, hroots, ok_bind, hresult]
    exact ⟨_, rfl, rfl, rfl, rfl, rfl, rfl, rfl, rfl⟩

theorem solved_of_error {cs : List Number} {e : Failure} (h : Surd.solvePolynomial cfg cs = .error e) :
    Calculator.solved cfg f cs = .error e := by
  by_cases hdegree : 5 ≤ (cs.length : Int) - 1
  · rw [solvePolynomial_of_six_le cfg (by omega)] at h
    rcases bind_error_iff.mp h with h | ⟨s, _, h⟩
    · rw [solved_of_five_le cfg f hdegree, h]
      rfl
    · cases h
  · rw [solved_of_lt_five cfg f hdegree, h]
    rfl

/-! ## Polynomials -/

theorem solvePolynomial_agrees (cs : List Number) :
    Agrees cfg f cs (Surd.solvePolynomial cfg cs) (Calculator.solvePolynomial cfg f cs) := by
  constructor
  · intro roots exact approx hroots hexact happrox
    obtain ⟨r, hr, hshows⟩ := solved_of_roots cfg f hroots hexact happrox
    exact ⟨r, by rw [Calculator.solvePolynomial, hr]; rfl, hshows⟩
  · intro e he hsolver
    have hcoded := coded_of_isSolver hsolver
    have hcaught : e.kind.isCaught = true := caught_of_coded hcoded
    have hsolved := solved_of_error cfg f he
    constructor
    · intro hwritable
      obtain ⟨s, hs⟩ := (writesIf_showCoefficients cs).exists_ok hwritable
      refine ⟨_, ?_, showsFailure_ofFailure hcoded⟩
      unfold Calculator.solvePolynomial
      simp only [hsolved, hcaught, if_true, hs, ok_bind]
      rfl
    · intro hlong
      refine (solvePolynomial_error_of_caught cfg f hsolved hcaught .tooLongToWrite).mpr ⟨rfl, ?_⟩
      simpa using hlong

/-! ## Equations -/

theorem solveEquation_agrees {s : List Char} {cs : List Number} (h : equationOf cfg 1 s = .ok cs) :
    Agrees cfg f cs (Surd.solveEquation cfg s) (Calculator.solveEquation cfg f s) := by
  have hfound : Surd.solveEquation cfg s = Surd.solvePolynomial cfg cs := by rw [Surd.solveEquation, h, ok_bind]
  have hshown : Calculator.solveEquation cfg f s = Calculator.solvePolynomial cfg f cs := by
    rw [Calculator.solveEquation, h]
  rw [hfound, hshown]
  exact solvePolynomial_agrees cfg f cs

theorem solveEquation_unreadable {s : List Char} {e : Failure} (h : equationOf cfg 1 s = .error e) (hcoded : Coded e) :
    Surd.solveEquation cfg s = .error e ∧ ∃ r, Calculator.solveEquation cfg f s = .ok r ∧ ShowsFailure e r := by
  constructor
  · rw [Surd.solveEquation, h]
    rfl
  · refine ⟨_, ?_, showsFailure_ofFailure hcoded⟩
    rw [Calculator.solveEquation, h]
    exact if_pos hcoded

/-- The calculator agrees with the solver on every list of coefficients and on every text whose reading
fails, if it fails, in a way that has a code. -/
theorem calculator_agrees :
    (∀ cs, Agrees cfg f cs (Surd.solvePolynomial cfg cs) (Calculator.solvePolynomial cfg f cs)) ∧
    (∀ s, (∀ e, equationOf cfg 1 s = .error e → Coded e) →
      (∃ cs, equationOf cfg 1 s = .ok cs ∧
        Agrees cfg f cs (Surd.solveEquation cfg s) (Calculator.solveEquation cfg f s)) ∨
      (∃ e, Surd.solveEquation cfg s = .error e ∧ equationOf cfg 1 s = .error e ∧
        ∃ r, Calculator.solveEquation cfg f s = .ok r ∧ ShowsFailure e r)) := by
  refine ⟨solvePolynomial_agrees cfg f, fun s hread => ?_⟩
  cases h : equationOf cfg 1 s with
  | ok cs => exact .inl ⟨cs, rfl, solveEquation_agrees cfg f h⟩
  | error e =>
    obtain ⟨hfound, hshown⟩ := solveEquation_unreadable cfg f h (hread e h)
    exact .inr ⟨e, hfound, rfl, hshown⟩

end

/-- Coefficients for which there is no solution, and the failure that is shown. -/
theorem calculator_agrees_withoutSolution :
    ∃ r, Calculator.solvePolynomial {} { precision := 6 } [.int 0, .int 1] = .ok r ∧
      ShowsFailure (.noSolution "1") r := by
  have hfound : Surd.solvePolynomial {} [.int 0, .int 1] = .error (.noSolution "1") := by decide +kernel
  have hsmall : ∀ {n : Int}, n.natAbs ≤ 1 → Writable n := fun h => (Rational.writable_intCast h).1
  have hwritable : ∀ c ∈ [Number.int 0, .int 1], c.Writable := by simp [Number.Writable, hsmall]
  exact (((calculator_agrees {} { precision := 6 }).1 [.int 0, .int 1]).2 _ hfound rfl).1 hwritable

/-! ### A coefficient that is too long -/

namespace Equation

theorem ofDigitChars_nines (k a : Nat) : Nat.ofDigitChars 10 (List.replicate k '9') a + 1 = (a + 1) * 10 ^ k := by
  induction k generalizing a with
  | zero => simp
  | succ k ih =>
    have hnine : '9'.toNat - '0'.toNat = 9 := rfl
    rw [List.replicate_succ, Nat.ofDigitChars_cons, ih, hnine, pow_succ]
    ring

namespace Numeral

/-- A numeral of nines. -/
def nines (k : Nat) (hpos : k ≠ 0) (hle : k ≤ digitLimit) : Numeral where
  digits := List.replicate k '9'
  nonempty := by simpa using hpos
  plain := fun _ hc => by rw [List.eq_of_mem_replicate hc]; rfl
  short := (List.length_replicate ..).trans_le hle

theorem value_nines {k : Nat} (hpos : k ≠ 0) (hle : k ≤ digitLimit) : (nines k hpos hle).value + 1 = Nat.pow 10 k := by
  have h := ofDigitChars_nines k 0
  rwa [zero_add, one_mul] at h

end Numeral

/-- The equation `0x^2 + n + 1 = 0`. -/
def flatEquation (n : Numeral) : Written where
  left :=
    { bare := true
      first := { sign := .plus, body := .unknown (some ⟨.integer (.ofDigit 0), false⟩) false (.caret (.ofDigit 2)) }
      rest := [{ sign := .plus, body := .constant (.integer n) },
        { sign := .plus, body := .constant (.integer (.ofDigit 1)) }] }
  right := { bare := true, first := { sign := .plus, body := .constant (.integer (.ofDigit 0)) }, rest := [] }

theorem coefficient_flatEquation (n : Numeral) :
    (flatEquation n).coefficient 2 = 0 ∧ (flatEquation n).coefficient 1 = 0 ∧
      (flatEquation n).coefficient 0 = (n.value + 1 : Nat) := by
  have hzero : (Numeral.ofDigit 0).value = 0 := rfl
  have hone : (Numeral.ofDigit 1).value = 1 := rfl
  have htwo : (Numeral.ofDigit 2).value = 2 := rfl
  simp [Written.coefficient, Side.sum, Side.terms, flatEquation, Term.power, Body.power, Exponent.power,
    Term.coefficient, Sign.factor, Body.size, Body.multiplierValue, Quantity.value, hzero, hone, htwo]

theorem equationOf_flatEquation (n : Numeral) :
    equationOf {} 1 (flatEquation n).text = .ok [.gaussian 0, .gaussian 0, .gaussian (.ofRat (n.value + 1 : Nat))] := by
  have hlength : ((flatEquation n).text.length : Int) ≤ ({} : Settings).maxInputLength := by
    have hshort := n.short
    have hlimit : digitLimit = 4300 := rfl
    have hmax : ({} : Settings).maxInputLength = 10000 := rfl
    simp [flatEquation, Written.text, Written.write, Side.write, Term.write, Body.text, Body.multiplierText,
      Quantity.text, Exponent.text, Numeral.ofDigit]
    omega
  have hpower : ∀ t ∈ (flatEquation n).terms, (t.power : Int) ≤ ({} : Settings).maxDegree := by
    have hterms : (flatEquation n).terms.map Term.power = [2, 0, 0, 0] := rfl
    have hmax : ∀ k ∈ [(2 : Nat), 0, 0, 0], (k : Int) ≤ ({} : Settings).maxDegree := by decide
    exact fun t ht => hmax t.power (hterms ▸ List.mem_map_of_mem ht)
  have hmonomials := monomials_written {} (flatEquation n) (.refl _) hlength hpower
  have htop : topPower ((flatEquation n).allLeft.map Term.monomial) = 2 := rfl
  obtain ⟨htwo, hone, hzero⟩ := coefficient_flatEquation n
  rw [equationOf_of_monomials {} hmonomials, htop, if_neg (by decide), dense, htop]
  simp only [vector, max_eq_right (show 1 ≤ 2 by decide), coefficientOf_allLeft, htwo, hone, hzero]
  rfl

end Equation

open Equation

theorem flatEquation_escapes {n : Numeral} (h : Nat.pow 10 digitLimit ≤ n.value + 1) :
    Surd.solveEquation {} (flatEquation n).text = .error (.zeroLeading (some .quadratic)) ∧
      Calculator.solveEquation {} { precision := 6 } (flatEquation n).text = .error .tooLongToWrite := by
  have hread := equationOf_flatEquation n
  have hfound : Surd.solveEquation {} (flatEquation n).text = .error (.zeroLeading (some .quadratic)) := by
    rw [Surd.solveEquation, hread]
    rfl
  have hlong : ¬Writable (n.value + 1 : Nat) := by
    unfold Writable
    rw [Int.natAbs_natCast]
    exact not_lt.mpr h
  have hwritable : ¬Number.Writable (.gaussian (.ofRat (n.value + 1 : Nat))) := by
    rintro ⟨⟨hnum, _⟩, _⟩
    exact hlong hnum
  have hshown := ((solveEquation_agrees {} { precision := 6 } hread).2 _ hfound rfl).2
  exact ⟨hfound, hshown ⟨_, List.mem_cons_of_mem _ (List.mem_cons_of_mem _ (List.mem_singleton_self _)), hwritable⟩⟩

/-- The equation `0x^2 + 99…9 + 1 = 0` with 4300 nines. -/
def longEquation : Written := flatEquation (.nines digitLimit (by decide) le_rfl)

theorem solveEquation_longEquation :
    Surd.solveEquation {} longEquation.text = .error (.zeroLeading (some .quadratic)) ∧
      Calculator.solveEquation {} { precision := 6 } longEquation.text = .error .tooLongToWrite :=
  flatEquation_escapes (Numeral.value_nines (by decide) le_rfl).ge

end Surd
