import Mathlib
import Surd.Proofs.Equation.Solving
import Surd.Proofs.Failures

/-!
# Equations that cannot be read

An equation that is not accepted fails with a code, with one exception: a power with too many digits
for an integer, nearly all of them zeros in front. The limit on powers is compared without these
zeros, so the power is read, and `solveEquation_escapes`: the failure to do so is not caught.
-/

namespace Surd

namespace Equation

/-! ## Terms -/

section
variable (cfg : Settings)

theorem coded_terms (s : List Char) : FailsOnly Coded (terms cfg s) := by
  unfold terms
  dsimp only
  split
  · exact .throw rfl
  · split
    · exact .throw rfl
    · split
      · exact .throw rfl
      · exact .pure _

theorem signed_ne_nil (p : List Char) : signed p ≠ [] := by
  cases p with
  | nil => simp [signed]
  | cons c p =>
    rw [signed]
    split <;> simp

theorem flip_ne_nil {t : List Char} (h : t ≠ []) : flip t ≠ [] := by
  unfold flip
  split
  · simp
  · simp
  · exact h

theorem ne_nil_of_mem_terms {s : List Char} {ts : List (List Char)} (h : terms cfg s = .ok ts) :
    ∀ t ∈ ts, t ≠ [] := by
  have hsplit : ∀ side : List Char, ∀ t ∈ splitTerms side, t ≠ [] := by
    intro side t ht
    obtain ⟨p, _, rfl⟩ := List.mem_map.mp ht
    exact signed_ne_nil p
  unfold terms at h
  dsimp only at h
  split at h
  · cases h
  · split at h
    · cases h
    · split at h
      · cases h
      · cases h
        intro t ht
        rcases List.mem_append.mp ht with ht | ht
        · exact hsplit _ t ht
        · obtain ⟨u, hu, rfl⟩ := List.mem_map.mp ht
          exact flip_ne_nil (hsplit _ u hu)

theorem coded_body {term : List Char} (h : term ≠ []) : FailsOnly Coded (body term) := by
  match term with
  | [] => exact absurd rfl h
  | [_] => exact .throw rfl
  | _ :: _ :: _ => exact .pure _

/-! ## Coefficients and powers -/

theorem coded_coefficient (digits term : List Char) : FailsOnly Coded (coefficient cfg digits term) := by
  unfold coefficient
  split
  · exact .pure _
  · have hread := Rational.caught_read cfg digits
    cases hr : Rational.read cfg digits with
    | ok q => exact .pure _
    | error f =>
      dsimp only
      split
      · exact .throw rfl
      · rename_i hkind
        exact .throw ((coded_or_of_caught (hread f hr)).resolve_right hkind)

/-- Digits that the limit on powers lets through, since most of them are zeros in front, although
there are too many for an integer. -/
def Padded (ds : List Char) : Prop :=
  digitLimit < ds.length ∧ (ds.dropWhile (· == '0')).length ≤ (Text.signedDigits cfg.maxDegree).length

theorem power_uncoded_iff {ds : List Char} (hne : ds ≠ []) (hd : ∀ c ∈ ds, Text.isDigit c = true)
    (term : List Char) (e : Failure) :
    (power cfg ds term = .error e ∧ ¬Coded e) ↔ Padded cfg ds ∧ e = .tooManyDigits ds.length := by
  unfold power
  dsimp only
  by_cases hlimit : (Text.signedDigits cfg.maxDegree).length < (ds.dropWhile (· == '0')).length
  · -- the limit stops the digits before they are read
    rw [if_pos hlimit]
    refine iff_of_false (FailsOnly.not_escapes ?_) fun h => absurd hlimit (Nat.not_lt.mpr h.1.2)
    exact .throw rfl
  rw [if_neg hlimit, Text.readInt_digits hne hd]
  by_cases hlong : digitLimit < ds.length
  · rw [if_pos hlong, error_bind]
    constructor
    · intro h
      cases h.1
      exact ⟨⟨hlong, Nat.not_lt.mp hlimit⟩, rfl⟩
    · intro h
      rw [h.2]
      exact ⟨rfl, by simp [Coded, Failure.kind, Kind.isCoded, Kind.isSolver]⟩
  · rw [if_neg hlong, ok_bind]
    refine iff_of_false (FailsOnly.not_escapes ?_) fun h => hlong h.1.1
    split
    · exact .throw rfl
    · exact .pure _

theorem takePower_digits {s ds : List Char} (h : takePower s = some (some ds)) :
    ds ≠ [] ∧ ∀ c ∈ ds, Text.isDigit c = true := by
  unfold takePower at h
  split at h
  · cases h
  · split at h
    · rename_i rest
      dsimp only at h
      split at h
      · rename_i hdigits
        cases h
        rw [Bool.and_eq_true] at hdigits
        exact ⟨by simpa using hdigits.1, fun c hc => List.mem_takeWhile_imp hc⟩
      · cases h
    · cases h

theorem parts_digits {s digits ds : List Char} {x : Bool} (h : parts s = some (digits, x, some ds)) :
    ds ≠ [] ∧ ∀ c ∈ ds, Text.isDigit c = true := by
  unfold parts at h
  dsimp only at h
  obtain ⟨power, hpower, hparts⟩ := Option.map_eq_some_iff.mp h
  cases hparts
  exact takePower_digits hpower

/-! ## Monomials -/

/-- A term with a coefficient that can be read and a power that cannot. -/
def PaddedTerm (term ds : List Char) : Prop :=
  ∃ negative rest digits q, body term = .ok (negative, rest) ∧ parts rest = some (digits, true, some ds) ∧
    coefficient cfg digits term = .ok q ∧ Padded cfg ds

theorem monomial_uncoded_iff {term : List Char} (h : term ≠ []) (e : Failure) :
    (monomial cfg term = .error e ∧ ¬Coded e) ↔
      ∃ ds, PaddedTerm cfg term ds ∧ e = .tooManyDigits ds.length := by
  constructor
  · intro hfails
    unfold monomial at hfails
    obtain ⟨⟨negative, rest⟩, hbody, he, hcode⟩ := (coded_body h).escapes_bind_iff.mp hfails
    dsimp only at he
    split at he
    · cases he
      exact absurd rfl hcode
    rename_i digits hasVariable exponent hparts
    split at he
    · cases he
      exact absurd rfl hcode
    split at he
    · cases he
      exact absurd rfl hcode
    -- of what is left, only reading the power may fail without a code
    obtain ⟨q, hq, he, _⟩ := (coded_coefficient cfg digits term).escapes_bind_iff.mp ⟨he, hcode⟩
    cases hasVariable with
    | false => cases he
    | true =>
      cases exponent with
      | none => cases he
      | some ds =>
        obtain ⟨hne, hd⟩ := parts_digits hparts
        have hpower := (FailsOnly.escapes_bind_iff_first fun _ _ => .pure _).mp ⟨he, hcode⟩
        obtain ⟨hpad, rfl⟩ := (power_uncoded_iff cfg hne hd term e).mp hpower
        exact ⟨ds, ⟨negative, rest, digits, q, hbody, hparts, hq, hpad⟩, rfl⟩
  · intro h
    obtain ⟨ds, ⟨negative, rest, digits, q, hbody, hparts, hq, hpad⟩, rfl⟩ := h
    obtain ⟨hne, hd⟩ := parts_digits hparts
    obtain ⟨hpower, hcode⟩ := (power_uncoded_iff cfg hne hd term _).mpr ⟨hpad, rfl⟩
    refine ⟨?_, hcode⟩
    unfold monomial
    simp [hbody, hparts, hq, hpower, bind, Except.bind]

/-! ## Equations -/

theorem monomials_uncoded_iff (s : List Char) (e : Failure) :
    (monomials cfg s = .error e ∧ ¬Coded e) ↔
      ∃ before term after ds, terms cfg s = .ok (before ++ term :: after) ∧
        (∀ t ∈ before, ∃ m, monomial cfg t = .ok m) ∧ PaddedTerm cfg term ds ∧
        e = .tooManyDigits ds.length := by
  unfold monomials
  rw [(coded_terms cfg s).escapes_bind_iff]
  constructor
  · intro h
    obtain ⟨ts, hterms, he, hcode⟩ := h
    obtain ⟨before, term, after, rfl, hbefore, hterm⟩ := mapM_error_iff.mp he
    have hne := ne_nil_of_mem_terms cfg hterms term (by simp)
    obtain ⟨ds, hpad, hds⟩ := (monomial_uncoded_iff cfg hne e).mp ⟨hterm, hcode⟩
    exact ⟨before, term, after, ds, hterms, hbefore, hpad, hds⟩
  · intro h
    obtain ⟨before, term, after, ds, hterms, hbefore, hpad, hds⟩ := h
    have hne := ne_nil_of_mem_terms cfg hterms term (by simp)
    obtain ⟨hterm, hcode⟩ := (monomial_uncoded_iff cfg hne e).mpr ⟨ds, hpad, hds⟩
    exact ⟨_, hterms, mapM_error_iff.mpr ⟨before, term, after, rfl, hbefore, hterm⟩, hcode⟩

end

/-- The unknown with a power. -/
def powerPiece (ds : List Char) (hne : ds ≠ []) (hd : ∀ c ∈ ds, Text.isDigit c = true) : Piece where
  text := 'x' :: '^' :: ds
  nonempty := by simp
  chars := by
    rw [List.forall_mem_cons, List.forall_mem_cons]
    exact ⟨.inr (by decide), .inr (by decide), fun c hc => .inl (hd c hc)⟩
  last := by
    rw [List.getLast?_cons_cons, List.getLast?_cons_of_ne_nil hne]
    rintro c hc rfl
    exact absurd (hd '^' (List.mem_of_getLast? hc)) (by decide)

/-- A power of two with zeros in front. -/
theorem monomials_zeros (k : Nat) (hlong : digitLimit ≤ k) (hk : k ≤ 9990) :
    monomials {} ('x' :: '^' :: (List.replicate k '0' ++ ['2', '=', '1'])) = .error (.tooManyDigits (k + 1)) ∧
      ¬Coded (.tooManyDigits (k + 1)) := by
  obtain ⟨ds, hds⟩ : ∃ ds, ds = List.replicate k '0' ++ ['2'] := ⟨_, rfl⟩
  have hne : ds ≠ [] := by simp [hds]
  have hdigits : ∀ c ∈ ds, c.isDigit = true := by
    rw [hds]
    exact List.forall_mem_append.mpr ⟨fun c hc => List.eq_of_mem_replicate hc ▸ rfl, by simp⟩
  have hd : ∀ c ∈ ds, Text.isDigit c = true := fun c hc => Text.isDigit_of_plain (hdigits c hc)
  have hlength : ds.length = k + 1 := by simp [hds]
  have hzeros : ds.dropWhile (· == '0') = ['2'] := by
    rw [hds, Text.dropWhile_append_stop (fun c hc => by simp [List.eq_of_mem_replicate hc]) (by simp)]
  have hterms : terms {} (('x' :: '^' :: ds) ++ '=' :: ['1']) = .ok ['+' :: 'x' :: '^' :: ds, '-' :: ['1']] := by
    refine Piece.terms_eq {} (powerPiece ds hne hd) (.ofText ['1'] (by simp) (by simp; decide)) ?_
    have hmax : ({} : Settings).maxInputLength = 10000 := rfl
    simp only [powerPiece, Piece.ofText, List.length_append, List.length_cons, List.length_nil, hlength]
    omega
  have hparts : parts ('x' :: '^' :: ds) = some ([], true, some ds) := by
    simp [parts, takeCoefficient_unknown, takePower, isEnd, Text.takeWhile_eq_self hd, Text.dropWhile_eq_nil hd, hne]
  have hpadded : Padded {} ds := ⟨by omega, by rw [hzeros]; decide⟩
  have hsplit : 'x' :: '^' :: (List.replicate k '0' ++ ['2', '=', '1']) = ('x' :: '^' :: ds) ++ '=' :: ['1'] := by
    simp [hds]
  rw [hsplit, monomials_uncoded_iff]
  exact ⟨[], _, _, ds, hterms, by simp, ⟨false, _, [], 1, rfl, hparts, rfl, hpadded⟩, by rw [hlength]⟩

end Equation

theorem equationOf_uncoded_iff (cfg : Settings) (s : List Char) (e : Failure) :
    (equationOf cfg 1 s = .error e ∧ ¬Coded e) ↔ (Equation.monomials cfg s = .error e ∧ ¬Coded e) := by
  cases hms : Equation.monomials cfg s with
  | error e' =>
    simp only [equationOf_of_monomials_error cfg hms, Except.error.injEq]
  | ok ms =>
    rw [equationOf_of_monomials cfg hms]
    split
    · simp only [Except.error.injEq, reduceCtorEq, false_and, iff_false, not_and, not_not]
      rintro rfl
      rfl
    · simp

/-- The failures to read an equation that escape the calculator: a term has too many digits in its
power, most of them zeros in front, after terms that can be read. -/
theorem solveEquation_escapes (cfg : Settings) (f : Format) (s : List Char) (e : Failure) :
    (equationOf cfg 1 s = .error e ∧ Calculator.solveEquation cfg f s = .error e) ↔
      ∃ before term after ds, Equation.terms cfg s = .ok (before ++ term :: after) ∧
        (∀ t ∈ before, ∃ m, Equation.monomial cfg t = .ok m) ∧ Equation.PaddedTerm cfg term ds ∧
        e = .tooManyDigits ds.length := by
  rw [← Equation.monomials_uncoded_iff, ← equationOf_uncoded_iff]
  constructor
  · intro h
    obtain ⟨he, hsolve⟩ := h
    refine ⟨he, fun hcode => ?_⟩
    rw [Calculator.solveEquation, he] at hsolve
    dsimp only at hsolve
    rw [if_pos (show e.kind.isCoded = true from hcode)] at hsolve
    cases hsolve
  · intro h
    obtain ⟨he, hcode⟩ := h
    refine ⟨he, ?_⟩
    rw [Calculator.solveEquation, he]
    exact if_neg hcode

/-- The equation `x^2 = 1` with 4300 zeros in front of its power. -/
def paddedEquation : List Char := 'x' :: '^' :: (List.replicate 4300 '0' ++ ['2', '=', '1'])

theorem solveEquation_paddedEquation :
    Calculator.solveEquation {} { precision := 6 } paddedEquation = .error (.tooManyDigits 4301) := by
  have hmonomials := Equation.monomials_zeros 4300 (by decide) (by decide)
  obtain ⟨h, _⟩ := (equationOf_uncoded_iff {} _ _).mpr hmonomials
  have hpadded : equationOf {} 1 paddedEquation = .error (.tooManyDigits 4301) := h
  rw [Calculator.solveEquation, hpadded]
  rfl

end Surd
