import Mathlib
import Surd.Proofs.Equation.Solving

/-!
# The degree and the coefficients

No term has a power above the limit, so within the limit the coefficients are read from the terms that the
degree is read from, and fail where it fails. A larger degree only puts zeros in front, and a smaller one
is refused: `coefficients_degree`.
-/

namespace Surd.Equation

/-! ## Powers within the limit -/

section
variable {cfg : Settings} (hmax : 1 ≤ cfg.maxDegree)
include hmax

theorem power_le_maxDegree {digits term : List Char} {k : Nat} (h : power cfg digits term = .ok k) :
    (k : Int) ≤ cfg.maxDegree := by
  unfold power at h
  dsimp only at h
  by_cases hlong : (Text.signedDigits cfg.maxDegree).length < (digits.dropWhile (· == '0')).length
  · rw [if_pos hlong] at h
    cases h
  · rw [if_neg hlong] at h
    obtain ⟨n, _, hn⟩ := bind_ok_iff.mp h
    by_cases hlimit : cfg.maxDegree < n
    · rw [if_pos hlimit] at hn
      cases hn
    · rw [if_neg hlimit] at hn
      cases hn
      omega

/-- A variable without a power counts as its first power, whatever the limit. -/
theorem monomial_power_le {term : List Char} {m : Monomial}
    (h : monomial cfg term = .ok m) : (m.power : Int) ≤ cfg.maxDegree := by
  unfold monomial at h
  obtain ⟨⟨negative, rest⟩, _, h⟩ := bind_ok_iff.mp h
  dsimp only at h
  split at h
  · cases h
  rename_i digits hasVariable exponent _
  split at h
  · cases h
  split at h
  · cases h
  obtain ⟨q, _, h⟩ := bind_ok_iff.mp h
  cases hasVariable with
  | false =>
    cases h
    exact le_trans zero_le_one hmax
  | true =>
    cases exponent with
    | none =>
      cases h
      exact hmax
    | some ds =>
      obtain ⟨k, hk, h⟩ := bind_ok_iff.mp h
      cases h
      exact power_le_maxDegree hmax hk

theorem monomialWithin_maxDegree (term : List Char) :
    monomialWithin cfg cfg.maxDegree term = monomial cfg term := by
  cases h : monomial cfg term with
  | error e =>
    unfold monomialWithin
    rw [h]
    rfl
  | ok m => exact monomialWithin_of_le cfg h (monomial_power_le hmax h)

theorem power_le_of_monomials {s : List Char} {ms : List Monomial}
    (h : monomials cfg s = .ok ms) : ∀ m ∈ ms, (m.power : Int) ≤ cfg.maxDegree := by
  obtain ⟨ts, _, hms⟩ := bind_ok_iff.mp h
  intro m hm
  obtain ⟨i, hi, rfl⟩ := List.getElem_of_mem hm
  have hall := List.forall₂_iff_get.mp (mapM_ok_iff.mp hms)
  exact monomial_power_le hmax (hall.2 i (hall.1 ▸ hi) hi)

theorem topPower_le_maxDegree {s : List Char} {ms : List Monomial}
    (h : monomials cfg s = .ok ms) : (topPower ms : Int) ≤ cfg.maxDegree := by
  by_cases hzero : topPower ms = 0
  · omega
  · obtain ⟨m, hm, hpower⟩ := exists_power_eq_topPower (Nat.pos_of_ne_zero hzero)
    rw [← hpower]
    exact power_le_of_monomials hmax h m hm

/-! ## Reading within the limit -/

/-- At the limit, the coefficients fail like the monomials do. -/
theorem coefficients_maxDegree_error {s : List Char} {e : Failure}
    (h : monomials cfg s = .error e) : coefficients cfg s cfg.maxDegree = .error e := by
  unfold monomials at h
  unfold coefficients
  rw [if_neg (lt_irrefl _), funext (monomialWithin_maxDegree hmax)]
  rcases bind_error_iff.mp h with hterms | ⟨ts, hterms, hts⟩
  · rw [hterms]
    rfl
  · rw [hterms, ok_bind, hts]
    rfl

end

/-! ## Other degrees -/

theorem vector_add {ms : List Monomial} {n : Nat} (h : topPower ms < n) (k : Nat) :
    vector ms (k + n) = List.replicate k 0 ++ vector ms n := by
  induction k with
  | zero => simp
  | succ k ih =>
    have habove : topPower ms < k + n := by omega
    rw [Nat.succ_add, vector, coefficientOf_above habove, ih]
    rfl

section
variable (cfg : Settings)

/-- The first term above the degree is refused. -/
theorem mapM_monomialWithin_error {degree : Int} {ts : List (List Char)} {ms : List Monomial}
    (h : ts.mapM (monomial cfg) = .ok ms) {m : Monomial} (hm : m ∈ ms) (hlt : degree < m.power) :
    ∃ term ∈ ts, ts.mapM (monomialWithin cfg degree) =
      .error (.termAboveDegree (String.ofList term) (quote term) degree) := by
  induction ts generalizing ms with
  | nil =>
    cases h
    cases hm
  | cons t ts ih =>
    rw [List.mapM_cons] at h
    obtain ⟨n, hn, h⟩ := bind_ok_iff.mp h
    obtain ⟨ns, hns, h⟩ := bind_ok_iff.mp h
    cases h
    by_cases hle : (n.power : Int) ≤ degree
    · have hrest : m ∈ ns := by
        rcases List.mem_cons.mp hm with rfl | hrest
        · omega
        · exact hrest
      obtain ⟨term, hterm, herror⟩ := ih hns hrest
      refine ⟨term, List.mem_cons_of_mem t hterm, ?_⟩
      rw [List.mapM_cons, monomialWithin_of_le cfg hn hle, ok_bind, herror]
      rfl
    · have hhead : monomialWithin cfg degree t = .error (.termAboveDegree (String.ofList t) (quote t) degree) := by
        unfold monomialWithin
        rw [hn, ok_bind, if_pos (not_le.mp hle)]
        rfl
      refine ⟨t, List.mem_cons_self .., ?_⟩
      rw [List.mapM_cons, hhead]
      rfl

variable {s : List Char} {ms : List Monomial} (h : monomials cfg s = .ok ms)
include h

theorem degree_of_monomials : degree cfg s = .ok (topPower ms) := by
  unfold degree
  rw [h]
  rfl

theorem coefficients_of_topPower_le {d : Nat} (hle : topPower ms ≤ d) (hdeg : (d : Int) ≤ cfg.maxDegree) :
    coefficients cfg s d = .ok ((vector ms (d + 1)).map .ofRat) := by
  have hpower : ∀ m ∈ ms, (m.power : Int) ≤ d := fun m hm => by
    have := power_le_topPower hm
    omega
  exact coefficients_of_monomials cfg h hpower hdeg

theorem coefficients_of_lt_topPower {d : Nat} (hlt : d < topPower ms) (hdeg : (d : Int) ≤ cfg.maxDegree) :
    ∃ term, coefficients cfg s d = .error (.termAboveDegree (String.ofList term) (quote term) d) := by
  obtain ⟨ts, hterms, hts⟩ := bind_ok_iff.mp h
  obtain ⟨m, hm, hpower⟩ := exists_power_eq_topPower (Nat.zero_lt_of_lt hlt)
  have habove : (d : Int) < m.power := by omega
  obtain ⟨term, _, herror⟩ := mapM_monomialWithin_error cfg hts hm habove
  refine ⟨term, ?_⟩
  unfold coefficients
  rw [if_neg (not_lt.mpr hdeg), hterms, ok_bind, herror]
  rfl

end

/-- From the degree up to the limit the coefficients are those at the degree, after zeros; below the
degree they cannot be read, and where there is no degree they fail in the same way. -/
theorem coefficients_degree (cfg : Settings) (hmax : 1 ≤ cfg.maxDegree) (s : List Char) :
    (∀ k, degree cfg s = .ok k → (k : Int) ≤ cfg.maxDegree ∧
      (∃ v, coefficients cfg s k = .ok v ∧ ∀ d : Nat, k ≤ d → (d : Int) ≤ cfg.maxDegree →
        coefficients cfg s d = .ok (List.replicate (d - k) 0 ++ v)) ∧
      ∀ d : Nat, d < k → ∃ e, coefficients cfg s d = .error e ∧ e.kind = .parse) ∧
    ∀ e, degree cfg s = .error e → coefficients cfg s cfg.maxDegree = .error e := by
  cases h : monomials cfg s with
  | error f =>
    have hdegree : degree cfg s = .error f := by
      unfold degree
      rw [h]
      rfl
    refine ⟨fun k hk => ?_, fun e he => ?_⟩
    · rw [hdegree] at hk
      cases hk
    · rw [hdegree] at he
      cases he
      exact coefficients_maxDegree_error hmax h
  | ok ms =>
    rw [degree_of_monomials cfg h]
    refine ⟨fun k hk => ?_, fun e he => ?_⟩
    · cases hk
      have htop := topPower_le_maxDegree hmax h
      refine ⟨htop, ⟨_, coefficients_of_topPower_le cfg h le_rfl htop, fun d hle hdeg => ?_⟩, fun d hlt => ?_⟩
      · have hsplit : d + 1 = (d - topPower ms) + (topPower ms + 1) := by omega
        rw [coefficients_of_topPower_le cfg h hle hdeg, hsplit, vector_add (Nat.lt_succ_self _), List.map_append,
          List.map_replicate]
        rfl
      · obtain ⟨term, hterm⟩ := coefficients_of_lt_topPower cfg h hlt (by omega)
        exact ⟨_, hterm, rfl⟩
    · cases he

/-- `x^2 = 4` has degree two, `x^2 = y` none. -/
theorem coefficients_degree_square :
    1 ≤ ({} : Settings).maxDegree ∧ degree {} "x^2 = 4".toList = .ok 2 ∧
      coefficients {} "x^2 = 4".toList 2 = .ok [1, 0, .ofRat (-4)] ∧
      coefficients {} "x^2 = 4".toList 4 = .ok [0, 0, 1, 0, .ofRat (-4)] ∧
      (∃ e, coefficients {} "x^2 = 4".toList 1 = .error e ∧ e.kind = .parse) ∧
      ∃ e, degree {} "x^2 = y".toList = .error e ∧ coefficients {} "x^2 = y".toList 200 = .error e := by
  have hmax : 1 ≤ ({} : Settings).maxDegree := by decide
  have hdegree : degree {} "x^2 = 4".toList = .ok 2 := by decide +kernel
  have hvector : coefficients {} "x^2 = 4".toList 2 = .ok [1, 0, .ofRat (-4)] := by decide +kernel
  have hnone : degree {} "x^2 = y".toList = .error (.unreadableTerm "-y" "'-y'") := by decide +kernel
  obtain ⟨_, ⟨v, hv, hpad⟩, hlow⟩ := (coefficients_degree {} hmax "x^2 = 4".toList).1 2 hdegree
  obtain rfl : [1, 0, .ofRat (-4)] = v := Except.ok.inj (hvector.symm.trans hv)
  exact ⟨hmax, hdegree, hvector, hpad 4 (by decide) (by decide), hlow 1 (by decide), _, hnone,
    (coefficients_degree {} hmax "x^2 = y".toList).2 _ hnone⟩

end Surd.Equation
