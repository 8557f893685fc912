import Mathlib
import Surd.Proofs.Failures

/-!
# The search for a radical

A radical is found for a divisor, an offset next to a multiple of the fraction, and the integer next to
the square of their difference, which is the square of its root (`find?_eq_some`, `Found`).
-/

namespace Surd

/-! ## Square-free parts -/

theorem splitSquares_eq (c m k : Nat) : (splitSquares c m k).1 ^ 2 * (splitSquares c m k).2 = c ^ 2 * m := by
  induction c, m, k using splitSquares.induct with
  | case1 c m k h => rw [splitSquares, dif_pos h]
  | case2 c m k h _ hdvd _ ih =>
    rw [splitSquares, dif_neg h, if_pos hdvd, ih]
    have hdiv := Nat.div_mul_cancel (Nat.dvd_of_mod_eq_zero hdvd)
    calc (c * (k + 2)) ^ 2 * (m / ((k + 2) * (k + 2)))
        = c ^ 2 * (m / ((k + 2) * (k + 2)) * ((k + 2) * (k + 2))) := by ring
      _ = c ^ 2 * m := by rw [hdiv]
  | case3 c m k h _ hdvd ih =>
    rw [splitSquares, dif_neg h, if_neg hdvd, ih]

theorem squareFree_eq {k : Int} (hk : 0 ≤ k) : ((squareFree k).1 : Int) ^ 2 * (squareFree k).2 = k := by
  obtain ⟨n, rfl⟩ := Int.eq_ofNat_of_zero_le hk
  have h := splitSquares_eq 1 n 0
  rw [one_pow, one_mul] at h
  calc (((splitSquares 1 n 0).1 : Int) ^ 2 * ((splitSquares 1 n 0).2 : Int))
      = (((splitSquares 1 n 0).1 ^ 2 * (splitSquares 1 n 0).2 : Nat) : Int) := by push_cast; rfl
    _ = n := by rw [h]

namespace Radical

/-! ## Candidates -/

theorem isSquare_iff {n : Nat} : isSquare n = true ↔ IsSquare n := by
  rw [isSquare, beq_iff_eq, ← Nat.exists_mul_self]
  simp only [IsSquare, eq_comm]

theorem mem_insertByMagnitude {p q : Int} {l : List Int} : q ∈ insertByMagnitude p l ↔ q = p ∨ q ∈ l := by
  induction l with
  | nil => simp [insertByMagnitude]
  | cons r rest ih =>
    rw [insertByMagnitude]
    split
    · rw [List.mem_cons]
    · rw [List.mem_cons, List.mem_cons, ih]
      exact or_left_comm

theorem mem_foldr_insertByMagnitude {q : Int} {l : List Int} : q ∈ l.foldr insertByMagnitude [] ↔ q ∈ l := by
  induction l with
  | nil => rfl
  | cons p rest ih => rw [List.foldr_cons, mem_insertByMagnitude, ih, List.mem_cons]

theorem abs_sub_le_of_mem_offsets {p nearest : Int} {span : Nat} (h : p ∈ offsets nearest span) :
    |p - nearest| ≤ span := by
  obtain ⟨i, hi, rfl⟩ := List.mem_map.mp (mem_foldr_insertByMagnitude.mp h)
  rw [List.mem_range] at hi
  rw [abs_le]
  omega

/-! ## What is found -/

/-- A radical that is taken for `t` over the divisor: its root is within the tolerance of what `t` has
beyond the offset, and the square of that is next to the square of the root. -/
structure Found (cfg : Settings) (divisor : Nat) (tolerance t : Binary64) (r : Radical) : Prop where
  coefficient_ne : r.coefficient ≠ 0
  two_le : 2 ≤ r.coefficient ^ 2 * r.radicand
  le_max : r.coefficient ^ 2 * r.radicand ≤ cfg.maxRadicand
  not_square : ¬IsSquare (r.coefficient ^ 2 * r.radicand)
  divisor_eq : r.divisor = divisor
  square : ((t - .ofRat r.offset) * (t - .ofRat r.offset)).round = .ok (r.coefficient ^ 2 * r.radicand)
  sign : (t - .ofRat r.offset).isPositive = decide (0 < r.coefficient)
  root : ∃ y, cfg.elementary.sqrt (.ofRat (r.coefficient ^ 2 * r.radicand : Int)) = .ok y ∧
    tolerance.lt (y - (t - .ofRat r.offset).abs).abs = false

variable {cfg : Settings}

/-- What is found at an offset is the split of an integer that passes the three filters: it is from 2 up to the limit
and no square, and its root is near. -/
theorem withOffset?_parts {divisor : Nat} {tolerance t : Binary64} {p : Int} {r : Radical}
    (h : withOffset? cfg divisor tolerance t p = .ok (some r)) :
    ∃ k y, ((t - .ofRat p) * (t - .ofRat p)).round = .ok k ∧ 2 ≤ k ∧ k ≤ cfg.maxRadicand ∧ ¬IsSquare k ∧
      cfg.elementary.sqrt (.ofRat k) = .ok y ∧ tolerance.lt (y - (t - .ofRat p).abs).abs = false ∧
      r = ⟨p, if (t - .ofRat p).isPositive then (squareFree k).1 else -(squareFree k).1, (squareFree k).2, divisor⟩ := by
  unfold withOffset? at h
  dsimp only at h
  obtain ⟨k, hk, h⟩ := bind_ok_iff.mp h
  split at h
  · cases h
  · rename_i hrange
    simp only [Bool.or_eq_true, decide_eq_true_eq, not_or, not_lt] at hrange
    obtain ⟨⟨htwo, hmax⟩, hsquare⟩ := hrange
    obtain ⟨y, hy, h⟩ := bind_ok_iff.mp h
    split at h
    · cases h
    · rename_i htolerance
      cases h
      refine ⟨k, y, hk, htwo, hmax, ?_, hy, by simpa using htolerance, rfl⟩
      rintro ⟨n, rfl⟩
      exact hsquare (isSquare_iff.mpr ⟨n.natAbs, by rw [← Int.natAbs_mul_self, Int.toNat_natCast]⟩)

theorem withOffset?_eq_some {divisor : Nat} {tolerance t : Binary64} {p : Int} {r : Radical}
    (h : withOffset? cfg divisor tolerance t p = .ok (some r)) : r.offset = p ∧ Found cfg divisor tolerance t r := by
  obtain ⟨k, y, hk, htwo, hmax, hsquare, hy, htolerance, rfl⟩ := withOffset?_parts h
  -- the sign of the coefficient does not change its square
  have hsplit : ((if (t - .ofRat p).isPositive = true then ((squareFree k).1 : Int) else -(squareFree k).1) ^ 2 *
      (squareFree k).2 : Int) = k := by
    refine Eq.trans ?_ (squareFree_eq (show 0 ≤ k by omega))
    split
    · rfl
    · rw [neg_sq]
  have hroot : ((squareFree k).1 : Int) ≠ 0 := by
    intro hzero
    rw [hzero, neg_zero, ite_self, zero_pow two_ne_zero, zero_mul] at hsplit
    omega
  have hpos : 0 < ((squareFree k).1 : Int) := by omega
  refine ⟨rfl, ?_, ?_, ?_, ?_, rfl, ?_, ?_, ⟨y, ?_, htolerance⟩⟩
  · dsimp only
    split <;> omega
  · rwa [hsplit]
  · rwa [hsplit]
  · rwa [hsplit]
  · rw [hsplit]
    exact hk
  · dsimp only
    cases (t - Binary64.ofRat p).isPositive
    · simp
    · simpa using hpos
  · rw [hsplit]
    exact hy

/-- What is found for a double is found for one of its multiples and an offset next to that. -/
theorem ofDouble?_eq_some {v : Binary64} {r : Radical} (h : ofDouble? cfg v = .ok (some r)) :
    ∃ d n p, d < cfg.maxRadicalDivisor.toNat ∧ (v * .ofRat (d + 1 : Nat)).round = .ok n ∧
      |p - n| ≤ (Nat.sqrt cfg.maxRadicand.toNat + 1 : Nat) ∧
      withOffset? cfg (d + 1) (cfg.radicalTolerance * .ofRat (d + 1 : Nat)) (v * .ofRat (d + 1 : Nat)) p =
        .ok (some r) := by
  unfold ofDouble? at h
  split at h
  · cases h
  · obtain ⟨divisor, hmem, h⟩ := findSomeM?_eq_some h
    obtain ⟨d, hd, rfl⟩ := List.mem_map.mp hmem
    obtain ⟨n, hn, h⟩ := bind_ok_iff.mp h
    obtain ⟨p, hp, h⟩ := findSomeM?_eq_some h
    exact ⟨d, n, p, List.mem_range.mp hd, hn, abs_sub_le_of_mem_offsets hp, h⟩

theorem find?_of_ok {x : Rat} {v : Binary64} (hden : ¬(x.den : Int) < cfg.radicalMinDenominator)
    (hv : Binary64.ofFraction x = .ok v) : find? cfg x = ofDouble? cfg v := by
  rw [find?, if_neg hden, hv]
  rfl

theorem find?_of_error {x : Rat} {e : Failure} (hv : Binary64.ofFraction x = .error e) : find? cfg x = .ok none := by
  rw [find?, hv]
  exact ite_self _

theorem find?_ofDouble? {x : Rat} {r : Radical} (h : find? cfg x = .ok (some r)) :
    cfg.radicalMinDenominator ≤ x.den ∧ ∃ v, Binary64.ofFraction x = .ok v ∧ ofDouble? cfg v = .ok (some r) := by
  by_cases hden : (x.den : Int) < cfg.radicalMinDenominator
  · rw [find?, if_pos hden] at h
    cases h
  · refine ⟨not_lt.mp hden, ?_⟩
    cases hv : Binary64.ofFraction x with
    | error e =>
      rw [find?_of_error hv] at h
      cases h
    | ok v =>
      rw [find?_of_ok hden hv] at h
      exact ⟨v, rfl, h⟩

/-- A fraction that a radical is found for has a large denominator and a double, of which some multiple
is next to the radical. -/
theorem find?_eq_some {x : Rat} {r : Radical} (h : find? cfg x = .ok (some r)) :
    cfg.radicalMinDenominator ≤ x.den ∧ ∃ v d n, Binary64.ofFraction x = .ok v ∧ d < cfg.maxRadicalDivisor.toNat ∧
      (v * .ofRat (d + 1 : Nat)).round = .ok n ∧ |r.offset - n| ≤ (Nat.sqrt cfg.maxRadicand.toNat + 1 : Nat) ∧
      Found cfg (d + 1) (cfg.radicalTolerance * .ofRat (d + 1 : Nat)) (v * .ofRat (d + 1 : Nat)) r := by
  obtain ⟨hden, v, hv, h⟩ := find?_ofDouble? h
  obtain ⟨d, n, p, hd, hn, hp, h⟩ := ofDouble?_eq_some h
  obtain ⟨rfl, hfound⟩ := withOffset?_eq_some h
  exact ⟨hden, v, d, n, hv, hd, hn, hp, hfound⟩

end Radical

end Surd
