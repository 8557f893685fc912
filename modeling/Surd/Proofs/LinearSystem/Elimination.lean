import Mathlib
import Surd.LinearSystem
import Surd.Proofs.Computation
import Surd.Proofs.Gaussian.Field

/-!
# Elimination keeps the solutions

Where the pivot is not zero, the first unknown is determined by the pivot's equation and the others
by the equations that are left. So elimination finds the only solution or none: `eliminate_sound`.
-/

namespace Surd.LinearSystem

/-! ## Left sides -/

/-- The sum of the products of coefficients and values. -/
def dot (cs xs : List Gaussian) : Gaussian := (cs.zipWith (· * ·) xs).sum

theorem dot_cons (c x : Gaussian) (cs xs : List Gaussian) : dot (c :: cs) (x :: xs) = c * x + dot cs xs := by
  rw [dot, List.zipWith_cons_cons, List.sum_cons, dot]

theorem foldl_sub_mul (cs xs : List Gaussian) (c : Gaussian) :
    (cs.zip xs).foldl (fun t (a, x) => t - a * x) c = c - dot cs xs := by
  induction cs generalizing xs c with
  | nil => simp [dot]
  | cons a cs ih =>
    cases xs with
    | nil => simp [dot]
    | cons x xs =>
      rw [List.zip_cons_cons, List.foldl_cons, ih, dot_cons]
      ring

theorem dot_sub_mul {cs ps : List Gaussian} (h : cs.length = ps.length) (f : Gaussian) (xs : List Gaussian) :
    dot (cs.zipWith (fun c p => c - f * p) ps) xs = dot cs xs - f * dot ps xs := by
  induction cs generalizing ps xs with
  | nil =>
    cases ps with
    | nil => simp [dot]
    | cons p ps => cases h
  | cons c cs ih =>
    cases ps with
    | nil => cases h
    | cons p ps =>
      cases xs with
      | nil => simp [dot]
      | cons x xs =>
        rw [List.zipWith_cons_cons, dot_cons, dot_cons, dot_cons, ih (Nat.succ.inj h)]
        ring

namespace Row

def Holds (r : Row) (xs : List Gaussian) : Prop := dot r.coefficients xs = r.constant

theorem dot_lead {r : Row} {n : Nat} (h : r.coefficients.length = n + 1) (x : Gaussian) (xs : List Gaussian) :
    dot r.coefficients (x :: xs) = r.lead * x + dot r.coefficients.tail xs := by
  unfold lead
  cases hc : r.coefficients with
  | nil => rw [hc] at h; cases h
  | cons c cs => exact dot_cons c x cs xs

/-! ## One step -/

/-- What is left of an equation when the multiple of the pivot is taken away. -/
def reduced (p r : Row) : Row where
  coefficients := r.coefficients.tail.zipWith (fun x y => x - r.lead / p.lead * y) p.coefficients.tail
  constant := r.constant - r.lead / p.lead * p.constant

theorem reduce_eq {p : Row} (h : p.lead ≠ 0) (r : Row) : p.reduce r = .ok (p.reduced r) := by
  rw [reduce, Gaussian.div_of_ne_zero _ h]
  rfl

theorem mapM_reduce {p : Row} (h : p.lead ≠ 0) (rows : List Row) :
    rows.mapM p.reduce = .ok (rows.map p.reduced) :=
  mapM_eq_ok fun r _ => reduce_eq h r

theorem solveFirst_eq {p : Row} (h : p.lead ≠ 0) (xs : List Gaussian) :
    p.solveFirst xs = .ok ((p.constant - dot p.coefficients.tail xs) / p.lead) := by
  unfold solveFirst
  dsimp only
  rw [foldl_sub_mul, Gaussian.div_of_ne_zero _ h]

section
variable {n : Nat} {p r : Row} (hp : p.coefficients.length = n + 1)
include hp

theorem length_reduced (hr : r.coefficients.length = n + 1) : (p.reduced r).coefficients.length = n := by
  simp [reduced, hp, hr]

theorem dot_reduced (hr : r.coefficients.length = n + 1) (hlead : p.lead ≠ 0) (x : Gaussian) (xs : List Gaussian) :
    dot (p.reduced r).coefficients xs =
      dot r.coefficients (x :: xs) - r.lead / p.lead * dot p.coefficients (x :: xs) := by
  have htail : r.coefficients.tail.length = p.coefficients.tail.length := by
    rw [List.length_tail, List.length_tail, hp, hr]
  rw [dot_lead hr, dot_lead hp, reduced, dot_sub_mul htail]
  field_simp
  ring

theorem holds_cons_iff (hlead : p.lead ≠ 0) (x : Gaussian) (xs : List Gaussian) :
    p.Holds (x :: xs) ↔ x = (p.constant - dot p.coefficients.tail xs) / p.lead := by
  rw [Holds, dot_lead hp, eq_div_iff hlead]
  constructor
  · intro h
    rw [← h]
    ring
  · intro h
    rw [mul_comm, h]
    ring

/-- Given the pivot's equation, an equation and what is left of it say the same. -/
theorem holds_reduced_iff (hr : r.coefficients.length = n + 1) (hlead : p.lead ≠ 0) {x : Gaussian}
    {xs : List Gaussian} (h : p.Holds (x :: xs)) : (p.reduced r).Holds xs ↔ r.Holds (x :: xs) := by
  have hpivot : dot p.coefficients (x :: xs) = p.constant := h
  rw [Holds, Holds, dot_reduced hp hr hlead x, hpivot]
  exact sub_left_inj

end

end Row

/-! ## Pivots -/

/-- As many equations as unknowns. -/
structure Square (n : Nat) (rows : List Row) : Prop where
  count : rows.length = n
  width : ∀ r ∈ rows, r.coefficients.length = n

theorem bringToFront_perm (first : Row) (rest : List Row) (i : Nat) :
    ((bringToFront first rest i).1 :: (bringToFront first rest i).2).Perm (first :: rest) := by
  cases i with
  | zero => exact .refl _
  | succ i => exact List.getD_set_perm_cons rest i first

theorem choosePivot_perm {first : Row} {rest : List Row} {p : Row} {others : List Row}
    (h : choosePivot first rest = .ok (p, others)) : (p :: others).Perm (first :: rest) := by
  obtain ⟨best, _, h⟩ := bind_ok_iff.mp h
  obtain ⟨weights, _, h⟩ := bind_ok_iff.mp h
  have hfront : bringToFront first rest (heaviest best 0 1 weights) = (p, others) := Except.ok.inj h
  have hperm := bringToFront_perm first rest (heaviest best 0 1 weights)
  rwa [hfront] at hperm

theorem Square.perm {n : Nat} {rows rows' : List Row} (h : Square n rows) (hperm : rows'.Perm rows) :
    Square n rows' where
  count := hperm.length_eq.trans h.count
  width r hr := h.width r (hperm.mem_iff.mp hr)

theorem Square.reduced {n : Nat} {p : Row} {others : List Row} (h : Square (n + 1) (p :: others)) :
    Square n (others.map p.reduced) where
  count := by
    have := h.count
    rw [List.length_cons] at this
    rw [List.length_map]
    omega
  width r hr := by
    obtain ⟨q, hq, rfl⟩ := List.mem_map.mp hr
    exact Row.length_reduced (h.width p (by simp)) (h.width q (by simp [hq]))

/-- The solutions of all equations: the first unknown from the pivot, the others from what is left. -/
theorem holds_all_iff {n : Nat} {p : Row} {others : List Row} (h : Square (n + 1) (p :: others))
    (hlead : p.lead ≠ 0) (x : Gaussian) (xs : List Gaussian) :
    (∀ r ∈ p :: others, r.Holds (x :: xs)) ↔
      x = (p.constant - dot p.coefficients.tail xs) / p.lead ∧ ∀ r ∈ others.map p.reduced, r.Holds xs := by
  have hp := h.width p (by simp)
  rw [List.forall_mem_cons, List.forall_mem_map, Row.holds_cons_iff hp hlead]
  refine and_congr_right fun hx => forall₂_congr fun r hr => ?_
  have hpivot : p.Holds (x :: xs) := (Row.holds_cons_iff hp hlead x xs).mpr hx
  exact (Row.holds_reduced_iff hp (h.width r (by simp [hr])) hlead hpivot).symm

/-! ## Steps of a run -/

theorem eliminate_of_choosePivot_error {column n : Nat} {first : Row} {rest : List Row} {e : Failure}
    (h : choosePivot first rest = .error e) : eliminate column (n + 1) (first :: rest) = .error e := by
  rw [eliminate, h]
  rfl

section
variable {column n : Nat} {first p : Row} {rest others : List Row} (h : choosePivot first rest = .ok (p, others))
include h

theorem eliminate_of_lead_zero (hlead : p.lead = 0) :
    eliminate column (n + 1) (first :: rest) = .error (.singular column) := by
  rw [eliminate, h]
  exact if_pos (Gaussian.isZero_iff.mpr hlead)

theorem eliminate_of_lead_ne_zero (hlead : p.lead ≠ 0) :
    eliminate column (n + 1) (first :: rest) =
      (eliminate (column + 1) n (others.map p.reduced)).map fun xs =>
        (p.constant - dot p.coefficients.tail xs) / p.lead :: xs := by
  have hzero : ¬p.lead.isZero = true := mt Gaussian.isZero_iff.mp hlead
  rw [eliminate, h]
  simp only [bind, Except.bind, if_neg hzero, Row.mapM_reduce hlead, Row.solveFirst_eq hlead]
  cases eliminate (column + 1) n (others.map p.reduced) <;> rfl

end

theorem eliminate_zero (column : Nat) (rows : List Row) : eliminate column 0 rows = .ok [] := by
  rw [eliminate]
  · rfl
  · simp

/-! ## A whole run -/

theorem eliminate_sound {column n : Nat} {rows : List Row} {xs : List Gaussian} (hsq : Square n rows)
    (h : eliminate column n rows = .ok xs) :
    xs.length = n ∧ ∀ ys : List Gaussian, ys.length = n → ((∀ r ∈ rows, r.Holds ys) ↔ ys = xs) := by
  induction n generalizing column rows xs with
  | zero =>
    obtain rfl : rows = [] := List.length_eq_zero_iff.mp hsq.count
    rw [eliminate_zero] at h
    cases h
    refine ⟨rfl, fun ys hys => ?_⟩
    obtain rfl : ys = [] := List.length_eq_zero_iff.mp hys
    simp
  | succ n ih =>
    obtain ⟨first, rest, rfl⟩ := List.exists_cons_of_length_eq_add_one hsq.count
    cases hpivot : choosePivot first rest with
    | error e =>
      rw [eliminate_of_choosePivot_error hpivot] at h
      cases h
    | ok chosen =>
      obtain ⟨p, others⟩ := chosen
      by_cases hlead : p.lead = 0
      · rw [eliminate_of_lead_zero hpivot hlead] at h
        cases h
      rw [eliminate_of_lead_ne_zero hpivot hlead] at h
      obtain ⟨zs, hrest, rfl⟩ := map_ok_iff.mp h
      have hperm := choosePivot_perm hpivot
      have hsq' := hsq.perm hperm
      obtain ⟨hlen, hunique⟩ := ih hsq'.reduced hrest
      refine ⟨by rw [List.length_cons, hlen], fun ys hys => ?_⟩
      obtain ⟨y, ys, rfl⟩ := List.exists_cons_of_length_eq_add_one hys
      -- choosing a pivot only changes the order of the rows
      have hall : (∀ r ∈ first :: rest, r.Holds (y :: ys)) ↔ ∀ r ∈ p :: others, r.Holds (y :: ys) :=
        forall_congr' fun r => imp_congr_left hperm.mem_iff.symm
      rw [hall, holds_all_iff hsq' hlead, hunique ys (Nat.succ.inj hys), List.cons.injEq]
      exact and_congr_left fun heq => by rw [heq]

end Surd.LinearSystem
