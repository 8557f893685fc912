import Mathlib
import Surd.Proofs.LinearSystem.Pivot

/-!
# What elimination comes to

Two things keep elimination from an answer that the equations have: a coefficient that is too large
for a double, and a column in which no pivot is seen, since all that is not zero in it has a real
part that is zero as a double. Otherwise there is a solution exactly where the coefficients are
regular: `eliminate_outcome`.
-/

namespace Surd.LinearSystem

/-! ## Stages -/

/-- One column of elimination, with a pivot that is not zero. -/
inductive Step : List Row → List Row → Prop
  | reduce {first p : Row} {rest others : List Row} (hpivot : choosePivot first rest = .ok (p, others))
      (hlead : p.lead ≠ 0) : Step (first :: rest) (others.map p.reduced)

/-- Elimination gets to rows with a property. -/
def Meets (P : List Row → Prop) (rows : List Row) : Prop := ∃ stage, Relation.ReflTransGen Step rows stage ∧ P stage

/-- The first row starts with zero and another one does not, but all look alike as doubles. -/
def Blind : List Row → Prop
  | [] => False
  | first :: rest =>
    first.lead = 0 ∧ (∀ r ∈ first :: rest, r.image.isZero = true) ∧ ∃ r ∈ first :: rest, r.lead ≠ 0

section
variable {P : List Row → Prop} {first : Row} {rest : List Row}

theorem meets_iff_of_stuck {rows : List Row} (h : ∀ rows', ¬Step rows rows') : Meets P rows ↔ P rows := by
  constructor
  · rintro ⟨stage, hreach, hP⟩
    rcases Relation.ReflTransGen.cases_head hreach with rfl | ⟨rows', hstep, _⟩
    · exact hP
    · exact absurd hstep (h rows')
  · intro hP
    exact ⟨rows, .refl, hP⟩

theorem meets_cons_iff {p : Row} {others : List Row} (hpivot : choosePivot first rest = .ok (p, others))
    (hlead : p.lead ≠ 0) : Meets P (first :: rest) ↔ P (first :: rest) ∨ Meets P (others.map p.reduced) := by
  constructor
  · rintro ⟨stage, hreach, hP⟩
    rcases Relation.ReflTransGen.cases_head hreach with rfl | ⟨rows', hstep, hreach⟩
    · exact .inl hP
    · cases hstep with
      | reduce hpivot' =>
        cases hpivot.symm.trans hpivot'
        exact .inr ⟨stage, hreach, hP⟩
  · rintro (hP | ⟨stage, hreach, hP⟩)
    · exact ⟨first :: rest, .refl, hP⟩
    · exact ⟨stage, .head (.reduce hpivot hlead) hreach, hP⟩

theorem stuck_of_overflows (h : Overflows (first :: rest)) (rows' : List Row) : ¬Step (first :: rest) rows' := by
  intro hstep
  cases hstep with
  | reduce hpivot => exact not_overflows_of_choosePivot hpivot h

theorem stuck_of_lead_zero {p : Row} {others : List Row} (hpivot : choosePivot first rest = .ok (p, others))
    (hlead : p.lead = 0) (rows' : List Row) : ¬Step (first :: rest) rows' := by
  intro hstep
  cases hstep with
  | reduce hpivot' hlead' =>
    cases hpivot.symm.trans hpivot'
    exact hlead' hlead

theorem not_blind_of_overflows (h : Overflows (first :: rest)) : ¬Blind (first :: rest) := by
  rintro ⟨_, hzero, _⟩
  obtain ⟨r, hr, hover⟩ := h
  rw [Binary64.isFinite_of_isZero (hzero r hr)] at hover
  cases hover

end

/-! ## Regular coefficients -/

/-- Only zeros make all left sides zero. -/
def Regular (n : Nat) (rows : List Row) : Prop :=
  ∀ xs : List Gaussian, xs.length = n → (∀ r ∈ rows, dot r.coefficients xs = 0) → xs = List.replicate n 0

theorem regular_congr {n : Nat} {rows rows' : List Row} (h : rows.Perm rows') : Regular n rows ↔ Regular n rows' :=
  forall₂_congr fun _ _ => imp_congr_left (forall_congr' fun _ => imp_congr_left h.mem_iff)

theorem dot_replicate_zero (cs : List Gaussian) (n : Nat) : dot cs (List.replicate n 0) = 0 := by
  induction cs generalizing n with
  | nil => rfl
  | cons c cs ih =>
    cases n with
    | zero => rfl
    | succ n => rw [List.replicate_succ, dot_cons, ih, mul_zero, add_zero]

theorem regular_reduced_iff {n : Nat} {p : Row} {others : List Row} (h : Square (n + 1) (p :: others))
    (hlead : p.lead ≠ 0) : Regular (n + 1) (p :: others) ↔ Regular n (others.map p.reduced) := by
  have hp := h.width p (by simp)
  have hdot : ∀ {r : Row} {x : Gaussian} {xs : List Gaussian}, r ∈ others → dot p.coefficients (x :: xs) = 0 →
      (dot (p.reduced r).coefficients xs = 0 ↔ dot r.coefficients (x :: xs) = 0) := by
    intro r x xs hr hzero
    rw [Row.dot_reduced hp (h.width r (by simp [hr])) hlead x, hzero, mul_zero, sub_zero]
  constructor
  · intro hreg xs hxs hall
    -- the first unknown that the pivot's left side asks for
    have hzero : dot p.coefficients (-dot p.coefficients.tail xs / p.lead :: xs) = 0 := by
      rw [Row.dot_lead hp]
      field_simp
      ring
    have hall' : ∀ r ∈ p :: others, dot r.coefficients (-dot p.coefficients.tail xs / p.lead :: xs) = 0 := by
      intro r hr
      rcases List.mem_cons.mp hr with rfl | hr
      · exact hzero
      · exact (hdot hr hzero).mp (hall _ (List.mem_map_of_mem hr))
    have hreplicate := hreg _ (by rw [List.length_cons, hxs]) hall'
    rw [List.replicate_succ, List.cons.injEq] at hreplicate
    exact hreplicate.2
  · intro hreg ys hys hall
    obtain ⟨x, xs, rfl⟩ := List.exists_cons_of_length_eq_add_one hys
    have hzero := hall p (by simp)
    obtain rfl := hreg xs (Nat.succ.inj hys) fun r hr => by
      obtain ⟨q, hq, rfl⟩ := List.mem_map.mp hr
      exact (hdot hq hzero).mpr (hall q (by simp [hq]))
    rw [Row.dot_lead hp, dot_replicate_zero, add_zero] at hzero
    rw [(mul_eq_zero.mp hzero).resolve_left hlead, List.replicate_succ]

theorem not_regular_of_leads_zero {n : Nat} {rows : List Row} (h : Square (n + 1) rows)
    (hlead : ∀ r ∈ rows, r.lead = 0) : ¬Regular (n + 1) rows := by
  intro hreg
  have hone := hreg (1 :: List.replicate n 0) (by simp) fun r hr => by
    rw [Row.dot_lead (h.width r hr), hlead r hr, dot_replicate_zero, zero_mul, add_zero]
  rw [List.replicate_succ, List.cons.injEq] at hone
  exact one_ne_zero hone.1

/-! ## A whole run -/

/-- What elimination may come to, with what brings it there. -/
inductive Outcome (n : Nat) (rows : List Row) : Except Failure (List Gaussian) → Prop
  | tooLarge (hover : Meets Overflows rows) (hblind : ¬Meets Blind rows) : Outcome n rows (.error .fractionTooLarge)
  | blind (hover : ¬Meets Overflows rows) (hblind : Meets Blind rows) (column : Nat) :
      Outcome n rows (.error (.singular column))
  | singular (hover : ¬Meets Overflows rows) (hblind : ¬Meets Blind rows) (hreg : ¬Regular n rows) (column : Nat) :
      Outcome n rows (.error (.singular column))
  | solved (hover : ¬Meets Overflows rows) (hblind : ¬Meets Blind rows) (hreg : Regular n rows) (xs : List Gaussian) :
      Outcome n rows (.ok xs)

namespace Outcome

variable {n : Nat} {rows : List Row} {r : Except Failure (List Gaussian)} (h : Outcome n rows r)
include h

theorem ok_iff : (∃ xs, r = .ok xs) ↔ Regular n rows ∧ ¬Meets Overflows rows ∧ ¬Meets Blind rows := by
  cases h with
  | tooLarge hover => simp [hover]
  | blind _ hblind => simp [hblind]
  | singular _ _ hreg => simp [hreg]
  | solved hover hblind hreg => simp [hover, hblind, hreg]

theorem singular_iff :
    (∃ column, r = .error (.singular column)) ↔ (¬Regular n rows ∨ Meets Blind rows) ∧ ¬Meets Overflows rows := by
  cases h with
  | tooLarge hover => simp [hover]
  | blind hover hblind => simp [hover, hblind]
  | singular hover _ hreg => simp [hover, hreg]
  | solved _ hblind hreg => simp [hblind, hreg]

theorem tooLarge_iff : r = .error .fractionTooLarge ↔ Meets Overflows rows := by
  cases h with
  | tooLarge hover => simp [hover]
  | blind hover => simp [hover]
  | singular hover => simp [hover]
  | solved hover => simp [hover]

end Outcome

theorem outcome_nil (xs : List Gaussian) : Outcome 0 [] (.ok xs) := by
  have hstuck : ∀ rows', ¬Step [] rows' := by
    intro rows' hstep
    cases hstep
  refine .solved ?_ ?_ (fun xs hxs _ => List.length_eq_zero_iff.mp hxs) xs
  · rw [meets_iff_of_stuck hstuck]
    rintro ⟨r, hr, _⟩
    cases hr
  · rw [meets_iff_of_stuck hstuck]
    exact id

section
variable {n : Nat} {first p : Row} {rest others : List Row} (h : Square (n + 1) (first :: rest))
  (hpivot : choosePivot first rest = .ok (p, others))
include h hpivot

/-- A pivot that is zero is the end: nothing is left in the column, or what is left has not been seen. -/
theorem outcome_of_lead_zero (hlead : p.lead = 0) (column : Nat) :
    Outcome (n + 1) (first :: rest) (.error (.singular column)) := by
  have hstuck := stuck_of_lead_zero hpivot hlead
  have hover : ¬Meets Overflows (first :: rest) :=
    mt (meets_iff_of_stuck hstuck).mp (not_overflows_of_choosePivot hpivot)
  obtain ⟨hfirst, himage⟩ := (lead_eq_zero_iff hpivot).mp hlead
  by_cases hall : ∀ r ∈ first :: rest, r.lead = 0
  · refine .singular hover ?_ (not_regular_of_leads_zero h hall) column
    rw [meets_iff_of_stuck hstuck]
    rintro ⟨_, _, r, hr, hne⟩
    exact hne (hall r hr)
  · push Not at hall
    exact .blind hover ((meets_iff_of_stuck hstuck).mpr ⟨hfirst, himage, hall⟩) column

/-- Otherwise the rows come to what the reduced ones come to. -/
theorem outcome_of_lead_ne_zero (hlead : p.lead ≠ 0) (g : List Gaussian → List Gaussian)
    {r : Except Failure (List Gaussian)} (hrest : Outcome n (others.map p.reduced) r) :
    Outcome (n + 1) (first :: rest) (r.map g) := by
  have hblind : ¬Blind (first :: rest) := fun hblind =>
    hlead ((lead_eq_zero_iff hpivot).mpr ⟨hblind.1, hblind.2.1⟩)
  have hover := (meets_cons_iff hpivot hlead).trans (or_iff_right (not_overflows_of_choosePivot hpivot))
  have hblind := (meets_cons_iff hpivot hlead).trans (or_iff_right hblind)
  have hperm := choosePivot_perm hpivot
  have hreg : Regular (n + 1) (first :: rest) ↔ Regular n (others.map p.reduced) :=
    (regular_congr hperm.symm).trans (regular_reduced_iff (h.perm hperm) hlead)
  cases hrest with
  | tooLarge ho hb => exact .tooLarge (hover.mpr ho) (mt hblind.mp hb)
  | blind ho hb column => exact .blind (mt hover.mp ho) (hblind.mpr hb) column
  | singular ho hb hr column => exact .singular (mt hover.mp ho) (mt hblind.mp hb) (mt hreg.mp hr) column
  | solved ho hb hr xs => exact .solved (mt hover.mp ho) (mt hblind.mp hb) (hreg.mpr hr) (g xs)

end

theorem eliminate_outcome {n : Nat} {rows : List Row} (h : Square n rows) (column : Nat) :
    Outcome n rows (eliminate column n rows) := by
  -- one column a step: what the rows come to is said by those that the next column starts with
  induction n generalizing column rows with
  | zero =>
    obtain rfl : rows = [] := List.length_eq_zero_iff.mp h.count
    rw [eliminate_zero]
    exact outcome_nil []
  | succ n ih =>
    obtain ⟨first, rest, rfl⟩ := List.exists_cons_of_length_eq_add_one h.count
    by_cases hover : Overflows (first :: rest)
    · have hstuck := stuck_of_overflows hover
      rw [eliminate_of_choosePivot_error (choosePivot_of_overflows hover)]
      refine .tooLarge ((meets_iff_of_stuck hstuck).mpr hover) ?_
      rw [meets_iff_of_stuck hstuck]
      exact not_blind_of_overflows hover
    · obtain ⟨⟨p, others⟩, hpivot⟩ : ∃ chosen, choosePivot first rest = .ok chosen :=
        ⟨_, choosePivot_of_not_overflows hover⟩
      by_cases hlead : p.lead = 0
      · rw [eliminate_of_lead_zero hpivot hlead]
        exact outcome_of_lead_zero h hpivot hlead column
      · rw [eliminate_of_lead_ne_zero hpivot hlead]
        exact outcome_of_lead_ne_zero h hpivot hlead _ (ih (h.perm (choosePivot_perm hpivot)).reduced (column + 1))

end Surd.LinearSystem
