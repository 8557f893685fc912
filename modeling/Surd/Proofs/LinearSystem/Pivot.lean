import Mathlib
import Surd.Proofs.Binary64.Arithmetic
import Surd.Proofs.Binary64.Order
import Surd.Proofs.LinearSystem.Elimination

/-!
# Which row becomes the pivot

Rows are compared by the doubles for the real parts of their first coefficients. A pivot is zero
exactly where the first row starts with zero and all these doubles are zero: `lead_eq_zero_iff`.
-/

namespace Surd.LinearSystem

open Binary64 (ofRat)

/-- The double by which a row is compared, but for its sign. -/
def Row.image (r : Row) : Binary64 := ofRat r.lead.re

/-- A row cannot be compared, since its double would be infinite. -/
def Overflows (rows : List Row) : Prop := ∃ r ∈ rows, r.image.isFinite = false

theorem isZero_image {r : Row} (h : r.lead.re = 0) : r.image.isZero = true := by
  rw [Row.image, h]
  exact Binary64.isZero_ofMagnitude_zero _

theorem weight_of_isFinite {r : Row} (h : r.image.isFinite = true) : weight r = .ok r.image.abs := by
  rw [weight, Binary64.ofFraction_of_isFinite h]
  rfl

theorem weight_of_not_isFinite {r : Row} (h : r.image.isFinite = false) : weight r = .error .fractionTooLarge := by
  rw [weight, Binary64.ofFraction_of_not_isFinite h]
  rfl

/-! ## The largest weight -/

/-- The weight at the place that is found is not below any other. `before` is what has been compared. -/
theorem heaviest_spec (before ws : List Binary64) (best : Binary64) (bestPlace : Nat)
    (hbest : before[bestPlace]? = some best) (hmax : ∀ w ∈ before, best.lt w = false) :
    ∃ w, (before ++ ws)[heaviest best bestPlace before.length ws]? = some w ∧
      ∀ w' ∈ before ++ ws, w.lt w' = false := by
  induction ws generalizing before best bestPlace with
  | nil => exact ⟨best, by simpa [heaviest] using hbest, by simpa using hmax⟩
  | cons w ws ih =>
    -- one more weight has been compared
    have happend : before ++ w :: ws = (before ++ [w]) ++ ws := by simp
    have hlen : before.length + 1 = (before ++ [w]).length := by simp
    rw [heaviest, happend, hlen]
    by_cases hlt : best.lt w = true
    · rw [if_pos hlt]
      refine ih (before ++ [w]) w before.length (by simp) fun w' hw' => ?_
      rcases List.mem_append.mp hw' with hw' | hw'
      · by_contra hnot
        have hbelow := Binary64.lt_trans hlt (Bool.eq_true_of_not_eq_false hnot)
        rw [hmax w' hw'] at hbelow
        cases hbelow
      · rw [List.mem_singleton.mp hw']
        exact Binary64.not_lt_self w
    · rw [if_neg hlt]
      have hplace : bestPlace < before.length := (List.getElem?_eq_some_iff.mp hbest).1
      refine ih (before ++ [w]) best bestPlace ?_ fun w' hw' => ?_
      · rw [List.getElem?_append_left hplace, hbest]
      · rcases List.mem_append.mp hw' with hw' | hw'
        · exact hmax w' hw'
        · rw [List.mem_singleton.mp hw']
          exact Bool.eq_false_iff.mpr hlt

theorem heaviest_of_not_lt {best : Binary64} {ws : List Binary64} (h : ∀ w ∈ ws, best.lt w = false)
    (bestPlace place : Nat) : heaviest best bestPlace place ws = bestPlace := by
  induction ws generalizing place with
  | nil => rfl
  | cons w ws ih =>
    rw [heaviest, if_neg (by rw [h w (by simp)]; decide)]
    exact ih (fun w' hw' => h w' (by simp [hw'])) (place + 1)

theorem bringToFront_fst (first : Row) (rest : List Row) (i : Nat) :
    (bringToFront first rest i).1 = (first :: rest).getD i first := by
  cases i <;> rfl

/-! ## Choosing -/

theorem mapM_weight_of_overflows {rows : List Row} (h : Overflows rows) :
    rows.mapM weight = .error .fractionTooLarge := by
  induction rows with
  | nil =>
    obtain ⟨r, hr, _⟩ := h
    cases hr
  | cons first rest ih =>
    rw [List.mapM_cons]
    cases hfirst : first.image.isFinite with
    | false =>
      rw [weight_of_not_isFinite hfirst]
      rfl
    | true =>
      have hrest : Overflows rest := by
        obtain ⟨r, hr, hover⟩ := h
        rcases List.mem_cons.mp hr with rfl | hr
        · rw [hfirst] at hover
          cases hover
        · exact ⟨r, hr, hover⟩
      rw [weight_of_isFinite hfirst, ih hrest]
      rfl

theorem isFinite_of_not_overflows {rows : List Row} (h : ¬Overflows rows) {r : Row} (hr : r ∈ rows) :
    r.image.isFinite = true :=
  Bool.eq_true_of_not_eq_false fun hover => h ⟨r, hr, hover⟩

section
variable {first : Row} {rest : List Row}

theorem choosePivot_of_overflows (h : Overflows (first :: rest)) :
    choosePivot first rest = .error .fractionTooLarge := by
  have hweights := mapM_weight_of_overflows h
  rw [List.mapM_cons, bind_error_iff] at hweights
  rw [choosePivot, bind_error_iff]
  refine hweights.imp_right fun ⟨w, hw, hrest⟩ => ⟨w, hw, bind_error_iff.mpr (.inl ?_)⟩
  rcases bind_error_iff.mp hrest with hrest | ⟨ws, _, hrest⟩
  · exact hrest
  · cases hrest

theorem choosePivot_of_not_overflows (h : ¬Overflows (first :: rest)) :
    choosePivot first rest =
      .ok (bringToFront first rest (heaviest first.image.abs 0 1 (rest.map fun r => r.image.abs))) := by
  have hmap : rest.mapM weight = .ok (rest.map fun r => r.image.abs) :=
    mapM_eq_ok fun r hr => weight_of_isFinite (isFinite_of_not_overflows h (by simp [hr]))
  unfold choosePivot
  rw [weight_of_isFinite (isFinite_of_not_overflows h (by simp)), hmap]
  rfl

variable {p : Row} {others : List Row} (h : choosePivot first rest = .ok (p, others))
include h

theorem not_overflows_of_choosePivot : ¬Overflows (first :: rest) := by
  intro hover
  rw [choosePivot_of_overflows hover] at h
  cases h

theorem pivot_eq_first (hzero : ∀ r ∈ first :: rest, r.image.isZero = true) : p = first := by
  have hnot : ∀ w ∈ rest.map (fun r => r.image.abs), first.image.abs.lt w = false := by
    intro w hw
    obtain ⟨r, hr, rfl⟩ := List.mem_map.mp hw
    exact Binary64.abs_lt_of_isZero (hzero r (by simp [hr]))
  rw [choosePivot_of_not_overflows (not_overflows_of_choosePivot h), heaviest_of_not_lt hnot] at h
  cases h
  rfl

/-- A pivot with weight zero is chosen only among such rows. -/
theorem isZero_of_pivot (hp : p.image.isZero = true) : ∀ r ∈ first :: rest, r.image.isZero = true := by
  intro r hr
  have hover := not_overflows_of_choosePivot h
  obtain ⟨w, hw, hmax⟩ := heaviest_spec [first.image.abs] (rest.map fun r => r.image.abs) first.image.abs 0 rfl
    (by simp [Binary64.not_lt_self])
  have hpw : w = p.image.abs := by
    have hplace : ((first :: rest).map fun r => r.image.abs)[heaviest first.image.abs 0 1
        (rest.map fun r => r.image.abs)]? = some w := hw
    rw [List.getElem?_map, Option.map_eq_some_iff] at hplace
    obtain ⟨q, hq, rfl⟩ := hplace
    rw [choosePivot_of_not_overflows hover] at h
    have hfst : _ = p := congrArg Prod.fst (Except.ok.inj h)
    rw [bringToFront_fst, List.getD_eq_getElem?_getD, hq] at hfst
    rw [← hfst]
    rfl
  by_contra hnot
  have hlt := Binary64.lt_abs_of_isZero hp (isFinite_of_not_overflows hover hr) (Bool.eq_false_iff.mpr hnot)
  have hle := hmax r.image.abs (List.mem_map_of_mem (f := fun r : Row => r.image.abs) hr)
  rw [hpw, hlt] at hle
  cases hle

theorem lead_eq_zero_iff :
    p.lead = 0 ↔ first.lead = 0 ∧ ∀ r ∈ first :: rest, r.image.isZero = true := by
  constructor
  · intro hlead
    have hzero : p.image.isZero = true := isZero_image (congrArg Gaussian.re hlead)
    have hall := isZero_of_pivot h hzero
    exact ⟨pivot_eq_first h hall ▸ hlead, hall⟩
  · intro hfirst
    rw [pivot_eq_first h hfirst.2]
    exact hfirst.1

end

end Surd.LinearSystem
