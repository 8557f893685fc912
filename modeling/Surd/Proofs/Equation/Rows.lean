import Mathlib
import Surd.Equation.SystemRow
import Surd.Proofs.Equation.Linear
import Surd.Proofs.Equation.Reading
import Surd.Proofs.LinearSystem.Elimination

/-!
# Rows of written linear equations

`systemRow_written`: the row that is read from a written linear equation says what the equation says. Its
coefficients times the values of the variables, less its last entry, are the left side less the right
side. An equation with a variable beyond the size of the system is not read.
-/

namespace Surd.Equation

open Text (Spaced)

/-! ## Variables -/

theorem variableOf_eq {s : List Char} (h : '\n' ∉ s) :
    variableOf s = systemVariables.find? fun v => s == v.1.toList := by
  unfold variableOf
  congr 1
  funext v
  have hne : s ≠ v.1.toList ++ ['\n'] := by
    rintro rfl
    exact h (by simp)
  simp [hne]

namespace VariableName

/-- The first three places have names in the table. -/
theorem variableOf_of_lt {v : VariableName} (h : v.place < 3) : ∃ name, variableOf v.plain = some (name, v.place) := by
  cases v with
  | letter p =>
    fin_cases p
    · exact ⟨"x", rfl⟩
    · exact ⟨"y", rfl⟩
    · exact ⟨"z", rfl⟩
  | indexed i =>
    have hi : i < 3 := h
    interval_cases i
    · exact ⟨"x1", rfl⟩
    · exact ⟨"x2", rfl⟩
    · exact ⟨"x3", rfl⟩

theorem variableOf_of_ge {v : VariableName} (h : 3 ≤ v.place) : variableOf v.plain = none := by
  cases v with
  | letter p => exact absurd p.isLt (not_lt.mpr h)
  | indexed i =>
    have hi : 3 ≤ i := h
    have hdigits : ∀ k ≤ 3, Text.digits (i + 1) ≠ Text.digits k := by
      intro k hk heq
      have hvalue := congrArg Text.natOfDigits heq
      rw [Text.natOfDigits_digits, Text.natOfDigits_digits] at hvalue
      omega
    have hend : '\n' ∉ (indexed i).plain := by
      intro hmem
      rcases List.mem_cons.mp hmem with h | h
      · cases h
      · exact absurd (Text.isDigit_of_mem_digits _ h) (by decide)
    have h1 : Text.digits (i + 1) ≠ ['1'] := hdigits 1 (by decide)
    have h2 : Text.digits (i + 1) ≠ ['2'] := hdigits 2 (by decide)
    have h3 : Text.digits (i + 1) ≠ ['3'] := hdigits 3 (by decide)
    rw [variableOf_eq hend]
    simp [systemVariables, plain, head, index, h1, h2, h3, Text.digits_ne_nil]

theorem isEnd_plain (v : VariableName) : isEnd v.plain = false := by
  rcases v.head_cases with h | h | h <;> simp [plain, isEnd, h]

theorem endsCoefficient_plain (v : VariableName) : EndsCoefficient v.plain := by
  intro c hc
  cases hc
  rcases v.head_cases with h | h | h <;> rw [h] <;> decide

end VariableName

/-! ## Terms -/

/-- A written term as a term of a row. -/
def Signed.linear (t : Signed LinearBody) : LinearTerm := ⟨t.body.place, t.sign.factor * t.body.coefficient⟩

section
variable (cfg : Settings) (size : Nat) (g : Sign)

theorem linearTerm_constant (q : Quantity) :
    linearTerm cfg size (g.plain :: q.text) = .ok ⟨none, g.factor * q.value⟩ := by
  have htake := takeCoefficient_quantity q (show EndsCoefficient [] by simp [EndsCoefficient])
  rw [List.append_nil] at htake
  have hend : isEnd [] = true := rfl
  have hne : q.text.isEmpty = false := by simpa using q.text_ne_nil
  rw [linearTerm, body_cons g q.text_ne_nil, ok_bind]
  simp only [htake, hend, hne, q.coefficient_eq, ok_bind, applySign_plain]
  rfl

theorem linearTerm_multiple (m : Option Multiplier) (v : VariableName) :
    linearTerm cfg size (g.plain :: (Body.quantityText m ++ v.plain)) =
      match variableOf v.plain with
      | none =>
        .error (.unreadableTerm (String.ofList (g.plain :: (Body.quantityText m ++ v.plain)))
          (quote (g.plain :: (Body.quantityText m ++ v.plain))))
      | some (name, place) =>
        if size ≤ place then
          .error (.variableNotAllowed name (String.ofList (g.plain :: (Body.quantityText m ++ v.plain))) size)
        else .ok ⟨some place, g.factor * Body.multiplierValue m⟩ := by
  have htake := takeCoefficient_quantityText m v.endsCoefficient_plain
  have hne : Body.quantityText m ++ v.plain ≠ [] := by simp [VariableName.plain]
  rw [linearTerm, body_cons g hne, ok_bind]
  simp only [htake, v.isEnd_plain]
  cases variableOf v.plain with
  | none => rfl
  | some found =>
    simp only [Body.coefficient_quantityText, ok_bind, applySign_plain]
    rfl

end

theorem linearTerm_of_isWithin (cfg : Settings) {size : Nat} (hsize : size ≤ 3) {t : Signed LinearBody}
    (h : t.body.IsWithin size) : linearTerm cfg size (LinearBody.spelling.term t) = .ok t.linear := by
  obtain ⟨g, b⟩ := t
  cases b with
  | constant q => exact linearTerm_constant cfg size g q
  | multiple m v capital =>
    have hplace : v.place < size := h v.place rfl
    obtain ⟨name, hname⟩ := v.variableOf_of_lt (hplace.trans_le hsize)
    have hterm := linearTerm_multiple cfg size g m v
    rw [hname] at hterm
    simp only [if_neg (not_le.mpr hplace)] at hterm
    exact hterm

theorem linearTerm_of_not_isWithin (cfg : Settings) {size : Nat} {t : Signed LinearBody} (h : ¬t.body.IsWithin size) :
    ∃ e, linearTerm cfg size (LinearBody.spelling.term t) = .error e ∧ e.kind = .parse := by
  obtain ⟨g, b⟩ := t
  cases b with
  | constant q => exact absurd (fun i hi => by cases hi) h
  | multiple m v capital =>
    have hplace : size ≤ v.place := by
      by_contra hlt
      refine h fun i hi => ?_
      cases hi
      exact not_le.mp hlt
    have hterm := linearTerm_multiple cfg size g m v
    by_cases hknown : v.place < 3
    · obtain ⟨name, hname⟩ := v.variableOf_of_lt hknown
      rw [hname] at hterm
      simp only [if_pos hplace] at hterm
      exact ⟨_, hterm, rfl⟩
    · rw [v.variableOf_of_ge (not_lt.mp hknown)] at hterm
      exact ⟨_, hterm, rfl⟩

theorem mapM_linearTerm (cfg : Settings) {size : Nat} (hsize : size ≤ 3) {ts : List (Signed LinearBody)}
    (h : ∀ t ∈ ts, t.body.IsWithin size) :
    (ts.map LinearBody.spelling.term).mapM (linearTerm cfg size) = .ok (ts.map Signed.linear) := by
  rw [List.mapM_map]
  exact mapM_eq_ok fun t ht => linearTerm_of_isWithin cfg hsize (h t ht)

/-- The first term beyond the size of the system ends the reading. -/
theorem mapM_linearTerm_error (cfg : Settings) {size : Nat} (hsize : size ≤ 3) {ts : List (Signed LinearBody)}
    (h : ∃ t ∈ ts, ¬t.body.IsWithin size) :
    ∃ e, (ts.map LinearBody.spelling.term).mapM (linearTerm cfg size) = .error e ∧ e.kind = .parse := by
  induction ts with
  | nil => simp at h
  | cons t ts ih =>
    rw [List.map_cons, List.mapM_cons]
    by_cases ht : t.body.IsWithin size
    · have hrest : ∃ t ∈ ts, ¬t.body.IsWithin size := by simpa [ht] using h
      obtain ⟨e, he, hkind⟩ := ih hrest
      rw [linearTerm_of_isWithin cfg hsize ht, ok_bind, he]
      exact ⟨e, rfl, hkind⟩
    · obtain ⟨e, he, hkind⟩ := linearTerm_of_not_isWithin cfg ht
      rw [he]
      exact ⟨e, rfl, hkind⟩

/-! ## Rows -/

theorem sumOf_cons (t : LinearTerm) (ls : List LinearTerm) (place : Option Nat) :
    sumOf (t :: ls) place = (if t.place = place then t.value else 0) + sumOf ls place := by
  simp only [sumOf, foldl_add_filter, zero_add]
  by_cases h : t.place = place <;> simp [h]

/-- The value of a term where each place has one. -/
def LinearTerm.valueAt (xs : Nat → Gaussian) (t : LinearTerm) : Gaussian := .ofRat t.value * t.place.elim 1 xs

/-- The value of a row that is collected from terms. -/
def collected (ls : List LinearTerm) (xs : Nat → Gaussian) (size : Nat) : Gaussian :=
  (∑ i ∈ Finset.range size, .ofRat (sumOf ls (some i)) * xs i) + .ofRat (sumOf ls none)

theorem collected_eq {ls : List LinearTerm} {size : Nat} (h : ∀ t ∈ ls, ∀ i ∈ t.place, i < size)
    (xs : Nat → Gaussian) : collected ls xs size = (ls.map (LinearTerm.valueAt xs)).sum := by
  have hadd : ∀ x y : Rat, Gaussian.ofRat (x + y) = .ofRat x + .ofRat y := Gaussian.ofRatHom.map_add
  have hzero : Gaussian.ofRat 0 = 0 := rfl
  induction ls with
  | nil => simp [collected, sumOf, hzero]
  | cons t ls ih =>
    have hone : (∑ i ∈ Finset.range size, .ofRat (if t.place = some i then t.value else 0) * xs i) +
        .ofRat (if t.place = none then t.value else 0) = t.valueAt xs := by
      cases hplace : t.place with
      | none => simp [LinearTerm.valueAt, hplace, hzero]
      | some k =>
        have hk : k < size := h t (by simp) k hplace
        rw [Finset.sum_eq_single k]
        · simp [LinearTerm.valueAt, hplace, hzero]
        · intro i _ hi
          simp [hi.symm, hzero]
        · intro hrange
          exact absurd (Finset.mem_range.mpr hk) hrange
    have hrest := ih fun t ht => h t (by simp [ht])
    rw [List.map_cons, List.sum_cons, ← hrest, ← hone]
    simp only [collected, sumOf_cons, hadd, add_mul, Finset.sum_add_distrib]
    ring

/-! ## Equations -/

theorem Signed.valueAt_linear (xs : Nat → Gaussian) (t : Signed LinearBody) :
    t.linear.valueAt xs = .ofRat t.sign.factor * t.body.value xs := by
  have hmul : ∀ x y : Rat, Gaussian.ofRat (x * y) = .ofRat x * .ofRat y := Gaussian.ofRatHom.map_mul
  obtain ⟨g, b⟩ := t
  cases b with
  | constant q => simp [linear, LinearTerm.valueAt, LinearBody.place, LinearBody.coefficient, LinearBody.value, hmul]
  | multiple m v capital =>
    simp [linear, LinearTerm.valueAt, LinearBody.place, LinearBody.coefficient, LinearBody.value, hmul, mul_assoc]

theorem Signed.valueAt_flip (xs : Nat → Gaussian) (t : Signed LinearBody) :
    t.flip.linear.valueAt xs = -t.linear.valueAt xs := by
  obtain ⟨g, b⟩ := t
  rw [valueAt_linear, valueAt_linear, ← neg_mul]
  cases g <;> rfl

theorem sum_valueAt_allLeft (xs : Nat → Gaussian) (E : Balance LinearBody) :
    ((E.allLeft.map Signed.linear).map (LinearTerm.valueAt xs)).sum = sumValue xs E.left - sumValue xs E.right := by
  have hleft : ∀ ts : List (Signed LinearBody), ((ts.map Signed.linear).map (LinearTerm.valueAt xs)).sum =
      (ts.map fun t => .ofRat t.sign.factor * t.body.value xs).sum := by
    intro ts
    rw [List.map_map]
    exact congrArg List.sum (List.map_congr_left fun t _ => t.valueAt_linear xs)
  have hright : ∀ ts : List (Signed LinearBody),
      (((ts.map Signed.flip).map Signed.linear).map (LinearTerm.valueAt xs)).sum =
        -(ts.map fun t => .ofRat t.sign.factor * t.body.value xs).sum := by
    intro ts
    induction ts with
    | nil => simp
    | cons t ts ih => simp only [List.map_cons, List.sum_cons, ih, t.valueAt_flip, t.valueAt_linear, neg_add]
  rw [Balance.allLeft, List.map_append, List.map_append, List.sum_append, hleft, hright, sumValue, sumValue,
    sub_eq_add_neg]

theorem dot_row (ls : List LinearTerm) (xs : Nat → Gaussian) (size : Nat) :
    LinearSystem.dot (((List.range size).map fun i => sumOf ls (some i)).map Gaussian.ofRat)
        ((List.range size).map xs) - .ofRat (-sumOf ls none) = collected ls xs size := by
  have hneg : Gaussian.ofRat (-sumOf ls none) = -.ofRat (sumOf ls none) := Gaussian.ofRatHom.map_neg _
  rw [LinearSystem.dot, List.map_map, List.zipWith_map, List.zipWith_self, hneg, sub_neg_eq_add]
  rfl

/-- The row of a written linear equation says what the equation says, and there is none where a variable
is beyond the size of the system. -/
theorem systemRow_written (cfg : Settings) (E : Balance LinearBody) {s : List Char}
    (hs : Spaced s (E.write Sign.char LinearBody.text)) (hlength : s.length ≤ cfg.maxInputLength) {size : Nat}
    (hsize : size ≤ 3) :
    ((∀ t ∈ E.terms, t.body.IsWithin size) →
      ∃ row last, systemRow cfg s size = .ok (row ++ [last]) ∧ row.length = size ∧
        ∀ xs : Nat → Gaussian, LinearSystem.dot row ((List.range size).map xs) - last =
          sumValue xs E.left - sumValue xs E.right) ∧
    ((∃ t ∈ E.terms, ¬t.body.IsWithin size) → ∃ e, systemRow cfg s size = .error e ∧ e.kind = .parse) := by
  have hforall := E.forall_allLeft (P := LinearBody.IsWithin size)
  rw [systemRow, LinearBody.spelling.terms_eq cfg E hs hlength, ok_bind]
  constructor
  · intro hwithin
    have hall := hforall.mpr hwithin
    have hplaces : ∀ t ∈ E.allLeft.map Signed.linear, ∀ i ∈ t.place, i < size := List.forall_mem_map.mpr hall
    rw [mapM_linearTerm cfg hsize hall, ok_bind]
    refine ⟨((List.range size).map fun i => sumOf (E.allLeft.map Signed.linear) (some i)).map .ofRat,
      .ofRat (-sumOf (E.allLeft.map Signed.linear) none), ?_, by simp, fun xs => ?_⟩
    · dsimp only
      rw [List.map_append]
      rfl
    · rw [dot_row, collected_eq hplaces, sum_valueAt_allLeft]
  · intro hbeyond
    have hsome : ∃ t ∈ E.allLeft, ¬t.body.IsWithin size := by
      by_contra hall
      push Not at hall
      obtain ⟨t, ht, hnot⟩ := hbeyond
      exact hnot (hforall.mp hall t ht)
    obtain ⟨e, he, hkind⟩ := mapM_linearTerm_error cfg hsize hsome
    rw [he]
    exact ⟨e, rfl, hkind⟩

/-- The equation `2x2 - 3/4*x = −y + 5`. -/
def sampleBalance : Balance LinearBody where
  left :=
    { bare := true
      first := ⟨.plus, .multiple (some ⟨.integer (.ofDigit 2), false⟩) (.indexed 1) true⟩
      rest :=
        [⟨.minus, .multiple (some ⟨.fraction (.ofDigit 3) (.ofDigit 4) (by decide), true⟩) (.letter ⟨0, by decide⟩) false⟩] }
  right :=
    { bare := false
      first := ⟨.longMinus, .multiple none (.letter ⟨1, by decide⟩) false⟩
      rest := [⟨.plus, .constant (.integer (.ofDigit 5))⟩] }

def sampleLine : List Char := " 2X2 - 3/4 *x = −y+ 5".toList

/-- The equation is read in a system of two equations, and not in one of a single equation. -/
theorem systemRow_sampleLine :
    Spaced sampleLine (sampleBalance.write Sign.char LinearBody.text) ∧
      (∃ row last, systemRow {} sampleLine 2 = .ok (row ++ [last]) ∧ row.length = 2 ∧
        ∀ xs : Nat → Gaussian, LinearSystem.dot row ((List.range 2).map xs) - last =
          sumValue xs sampleBalance.left - sumValue xs sampleBalance.right) ∧
      ∃ e, systemRow {} sampleLine 1 = .error e ∧ e.kind = .parse := by
  have hspaced : Spaced sampleLine (sampleBalance.write Sign.char LinearBody.text) :=
    Text.spaced_of_squeeze (by decide)
  have hlength : (sampleLine.length : Int) ≤ ({} : Settings).maxInputLength := by decide
  have hwithin : ∀ t ∈ sampleBalance.terms, t.body.IsWithin 2 := by
    unfold LinearBody.IsWithin
    decide
  have hbeyond : ∃ t ∈ sampleBalance.terms, ¬t.body.IsWithin 1 := by
    unfold LinearBody.IsWithin
    decide
  exact ⟨hspaced, (systemRow_written {} sampleBalance hspaced hlength (by decide)).1 hwithin,
    (systemRow_written {} sampleBalance hspaced hlength (by decide)).2 hbeyond⟩

end Surd.Equation
