import Mathlib
import Surd.Rational.Functions
import Surd.Proofs.Binary64.Arithmetic
import Surd.Proofs.Binary64.Rounding
import Surd.Proofs.Rational.Reading

/-!
# Fractions built from parts

What building a fraction from two parts leaves depends on their kinds (`quotient_of_zero`, `quotient_of_refused`,
`quotient_of_operands`). Arithmetic builds its results anew, so a double takes the place of a fraction only where a
fraction is built over a double: without such a step every fraction of a calculation is exact (`calculation_exact`).
-/

namespace Surd.Rational

/-! ## Parts -/

namespace Part

def value? : Part → Option ℚ
  | .int n => some n
  | .fraction x | .nested x | .ratio x => some x
  | .double x => x.value?

def isInt : Part → Bool
  | .int _ => true
  | _ => false

def isDouble : Part → Bool
  | .double _ => true
  | _ => false

/-- The part can be shown in a message. -/
def Writable : Part → Prop
  | .int n => Surd.Writable n
  | .fraction x | .nested x | .ratio x => Rational.Writable x
  | .double _ => True

theorem writesIf_write (p : Part) : WritesIf p.Writable p.write := by
  cases p with
  | int n => exact writesIf_writeInt n
  | fraction x => exact Rational.writesIf_write x
  | nested x => exact Rational.writesIf_write x
  | ratio x => exact Rational.writesIf_write x
  | double x => exact .pure _

theorem operand_eq_ok {p : Part} {x : ℚ} : p.operand = .ok x ↔ p.isDouble = false ∧ p.value? = some x := by
  cases p <;> simp [operand, isDouble, value?, pure, Except.pure, throw, throwThe, MonadExceptOf.throw]

theorem exists_operand {p : Part} (h : p.isDouble = false) : ∃ x, p.operand = .ok x := by
  cases p with
  | double x => cases h
  | _ => exact ⟨_, rfl⟩

theorem isZero_iff {p : Part} : p.isZero = true ↔ p.value? = some 0 := by
  cases p with
  | double x =>
    cases x with
    | nan => simp [isZero, value?, Binary64.isZero, Binary64.value?]
    | infinite s => simp [isZero, value?, Binary64.isZero, Binary64.value?]
    | finite s rank =>
      have hmagnitude : Binary64.magnitude rank.val = 0 ↔ rank.val = 0 := by
        constructor
        · intro h
          by_contra hrank
          exact absurd h (Binary64.magnitude_pos hrank).ne'
        · intro h
          rw [h, Binary64.magnitude_zero]
      cases s <;> simp [isZero, value?, Binary64.isZero, Binary64.value?, hmagnitude]
  | _ => simp [isZero, value?]

theorem value_of_isOne {p : Part} (h : p.isOne = true) : p.value? = some 1 := by
  cases p with
  | int n => simp_all [isOne, value?]
  | _ => simpa [isOne, value?] using h

end Part

/-! ## Fractions that are held -/

/-- The fraction is in lowest terms and can be read off. Its text fails only for parts with too many digits. -/
structure Quotient.Holds (q : Quotient) (x : ℚ) : Prop where
  numerator : q.numerator = .ok x.num
  denominator : q.denominator = .ok x.den
  denominator_pos : 0 < x.den
  coprime : x.num.natAbs.Coprime x.den
  write : WritesIf (Writable x) q.write

theorem Quotient.holds_of_fraction {q : Quotient} {x : ℚ} (h : q.fraction = .ok x) : q.Holds x where
  numerator := by rw [Quotient.numerator, h]; rfl
  denominator := by rw [Quotient.denominator, h]; rfl
  denominator_pos := x.den_pos
  coprime := x.reduced
  write := by
    simp only [Quotient.write, h, ok_bind]
    exact Rational.writesIf_write x

/-! ## Building from two parts -/

namespace Part

variable {n d : Part}

theorem quotient_of_zero (hd : d.value? = some 0) (hn : n.Writable) :
    ∃ dividend, n.quotient d = .error (.zeroDenominator (String.ofList dividend)) := by
  obtain ⟨dividend, hdividend⟩ := n.writesIf_write.exists_ok hn
  unfold quotient
  rw [if_pos (isZero_iff.mpr hd), hdividend]
  exact ⟨dividend, rfl⟩

theorem not_isZero (hd : d.value? ≠ some 0) : ¬d.isZero = true := mt isZero_iff.mp hd

/-- A double is refused over anything, and an integer over anything but an integer. -/
def Refused (n d : Part) : Prop := n.isDouble = true ∨ n.isInt = true ∧ d.isInt = false

theorem quotient_of_refused (hd : d.value? ≠ some 0) (h : n.Refused d) :
    n.quotient d = .error (.floatPart n.typeName d.typeName) := by
  unfold quotient
  rw [if_neg (not_isZero hd)]
  unfold Refused at h
  cases n with
  | int n => cases d <;> simp_all [isInt, isDouble] <;> rfl
  | double x => rfl
  | _ => simp [isInt, isDouble] at h

/-- Two integers leave what is read from the text of their quotient. -/
theorem quotient_int (n d : Int) : quotient (.int n) (.int d) = (divInt n d).map .exact := by
  have hzero : isZero (.int d) = true ↔ d = 0 := beq_iff_eq
  unfold quotient divInt
  by_cases hd : d = 0
  · rw [if_pos (hzero.mpr hd), if_pos hd, write]
    cases Text.writeInt n <;> rfl
  · rw [if_neg (mt hzero.mp hd), if_neg hd]
    rfl

theorem quotient_nested (hd : d.value? ≠ some 0) (x : ℚ) : quotient (.nested x) d = d.underNested x := by
  unfold quotient
  rw [if_neg (not_isZero hd)]

theorem fraction_of_under {x y : ℚ} (hy : d.operand = .ok y) :
    (∃ q, d.under x = .ok q ∧ q.fraction = .ok (x / y)) ∧
      ∃ q, d.underNested x = .ok q ∧ q.fraction = .ok (x / y) := by
  obtain ⟨hdouble, hvalue⟩ := operand_eq_ok.mp hy
  unfold under underNested
  by_cases hone : d.isOne = true
  · obtain rfl : 1 = y := Option.some.inj ((value_of_isOne hone).symm.trans hvalue)
    rw [if_pos hone, if_pos hone, div_one]
    exact ⟨⟨_, rfl, rfl⟩, _, rfl, rfl⟩
  · rw [if_neg hone, if_neg hone]
    cases d with
    | double x => cases hdouble
    | _ =>
      cases hvalue
      exact ⟨⟨_, rfl, rfl⟩, _, rfl, rfl⟩

theorem quotient_of_operands {x y : ℚ} (hx : n.operand = .ok x) (hy : d.operand = .ok y) (hy0 : y ≠ 0)
    (h : ¬n.Refused d) : ∃ q, n.quotient d = .ok q ∧ q.fraction = .ok (x / y) := by
  have hd : d.value? ≠ some 0 := by
    rw [(operand_eq_ok.mp hy).2]
    exact fun h => hy0 (Option.some.inj h)
  cases n with
  | int n =>
    cases d with
    | int d =>
      cases hx
      cases hy
      rw [quotient_int, divInt_of_ne_zero n (Int.cast_ne_zero.mp hy0)]
      exact ⟨_, rfl, rfl⟩
    | _ => exact absurd (.inr ⟨rfl, rfl⟩) h
  | nested x =>
    cases hx
    rw [quotient_nested hd]
    exact (fraction_of_under hy).2
  | double x => cases hx
  | _ =>
    cases hx
    unfold quotient
    rw [if_neg (not_isZero hd)]
    exact (fraction_of_under hy).1

/-- A fraction, but neither an integer nor a double, over a double. -/
def OverDouble (n d : Part) : Prop := d.isDouble = true ∧ n.isInt = false ∧ n.isDouble = false

theorem exists_operands (hrefused : ¬n.Refused d) (hover : ¬n.OverDouble d) :
    ∃ x y, n.operand = .ok x ∧ d.operand = .ok y := by
  have hn : n.isDouble = false := by
    by_contra hdouble
    exact hrefused (.inl (Bool.eq_true_of_not_eq_false hdouble))
  obtain ⟨x, hx⟩ := exists_operand hn
  cases d with
  | double y =>
    have hint : n.isInt = true := by
      by_contra hint
      exact hover ⟨rfl, Bool.eq_false_iff.mpr hint, hn⟩
    exact absurd (.inr ⟨hint, rfl⟩) hrefused
  | _ => exact ⟨x, _, hx, rfl⟩

theorem fraction_of_quotient {q : Quotient} (h : n.quotient d = .ok q) (hover : ¬n.OverDouble d) :
    ∃ x, q.fraction = .ok x := by
  by_cases hzero : d.isZero = true
  · unfold quotient at h
    rw [if_pos hzero] at h
    obtain ⟨_, _, h⟩ := bind_ok_iff.mp h
    cases h
  have hd : d.value? ≠ some 0 := mt isZero_iff.mpr hzero
  by_cases hrefused : n.Refused d
  · rw [quotient_of_refused hd hrefused] at h
    cases h
  obtain ⟨x, y, hx, hy⟩ := exists_operands hrefused hover
  have hy0 : y ≠ 0 := by
    intro hy0
    exact hd (hy0 ▸ (operand_eq_ok.mp hy).2)
  obtain ⟨q', hq', hfraction⟩ := quotient_of_operands hx hy hy0 hrefused
  cases h.symm.trans hq'
  exact ⟨_, hfraction⟩

end Part

theorem Step.run_eq_ok {step : Step} {x : ℚ} {q : Quotient} :
    step.run x = .ok q ↔ ∃ y, step.value x = .ok y ∧ q = .exact y := by
  rw [Step.run, bind_ok_iff]
  refine exists_congr fun y => and_congr_right fun _ => ?_
  have hquotient : Part.quotient (.ratio y) (.int 1) = .ok (.exact y) := rfl
  rw [hquotient]
  exact ⟨fun h => by cases h; rfl, fun h => h ▸ rfl⟩

/-! ## Calculations -/

/-- A fraction among the parts was built before. -/
def Part.From (built : List Quotient) : Part → Prop
  | .fraction x => .exact x ∈ built
  | .nested x => .nested x ∈ built
  | _ => True

def Step.From (built : List Quotient) : Step → Prop
  | .left _ p | .right _ p | .power p => p.From built
  | _ => True

/-- What the constructor or a step builds from fractions built before. -/
inductive Builds (built : List Quotient) : Quotient → Prop
  | construct {n d : Part} {q : Quotient} (hn : n.From built) (hd : d.From built) (hover : ¬n.OverDouble d)
      (h : n.quotient d = .ok q) : Builds built q
  | calculate {q r : Quotient} {x : ℚ} {step : Step} (hq : q ∈ built) (hx : q.fraction = .ok x)
      (hstep : step.From built) (h : step.run x = .ok r) : Builds built r

/-- The fractions that a calculation has built. A step that fails builds none. -/
inductive Reachable : List Quotient → Prop
  | start : Reachable []
  | build {built : List Quotient} {q : Quotient} (hbuilt : Reachable built) (hq : Builds built q) :
      Reachable (q :: built)

theorem Builds.exists_fraction {built : List Quotient} {q : Quotient} (h : Builds built q) :
    ∃ x, q.fraction = .ok x := by
  cases h with
  | construct _ _ hover h => exact Part.fraction_of_quotient h hover
  | calculate _ _ _ h =>
    obtain ⟨y, _, rfl⟩ := Step.run_eq_ok.mp h
    exact ⟨y, rfl⟩

theorem Reachable.exists_fraction {built : List Quotient} (h : Reachable built) :
    ∀ q ∈ built, ∃ x, q.fraction = .ok x := by
  induction h with
  | start => simp
  | build _ hq ih => exact List.forall_mem_cons.mpr ⟨hq.exists_fraction, ih⟩

/-- Building a fraction fails for a zero denominator and for the mixes of kinds that are refused, and leaves the
quotient in lowest terms otherwise. So does every step of a calculation that builds no fraction over a double. -/
theorem calculation_exact (n d : Part) :
    (d.value? = some 0 → n.Writable → ∃ e, n.quotient d = .error e ∧ e.kind = .divisionByZero) ∧
    (d.value? ≠ some 0 → n.Refused d → ∃ e, n.quotient d = .error e ∧ e.kind = .type) ∧
    (∀ x y, n.operand = .ok x → d.operand = .ok y → y ≠ 0 → ¬n.Refused d →
      ∃ q, n.quotient d = .ok q ∧ q.Holds (x / y)) ∧
    ∀ built, Reachable built → ∀ q ∈ built, ∃ x, q.Holds x := by
  refine ⟨?_, ?_, ?_, ?_⟩
  · intro hd hn
    obtain ⟨dividend, h⟩ := Part.quotient_of_zero hd hn
    exact ⟨_, h, rfl⟩
  · intro hd h
    exact ⟨_, Part.quotient_of_refused hd h, rfl⟩
  · intro x y hx hy hy0 h
    obtain ⟨q, hq, hfraction⟩ := Part.quotient_of_operands hx hy hy0 h
    exact ⟨q, hq, Quotient.holds_of_fraction hfraction⟩
  · intro built hbuilt q hq
    obtain ⟨x, hx⟩ := hbuilt.exists_fraction q hq
    exact ⟨x, Quotient.holds_of_fraction hx⟩

theorem calculation_exact_quarter :
    (∃ e, (Part.int 3).quotient (.fraction 0) = .error e ∧ e.kind = .divisionByZero) ∧
    (∃ e, (Part.double .nan).quotient (.int 2) = .error e ∧ e.kind = .type) ∧
    (∃ q, (Part.int 6).quotient (.int (-4)) = .ok q ∧ q.Holds ((6 : ℤ) / (-4 : ℤ))) ∧
    ∀ q ∈ [Quotient.nested 2, .exact (1 / 4), .exact (1 / 2)], ∃ x, q.Holds x := by
  have hhalf : Reachable [.exact (1 / 2)] :=
    .build .start (.construct (n := .int 1) (d := .int 2) trivial trivial (by simp [Part.OverDouble, Part.isDouble])
      (by decide +kernel))
  have hquarter : Reachable [.exact (1 / 4), .exact (1 / 2)] :=
    .build hhalf (.calculate (List.mem_singleton_self _) rfl (show Step.From _ (.power (.int 2)) from trivial)
      (by decide +kernel))
  have htwo : Reachable [.nested 2, .exact (1 / 4), .exact (1 / 2)] :=
    .build hquarter (.construct (n := .fraction (1 / 2)) (d := .fraction (1 / 4)) (by simp [Part.From])
      (by simp [Part.From]) (by simp [Part.OverDouble, Part.isDouble]) (by decide +kernel))
  refine ⟨?_, ?_, ?_, ?_⟩
  · exact (calculation_exact (.int 3) (.fraction 0)).1 rfl (writable_of_natAbs_le (by decide))
  · exact (calculation_exact (.double .nan) (.int 2)).2.1 (by decide) (.inl rfl)
  · exact (calculation_exact (.int 6) (.int (-4))).2.2.1 _ _ rfl rfl (by decide) (by simp [Part.Refused, Part.isDouble, Part.isInt])
  · exact (calculation_exact (.int 1) (.int 1)).2.2.2 _ htwo

/-- An integer is refused over a fraction, a double takes the place of a fraction that was built over it, and a
fraction or a dividend may be too long for a text. -/
theorem calculation_inexact :
    Part.quotient (.int 1) (.fraction (1 / 2)) = .error (.floatPart "int" "Rational") ∧
    Part.quotient (.fraction (1 / 2)) (.double 2) = .ok (.inexact (Binary64.ofRat (1 / 4))) ∧
    (Quotient.inexact (Binary64.ofRat (1 / 4))).write = .error .missingAttribute ∧
    Part.quotient (.int (Nat.pow 10 4300)) (.int 0) = .error .tooLongToWrite ∧
    Part.quotient (.int (Nat.pow 10 4300)) (.int 1) = .ok (.exact (Nat.pow 10 4300 : Nat)) ∧
    (Quotient.exact (Nat.pow 10 4300 : Nat)).write = .error .tooLongToWrite := by
  refine ⟨?_, ?_, ?_, ?_, ?_, ?_⟩
  · decide +kernel
  · decide +kernel
  · rfl
  · decide +kernel
  · decide +kernel
  · decide +kernel

end Surd.Rational
